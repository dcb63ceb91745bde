import Vmx.Os.PathNames

/-!
# What `pathCondense` makes of a path

The loops of `pathCondense` compute the text of the place that the path behind its device leads
to, as long as the names fit the array and the buffers (`pathCondense_eq`).  They do not when
there are ten names or more, of which the code does not keep count.  `condensed_iff` says for
which paths the result is right.
-/

namespace Vmx.Path

variable {t name path : List Char} {ns done : List (List Char)} {iosDevList : List (List Char)}

/-! ## Parsing -/

theorem pathParseLoop_eq (hname : ∀ c ∈ name, isSep c = false) (t : List Char) :
    pathParseLoop name t = names (name ++ t) := by
  induction t generalizing name with
  | nil =>
    rw [pathParseLoop, List.append_nil]
    split
    next hnil => rw [hnil, names_nil]
    next hne => rw [names_singleton ⟨hne, hname⟩]
  | cons c t ih =>
    rw [pathParseLoop]
    have hnil : ∀ x ∈ ([] : List Char), isSep x = false := fun x hx => by cases hx
    have hrest := ih hnil
    rw [List.nil_append] at hrest
    split
    next hc =>
      split
      next hnil => rw [hrest, hnil, List.nil_append, names_sep hc]
      next hne => rw [hrest, names_append ⟨hne, hname⟩ hc]
    next hc =>
      rw [ih, List.append_assoc, List.singleton_append]
      intro x hx
      rcases List.mem_append.1 hx with hx | hx
      · exact hname x hx
      · rw [List.mem_singleton.1 hx]
        simpa using hc

/-- The names that are not emptied. -/
def kept (ns : List (List Char)) : List (List Char) := ns.filter (· ≠ [])

theorem kept_cons (h : name ≠ []) (ns : List (List Char)) : kept (name :: ns) = name :: kept ns :=
  List.filter_cons_of_pos (by simpa using h)

theorem kept_nil_cons (ns : List (List Char)) : kept ([] :: ns) = kept ns :=
  List.filter_cons_of_neg (by simp)

/-! ## Reducing -/

theorem kept_emptyPrev (prev : List (List Char)) : kept (emptyPrev prev) = (kept prev).tail := by
  induction prev with
  | nil => rfl
  | cons name prev ih =>
    rw [emptyPrev]
    split
    next hnil => rw [hnil, kept_nil_cons, kept_nil_cons, ih]
    next hne => rw [kept_nil_cons, kept_cons hne, List.tail_cons]

/-- What `.` and `..` leave over is what the names walk to. -/
theorem kept_reduceLoop (h : ∀ n ∈ ns, n ≠ []) (prev : List (List Char)) (up : Nat) :
    kept (reduceLoop prev ns) = (ns.foldl walk (up, kept prev)).2.reverse := by
  induction ns generalizing prev up with
  | nil =>
    rw [reduceLoop, kept, List.filter_reverse]
    rfl
  | cons name ns ih =>
    have hne : name ≠ [] := h name List.mem_cons_self
    have hrest : ∀ n ∈ ns, n ≠ [] := fun n hn => h n (List.mem_cons_of_mem _ hn)
    rw [reduceLoop, List.foldl_cons, walk]
    split
    next => rw [ih hrest _ up, kept_nil_cons]
    next =>
      split
      next =>
        cases hprev : kept prev with
        | nil => rw [ih hrest _ (up + 1), kept_nil_cons, kept_emptyPrev, hprev, List.tail_nil]
        | cons n l => rw [ih hrest _ up, kept_nil_cons, kept_emptyPrev, hprev, List.tail_cons]
      next => rw [ih hrest _ up, kept_cons hne]

/-- The names that are left are those of the place. -/
theorem kept_pathArrayReduce (t : List Char) :
    kept (pathArrayReduce (if names t = [] then [['.']] else names t)) = (place false t).down := by
  have hne : ∀ n ∈ (if names t = [] then [['.']] else names t), n ≠ [] := by
    intro n hn
    split at hn
    · rw [List.mem_singleton.1 hn]
      decide
    · exact (isName_of_mem_names hn).1
  rw [pathArrayReduce, kept_reduceLoop hne [] 0, place]
  split
  next hnil =>
    rw [hnil]
    rfl
  next => rfl

/-! ## Building -/

/-- Names with a separator behind each. -/
def slashed (ns : List (List Char)) : List Char := ns.flatMap fun name => name ++ ['/']

theorem slashed_cons (name : List Char) (ns : List (List Char)) :
    slashed (name :: ns) = name ++ ['/'] ++ slashed ns := rfl

theorem slashed_eq (h : ns ≠ []) : slashed ns = text [] ns ++ ['/'] := by
  induction ns with
  | nil => exact absurd rfl h
  | cons name ns ih =>
    rw [slashed_cons, text_cons]
    by_cases hns : ns = []
    · rw [if_pos hns, hns]
      simp [slashed]
    · rw [if_neg hns, ih hns]
      simp [text]

/-- The names are built, when they fit; otherwise the buffer is overrun, or the last of them are
left out. -/
theorem buildLoop_spec (ns : List (List Char)) (result : List Char) (slashEnd : Bool) :
    (result.length + size (kept ns) < PATH_MAX → buildLoop ns result.length result slashEnd =
        some (OK, result ++ slashed (kept ns), slashEnd || kept ns ≠ [])) ∧
      (PATH_MAX ≤ result.length + size (kept ns) → result.length < PATH_MAX →
        ∀ r, buildLoop ns result.length result slashEnd = some r →
          r.1 = ERROR ∧ ∃ k < (kept ns).length, r.2.1 = result ++ slashed ((kept ns).take k)) := by
  induction ns generalizing result slashEnd with
  | nil =>
    refine ⟨fun _ => ?_, fun hle hlt => ?_⟩
    · simp [buildLoop, kept, slashed]
    · simp [kept] at hle
      omega
  | cons name ns ih =>
    rw [buildLoop]
    by_cases hnil : name = []
    · rw [if_pos hnil, hnil, kept_nil_cons]
      exact ih result slashEnd
    · rw [if_neg hnil, kept_cons hnil, size_cons]
      dsimp only
      have hlen : (result ++ name ++ ['/']).length = result.length + name.length + 1 := by
        simp [Nat.add_assoc]
      obtain ⟨hfit, hnot⟩ := ih (result ++ name ++ ['/']) true
      rw [hlen] at hfit hnot
      refine ⟨fun hlt => ?_, fun hle hlt r hr => ?_⟩
      · rw [if_neg (by omega), if_neg (by omega), hfit (by omega)]
        simp [slashed_cons]
      · split at hr
        next =>
          cases hr
          refine ⟨rfl, 0, by simp, ?_⟩
          simp [slashed]
        next =>
          split at hr
          next => cases hr
          next hroom =>
            obtain ⟨herror, k, hk, heq⟩ := hnot (by omega) (by omega) r hr
            refine ⟨herror, k + 1, by simpa using hk, ?_⟩
            rw [heq, List.take_succ_cons, slashed_cons]
            simp

theorem pathBuild_spec (ns : List (List Char)) {l : List Char} (hl : IsLead l) :
    (l.length + size (kept ns) < PATH_MAX → pathBuild ns l = some (OK, text l (kept ns))) ∧
      (PATH_MAX ≤ l.length + size (kept ns) → ∀ r, pathBuild ns l = some r →
        ∃ k < (kept ns).length, r.2 = l ++ slashed ((kept ns).take k)) := by
  have hlen : l.length + 1 < PATH_MAX := by
    rcases hl with rfl | ⟨c, rfl, -⟩
    · decide
    · show 2 < PATH_MAX
      decide
  have hend : (l.getLast?.map fun c => !isSep c).getD false = false := by
    rcases hl with rfl | ⟨c, rfl, hc⟩
    · rfl
    · simp [hc]
  obtain ⟨hfit, hnot⟩ := buildLoop_spec ns l false
  unfold pathBuild
  dsimp only
  rw [if_neg (by omega), hend, if_neg Bool.false_ne_true, if_neg (by omega)]
  refine ⟨fun hlt => ?_, fun hle r hr => ?_⟩
  · rw [hfit hlt]
    by_cases hnil : kept ns = []
    · simp [hnil, slashed]
    · simp [hnil, slashed_eq hnil, text]
  · obtain ⟨r', hr', rfl⟩ := Option.map_eq_some_iff.1 hr
    obtain ⟨herror, k, hk, heq⟩ := hnot hle (by omega) r' hr'
    refine ⟨k, hk, ?_⟩
    have hne : ¬ (r'.1 = OK ∧ r'.2.2 = true) := fun h => by
      rw [herror] at h
      exact absurd h.1 (by decide)
    rw [if_neg hne, heq]

/-! ## The path behind the device -/

/-- `pathCondense`, of the path behind the device. -/
def condenseTail (t : List Char) : Option (List Char) :=
  (pathParse t).bind fun nameArray =>
    (pathBuild (pathArrayReduce nameArray) (lead t)).map Prod.snd

theorem pathCondense_eq_tail (iosDevList : List (List Char)) (path : List Char) :
    pathCondense iosDevList path =
      (condenseTail (path.drop (iosDevFind iosDevList path))).map
        (path.take (iosDevFind iosDevList path) ++ ·) := by
  unfold pathCondense condenseTail
  dsimp only
  cases pathParse (path.drop (iosDevFind iosDevList path)) with
  | none => rfl
  | some nameArray => simp [Function.comp_def]

/-- The names fit the array and the buffers. -/
structure Fits (t : List Char) : Prop where
  count : (names t).length < nameArraySize
  parsed : size (names t) ≤ PATH_MAX
  built : (lead t).length + size (place false t).down < PATH_MAX

theorem pathParse_eq (t : List Char) :
    pathParse t =
      if (names t).length < nameArraySize ∧ size (names t) ≤ PATH_MAX then
        some (if names t = [] then [['.']] else names t)
      else none := by
  have hloop : pathParseLoop [] t = names t := pathParseLoop_eq (fun x hx => by cases hx) t
  unfold pathParse
  rw [hloop]
  change (if (names t).length + 1 > nameArraySize then none
    else if size (names t) > PATH_MAX then none
    else some (if names t = [] then [['.']] else names t)) = _
  by_cases hfits : (names t).length < nameArraySize ∧ size (names t) ≤ PATH_MAX
  · rw [if_pos hfits, if_neg (by omega), if_neg (by omega)]
  · rw [if_neg hfits]
    by_cases hcount : (names t).length + 1 > nameArraySize
    · rw [if_pos hcount]
    · rw [if_neg hcount, if_pos (by omega)]

theorem Fits.condenseTail (h : Fits t) : condenseTail t = some (resolved t) := by
  have hbuild := (pathBuild_spec (pathArrayReduce (if names t = [] then [['.']] else names t))
    (isLead_lead t)).1
  rw [kept_pathArrayReduce] at hbuild
  rw [Path.condenseTail, pathParse_eq, if_pos ⟨h.count, h.parsed⟩, Option.bind_some,
    hbuild h.built]
  rfl

theorem names_append_sep (s : List Char) {c : Char} (hc : isSep c = true) (t : List Char) :
    names (s ++ c :: t) = names s ++ names t := by
  rw [names, List.splitOnP_append_cons s t hc, List.filter_append]
  rfl

theorem names_slashed {l : List Char} (hl : IsLead l) (h : ∀ n ∈ ns, IsName n) :
    names (l ++ slashed ns) = ns := by
  by_cases hnil : ns = []
  · subst hnil
    simpa [slashed] using names_text hl h
  · have htext : l ++ slashed ns = text l ns ++ '/' :: [] := by
      rw [slashed_eq hnil]
      simp [text]
    rw [htext, names_append_sep _ rfl, names_text hl h, names_nil, List.append_nil]

/-- What does not fit is cut off, or overruns a buffer. -/
theorem condenseTail_down (h : ¬ Fits t) {u : List Char} (hu : condenseTail t = some u)
    (device : Bool) : (place device u).down ≠ (place device t).down := by
  rw [condenseTail, pathParse_eq] at hu
  split at hu
  next hparse =>
    have hbuilt : PATH_MAX ≤ (lead t).length + size (place false t).down := by
      by_contra hlt
      exact h ⟨hparse.1, hparse.2, by omega⟩
    have hbuild := (pathBuild_spec (pathArrayReduce (if names t = [] then [['.']] else names t))
      (isLead_lead t)).2
    rw [kept_pathArrayReduce] at hbuild
    obtain ⟨r, hr, rfl⟩ := Option.map_eq_some_iff.1 hu
    obtain ⟨k, hk, heq⟩ := hbuild hbuilt r hr
    have hdown : ∀ n ∈ (place false t).down.take k, GoesDown n := fun n hn =>
      (place_down false t).1 n (List.mem_of_mem_take hn)
    intro hsame
    have hnames := names_slashed (isLead_lead t) fun n hn => (hdown n hn).1
    rw [← heq] at hnames
    have hlen := congrArg List.length hsame
    rw [place, hnames, walk_goesDown hdown] at hlen
    have hplace : (place device t).down = (place false t).down := rfl
    rw [hplace] at hlen
    simp only [List.append_nil, List.reverse_reverse, List.length_take] at hlen
    omega
  next => cases hu

/-- The end of a path that leads to itself fits. -/
theorem Fits.suffix {s : List Char} (h : Fits t) (hs : s <:+ resolved t) (heq : resolved s = s) :
    Fits s := by
  have hdown := (place_down false t).1
  have hnames : names (resolved t) = (place false t).down :=
    names_text (isLead_lead t) fun n hn => (hdown n hn).1
  obtain ⟨hcount, hsize⟩ := names_suffix hs
  rw [hnames] at hcount hsize
  have hle := (place_down false t).2
  have hbuilt := h.built
  have hnames' : names s = (place false s).down := by
    conv_lhs => rw [← heq]
    exact names_text (isLead_lead s) fun n hn => ((place_down false s).1 n hn).1
  refine ⟨lt_of_le_of_lt (hcount.trans hle) h.count, by omega, ?_⟩
  have hlen := hs.length_le
  by_cases hnil : (place false s).down = []
  · rw [hnil, size_nil]
    rcases isLead_lead s with hl | ⟨c, hl, -⟩
    · rw [hl]
      decide
    · rw [hl]
      show 1 < PATH_MAX
      decide
  · have hlens := length_text (l := lead s) hnil
    have hne : (place false t).down ≠ [] := by
      intro hempty
      rw [hempty, List.length_nil, hnames'] at hcount
      exact hnil (List.eq_nil_of_length_eq_zero (by omega))
    have hlent := length_text (l := lead t) hne
    change (resolved s).length + 1 = _ at hlens
    change (resolved t).length + 1 = _ at hlent
    rw [heq] at hlens
    omega

/-! ## The device -/

theorem devMatchLoop_spec (name : List Char) (devs : List (List Char))
    (best : Option (List Char) × Nat) :
    best.2 ≤ (devMatchLoop name devs best).2 ∧
      (∀ dev ∈ devs, dev <+: name → dev.length ≤ (devMatchLoop name devs best).2) ∧
      (devMatchLoop name devs best = best ∨
        ∃ dev ∈ devs, dev <+: name ∧ devMatchLoop name devs best = (some dev, dev.length)) := by
  induction devs generalizing best with
  | nil => exact ⟨Nat.le_refl _, fun dev hdev => (by cases hdev), .inl rfl⟩
  | cons dev devs ih =>
    rw [devMatchLoop]
    by_cases hprefix : dev <+: name
    · rw [if_pos (List.isPrefixOf_iff_prefix.2 hprefix)]
      by_cases hlt : dev.length > best.2
      · rw [if_pos hlt]
        obtain ⟨hle, hall, hres⟩ := ih (some dev, dev.length)
        dsimp only at hle
        refine ⟨by omega, fun d hd hp => ?_, .inr ?_⟩
        · rcases List.mem_cons.1 hd with rfl | hd
          · exact hle
          · exact hall d hd hp
        · rcases hres with hres | ⟨d, hd, hp, hres⟩
          · exact ⟨dev, List.mem_cons_self, hprefix, hres⟩
          · exact ⟨d, List.mem_cons_of_mem _ hd, hp, hres⟩
      · rw [if_neg hlt]
        obtain ⟨hle, hall, hres⟩ := ih best
        refine ⟨hle, fun d hd hp => ?_, ?_⟩
        · rcases List.mem_cons.1 hd with rfl | hd
          · omega
          · exact hall d hd hp
        · rcases hres with hres | ⟨d, hd, hp, hres⟩
          · exact .inl hres
          · exact .inr ⟨d, List.mem_cons_of_mem _ hd, hp, hres⟩
    · rw [if_neg (by simpa using hprefix)]
      obtain ⟨hle, hall, hres⟩ := ih best
      refine ⟨hle, fun d hd hp => ?_, ?_⟩
      · rcases List.mem_cons.1 hd with rfl | hd
        · exact absurd hp hprefix
        · exact hall d hd hp
      · rcases hres with hres | ⟨d, hd, hp, hres⟩
        · exact .inl hres
        · exact .inr ⟨d, List.mem_cons_of_mem _ hd, hp, hres⟩

/-- The device is the longest one that the path begins with. -/
theorem iosDevFind_spec (iosDevList : List (List Char)) (name : List Char) :
    (∀ dev ∈ iosDevList, dev <+: name → dev.length ≤ iosDevFind iosDevList name) ∧
      (iosDevFind iosDevList name = 0 ∨
        ∃ dev ∈ iosDevList, dev <+: name ∧ iosDevFind iosDevList name = dev.length) := by
  obtain ⟨-, hall, hres⟩ := devMatchLoop_spec name iosDevList (none, 0)
  unfold iosDevFind iosDevMatch
  rcases hres with hres | ⟨d, hd, hp, hres⟩
  · rw [hres] at hall ⊢
    exact ⟨hall, .inl rfl⟩
  · rw [hres] at hall ⊢
    exact ⟨hall, .inr ⟨d, hd, hp, rfl⟩⟩

/-- A path that begins with the device of another one has that device, or a longer one. -/
theorem iosDevFind_le {u : List Char} (h : path.take (iosDevFind iosDevList path) <+: u) :
    iosDevFind iosDevList path ≤ iosDevFind iosDevList u := by
  rcases (iosDevFind_spec iosDevList path).2 with hzero | ⟨dev, hdev, hprefix, hlen⟩
  · omega
  · rw [hlen] at h ⊢
    rw [← List.prefix_iff_eq_take.1 hprefix] at h
    exact (iosDevFind_spec iosDevList u).1 dev hdev h

theorem iosDevFind_le_length (iosDevList : List (List Char)) (path : List Char) :
    iosDevFind iosDevList path ≤ path.length := by
  rcases (iosDevFind_spec iosDevList path).2 with hzero | ⟨dev, _, hprefix, hlen⟩
  · omega
  · rw [hlen]
    exact hprefix.length_le

/-! ## The whole path -/

/-- A path and what it is condensed to: the device is kept, the rest is clean and leads to the same
place, and nothing changes when it is condensed again. -/
structure Condensed (iosDevList : List (List Char)) (path out : List Char) : Prop where
  device : path.take (iosDevFind iosDevList path) <+: out
  clean : Clean (out.drop (iosDevFind iosDevList path))
  place : place (0 < iosDevFind iosDevList path) (out.drop (iosDevFind iosDevList path)) =
    place (0 < iosDevFind iosDevList path) (path.drop (iosDevFind iosDevList path))
  again : pathCondense iosDevList out = some out

/-- The path with the device, and the rest resolved. -/
def resolvedPath (iosDevList : List (List Char)) (path : List Char) : List Char :=
  path.take (iosDevFind iosDevList path) ++ resolved (path.drop (iosDevFind iosDevList path))

/-- A path that is condensed rightly: the names behind the device fit the array and the buffers, a
path that starts in a directory does not lead above it, and no device begins the resolved path and
leaves `.` or `..` of a name. -/
structure Condensable (iosDevList : List (List Char)) (path : List Char) : Prop where
  fits : Fits (path.drop (iosDevFind iosDevList path))
  below : (Path.place (0 < iosDevFind iosDevList path)
    (path.drop (iosDevFind iosDevList path))).up = 0
  device : ∀ rest,
    rest = (resolvedPath iosDevList path).drop
      (iosDevFind iosDevList (resolvedPath iosDevList path)) →
    firstName rest ≠ ['.'] ∧ firstName rest ≠ ['.', '.']

theorem place_resolved (device : Bool) (t : List Char) :
    place device (resolved t) = { place device t with up := 0 } := by
  rw [resolved, place_text (isLead_lead t) (place_down false t).1]
  rfl

/-- The resolved path is condensed to itself if no device cuts a name to `.` or `..`. -/
theorem pathCondense_resolved (h : Fits (path.drop (iosDevFind iosDevList path))) :
    pathCondense iosDevList (resolvedPath iosDevList path) =
        some (resolvedPath iosDevList path) ↔
      ∀ rest, rest = (resolvedPath iosDevList path).drop
          (iosDevFind iosDevList (resolvedPath iosDevList path)) →
        firstName rest ≠ ['.'] ∧ firstName rest ≠ ['.', '.'] := by
  have hlen : (path.take (iosDevFind iosDevList path)).length = iosDevFind iosDevList path :=
    List.length_take_of_le (iosDevFind_le_length _ _)
  have hle : iosDevFind iosDevList path ≤ iosDevFind iosDevList (resolvedPath iosDevList path) :=
    iosDevFind_le (List.prefix_append _ _)
  generalize hn : iosDevFind iosDevList (resolvedPath iosDevList path) = n at hle
  have hsuffix : (resolvedPath iosDevList path).drop n <:+
      resolved (path.drop (iosDevFind iosDevList path)) := by
    obtain ⟨k, rfl⟩ := Nat.exists_eq_add_of_le hle
    rw [← List.drop_drop, resolvedPath, List.drop_left' hlen]
    exact List.drop_suffix _ _
  have hself : pathCondense iosDevList (resolvedPath iosDevList path) =
      some (resolvedPath iosDevList path) ↔
        condenseTail ((resolvedPath iosDevList path).drop n) =
          some ((resolvedPath iosDevList path).drop n) := by
    have hsplit := List.take_append_drop n (resolvedPath iosDevList path)
    rw [pathCondense_eq_tail, hn, Option.map_eq_some_iff]
    constructor
    · rintro ⟨u, hu, heq⟩
      rw [List.append_cancel_left (heq.trans hsplit.symm)] at hu
      exact hu
    · exact fun hu => ⟨_, hu, hsplit⟩
  rw [hself, forall_eq, ← (clean_resolved _).suffix_iff hsuffix]
  constructor
  · intro hcond
    by_cases hfits : Fits ((resolvedPath iosDevList path).drop n)
    · rw [hfits.condenseTail] at hcond
      exact Option.some.inj hcond
    · exact absurd rfl (condenseTail_down hfits hcond false)
  · intro heq
    rw [(h.suffix hsuffix heq).condenseTail, heq]

/-- The paths that are condensed rightly. -/
theorem condensed_iff (iosDevList : List (List Char)) (path : List Char) :
    (∃ out, pathCondense iosDevList path = some out ∧ Condensed iosDevList path out) ↔
      Condensable iosDevList path := by
  have hlen : (path.take (iosDevFind iosDevList path)).length = iosDevFind iosDevList path :=
    List.length_take_of_le (iosDevFind_le_length _ _)
  constructor
  · rintro ⟨out, hout, hcond⟩
    rw [pathCondense_eq_tail] at hout
    obtain ⟨u, hu, rfl⟩ := Option.map_eq_some_iff.1 hout
    have hplace := hcond.place
    rw [List.drop_left' hlen] at hplace
    by_cases hfits : Fits (path.drop (iosDevFind iosDevList path))
    · rw [hfits.condenseTail] at hu
      obtain rfl := Option.some.inj hu
      refine ⟨hfits, ?_, (pathCondense_resolved hfits).1 hcond.again⟩
      rw [← hplace, place_resolved]
    · exact absurd (congrArg Place.down hplace) (condenseTail_down hfits hu _)
  · rintro ⟨hfits, hbelow, hdevice⟩
    refine ⟨resolvedPath iosDevList path, ?_, ?_, ?_, ?_, (pathCondense_resolved hfits).2 hdevice⟩
    · rw [pathCondense_eq_tail, hfits.condenseTail]
      rfl
    · exact List.prefix_append _ _
    · rw [resolvedPath, List.drop_left' hlen]
      exact clean_resolved _
    · rw [resolvedPath, List.drop_left' hlen, place_resolved]
      generalize Path.place _ _ = p at hbelow ⊢
      cases p
      cases hbelow
      rfl

/-! ## Some paths -/

theorem condensed_example :
    (pathCondense ["/dev".toList] "/dev/a/./b//../c/".toList).map String.ofList =
      some "/dev/a/c" ∧
    ∃ out, pathCondense ["/dev".toList] "/dev/a/./b//../c/".toList = some out ∧
      Condensed ["/dev".toList] "/dev/a/./b//../c/".toList out := by
  refine ⟨by decide, (condensed_iff _ _).2 ⟨⟨?_, ?_, ?_⟩, ?_, ?_⟩⟩
  · decide
  · decide
  · decide
  · decide
  · rintro rest rfl
    decide

/-- Ten names overrun the array, and a path that starts in a directory loses its first `..`. -/
theorem not_condensed :
    pathCondense [] "/a/b/c/d/e/f/g/h/i/j".toList = none ∧
    (pathCondense [] "../a".toList = some "a".toList ∧
      place false "../a".toList ≠ place false "a".toList) := by
  refine ⟨?_, ?_, ?_⟩ <;> decide

end Vmx.Path
