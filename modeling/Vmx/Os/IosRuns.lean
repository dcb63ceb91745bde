import Vmx.Os.IosTable

/-!
# Calls of `iosLib` in any order

`Inv` connects the table with what its callers know: the descriptors that are out are those of
the used entries, and each entry has what its descriptor was set to last.  Each call keeps it,
`iosDrvRemove` by an induction over the entries that it closes.
-/

namespace Vmx.Ios

open Lib (exec AllSteps exec_invariant_of)

variable {s t : State} {f g : Nat}

/-! ## A new descriptor -/

theorem firstFree_spec (s : State) :
    (firstFree s < s.iosMaxFd → ¬s.Used (firstFree s)) ∧
      ∀ f, f < firstFree s → f < s.iosMaxFd → s.Used f := by
  unfold firstFree
  cases hfind : (List.range s.iosMaxFd).find? fun fd => !(s.iosFdTable fd).used with
  | none =>
    constructor
    · intro h
      exact absurd h (Nat.lt_irrefl _)
    · intro f _ hf
      rw [List.find?_eq_none] at hfind
      simpa [State.Used] using hfind f (List.mem_range.2 hf)
  | some i =>
    obtain ⟨hi, _, hbefore⟩ := List.find?_range_eq_some.1 hfind
    constructor
    · intro _
      simpa [State.Used] using hi
    · intro f hf _
      simpa [State.Used] using hbefore f hf

/-- The entry that is found is taken. -/
theorem claim_frame (s : State) : Frame s (claim s) (firstFree s) := by
  unfold claim
  simp only
  split
  · exact Frame.setEntry s _ _
  · exact Frame.refl s _

/-- `iosFdNew` takes an entry that has a descriptor, when the name is copied. -/
theorem iosFdNew_spec {malloc pDevHeader : Option Nat} {name : Option (List UInt8)}
    {value rv : Int} (hs : Table s) (hinst : Installed s pDevHeader)
    (hroom : firstFree s + 3 < s.iosMaxFd) (hcopies : Copies s malloc pDevHeader name)
    (h : iosFdNew s malloc pDevHeader name value = some (t, rv)) :
    rv = stdFix (firstFree s) ∧ ¬s.Used (firstFree s) ∧ Frame s t (firstFree s) ∧ Table t ∧
      t.Used (firstFree s) ∧ Holds t (firstFree s) ⟨pDevHeader, name, value⟩ := by
  have hfree := (firstFree_spec s).1 (by omega)
  have hclaim : claim s = s.setEntry (firstFree s) { s.iosFdTable (firstFree s) with
      used := true, obsolete := false, name := none } := if_pos (by omega)
  have hframe := claim_frame s
  have hentry : (claim s).iosFdTable (firstFree s) = { s.iosFdTable (firstFree s) with
      used := true, obsolete := false, name := none } := by
    rw [hclaim, setEntry_self]
  have hused : (claim s).Used (firstFree s) := by rw [State.Used, hentry]
  have htable : Table (claim s) := by
    apply hs.frame hframe
    intro _
    refine ⟨hroom, by rw [hentry], ?_⟩
    intro p hp
    rw [hentry] at hp
    cases hp
  have hf : (stdFix (firstFree s) - 3).toNat = firstFree s := by
    rw [stdFix]
    omega
  unfold iosFdNew at h
  simp only at h
  rw [if_neg (by rw [stdFix]; omega), Option.map_eq_some_iff] at h
  obtain ⟨⟨v, rv'⟩, hset, hr⟩ := h
  have hinst' : Installed (claim s) pDevHeader := by
    unfold Installed
    rw [hframe.devList]
    exact hinst
  have hcopies' : Copies (claim s) malloc pDevHeader name := by
    rw [hclaim]
    exact hcopies
  have hspec := iosFdSet_spec htable hinst' (by
    rw [hf]
    intro _ _
    refine ⟨fun hsh => hsh.1 ?_, Or.inl hcopies'⟩
    rw [hentry]) hset
  rcases hspec with ⟨_, _, hno⟩ | ⟨hrv, f, hfd, hu, hto⟩
  · rw [hf, hframe.maxFd, stdFix] at hno
    exact absurd hcopies' (hno (by omega) (by omega) hused)
  · have hff : f = firstFree s := by
      unfold stdFix at hfd
      omega
    rw [hff] at hto
    simp only [hrv, ne_eq, not_true_eq_false, if_false, Prod.mk.injEq] at hr
    obtain ⟨hv, hrv'⟩ := hr
    rw [← hv]
    refine ⟨hrv'.symm, hfree, hframe.trans hto.frame, hto.table htable hused, ?_, hto.holds⟩
    rw [State.Used, hto.used]
    exact hused

/-- With no entry free, nothing changes. -/
theorem iosFdNew_full {malloc pDevHeader : Option Nat} {name : Option (List UInt8)}
    {value rv : Int} (hfull : firstFree s = s.iosMaxFd)
    (h : iosFdNew s malloc pDevHeader name value = some (t, rv)) :
    rv = ERROR ∧ t = { s with errno := some .S_iosLib_TO_MANY_OPEN_FILES } := by
  unfold iosFdNew at h
  simp only at h
  rw [if_pos (by rw [stdFix]; omega), claim] at h
  simp only [hfull, Nat.lt_irrefl, if_false, Option.some.injEq, Prod.mk.injEq] at h
  exact ⟨h.2.symm, h.1.symm⟩

/-! ## A driver is removed -/

/-- The entry has a device of the driver. -/
def OfDriver (s : State) (drvNumber f : Nat) : Prop :=
  ∃ dev, (s.iosFdTable f).pDevHeader = some dev ∧ (s.devHeader dev).drvNumber = drvNumber

/-- The entries of a list that have a device of the driver have been freed. -/
structure Closed (s t : State) (drvNumber : Nat) (fs : List Nat) : Prop where
  table : Table t
  maxFd : t.iosMaxFd = s.iosMaxFd
  devHeader : t.devHeader = s.devHeader
  used : ∀ g, t.Used g ↔ s.Used g ∧ ¬(g ∈ fs ∧ OfDriver s drvNumber g)
  entries : ∀ g, t.Used g → t.iosFdTable g = s.iosFdTable g
  names : ∀ g, t.Used g → t.nameOf g = s.nameOf g

theorem Closed.skip {drvNumber : Nat} {fs : List Nat} (h : Closed s t drvNumber fs)
    (hf : ¬(s.Used f ∧ OfDriver s drvNumber f)) : Closed s t drvNumber (f :: fs) := by
  refine { h with used := ?_ }
  intro g
  rw [h.used g, List.mem_cons]
  constructor
  · rintro ⟨hu, hno⟩
    refine ⟨hu, ?_⟩
    rintro ⟨rfl | hg, hd⟩
    · exact hf ⟨hu, hd⟩
    · exact hno ⟨hg, hd⟩
  · rintro ⟨hu, hno⟩
    exact ⟨hu, fun hg => hno ⟨Or.inr hg.1, hg.2⟩⟩

theorem Closed.free {u : State} {drvNumber : Nat} {fs : List Nat} (hf : Freed s u f)
    (hd : OfDriver s drvNumber f) (h : Closed u t drvNumber fs) :
    Closed s t drvNumber (f :: fs) := by
  have hne (g : Nat) (hu : u.Used g) : g ≠ f := by
    rintro rfl
    exact hf.after hu
  have hdriver (g : Nat) (hg : g ≠ f) : OfDriver u drvNumber g ↔ OfDriver s drvNumber g := by
    unfold OfDriver
    rw [hf.frame.entries g hg, hf.frame.devHeader]
  refine ⟨h.table, h.maxFd.trans hf.frame.maxFd, h.devHeader.trans hf.frame.devHeader, ?_, ?_, ?_⟩
  · intro g
    rw [h.used g, List.mem_cons]
    constructor
    · rintro ⟨hu, hno⟩
      have hg := hne g hu
      refine ⟨(hf.frame.used hg).1 hu, ?_⟩
      rintro ⟨he | hmem, hd'⟩
      · exact hg he
      · exact hno ⟨hmem, (hdriver g hg).2 hd'⟩
    · rintro ⟨hu, hno⟩
      have hg : g ≠ f := by
        rintro rfl
        exact hno ⟨Or.inl rfl, hd⟩
      refine ⟨(hf.frame.used hg).2 hu, ?_⟩
      rintro ⟨hmem, hd'⟩
      exact hno ⟨Or.inr hmem, (hdriver g hg).1 hd'⟩
  · intro g hu
    have hg := hne g ((h.used g).1 hu).1
    rw [h.entries g hu, hf.frame.entries g hg]
  · intro g hu
    have hug := ((h.used g).1 hu).1
    have hg := hne g hug
    rw [h.names g hu, hf.frame.nameOf hg ((hf.frame.used hg).1 hug)]

/-- The first loop of `iosDrvRemove` closes the entries of the driver, or stops at the first of
them with nothing changed. -/
theorem closeLoop_spec {std : Nat → Int} {drvNumber : Nat} {forceClose : Bool} {fs : List Nat}
    {rv : Int} (hs : Table s) (h : closeLoop std drvNumber forceClose s fs = some (t, rv)) :
    (rv = ERROR ∧ forceClose = false ∧ t = s) ∨
      (rv = OK ∧ Closed s t drvNumber fs ∧ (forceClose = false → t = s)) := by
  induction fs generalizing s with
  | nil =>
    cases h
    right
    refine ⟨rfl, ⟨hs, rfl, rfl, ?_, fun _ _ => rfl, fun _ _ => rfl⟩, fun _ => rfl⟩
    intro g
    simp
  | cons f fs ih =>
    have hskip (hf : ¬(s.Used f ∧ OfDriver s drvNumber f))
        (h : closeLoop std drvNumber forceClose s fs = some (t, rv)) :
        (rv = ERROR ∧ forceClose = false ∧ t = s) ∨
          (rv = OK ∧ Closed s t drvNumber (f :: fs) ∧ (forceClose = false → t = s)) := by
      rcases ih hs h with herr | ⟨hrv, hclosed, hsame⟩
      · exact Or.inl herr
      · exact Or.inr ⟨hrv, hclosed.skip hf, hsame⟩
    unfold closeLoop at h
    split at h
    · rename_i hu
      cases hd : (s.iosFdTable f).pDevHeader with
      | none => simp [hd] at h
      | some dev =>
        simp only [hd] at h
        split at h
        · rename_i hdrv
          split at h
          · rename_i hforce
            cases hfree : iosFdFree s std (stdFix f) with
            | none => simp [hfree] at h
            | some v =>
              simp only [hfree] at h
              have htarget : target std (stdFix f) = stdFix f := by
                rw [target, if_neg (by rw [stdFix]; omega)]
              rcases iosFdFree_spec hs hfree with ⟨_, hno⟩ | ⟨g, hg, hfreed⟩
              · exact absurd htarget (hno f hu)
              · have hgf : g = f := by
                  rw [htarget] at hg
                  unfold stdFix at hg
                  omega
                rw [hgf] at hfreed
                rcases ih (hfreed.table hs) h with ⟨_, hf, _⟩ | ⟨hrv, hclosed, _⟩
                · rw [hforce] at hf
                  cases hf
                · right
                  refine ⟨hrv, Closed.free hfreed ⟨dev, hd, hdrv⟩ hclosed, ?_⟩
                  intro hf
                  rw [hforce] at hf
                  cases hf
          · rename_i hforce
            cases h
            exact Or.inl ⟨rfl, by simpa using hforce, rfl⟩
        · rename_i hdrv
          apply hskip ?_ h
          rintro ⟨_, dev', hd', hdrv'⟩
          rw [hd] at hd'
          cases hd'
          exact hdrv hdrv'
    · rename_i hu
      exact hskip (fun hf => hu hf.1) h

theorem Closed.trans {u : State} {drvNumber : Nat} {fs : List Nat}
    (h : Closed s t drvNumber fs) (h' : Closed t u drvNumber []) : Closed s u drvNumber fs := by
  have hused (g : Nat) : u.Used g ↔ t.Used g := by
    rw [h'.used g]
    simp
  refine ⟨h'.table, h'.maxFd.trans h.maxFd, h'.devHeader.trans h.devHeader, ?_, ?_, ?_⟩
  · intro g
    rw [hused, h.used]
  · intro g hu
    rw [h'.entries g hu, h.entries g ((hused g).1 hu)]
  · intro g hu
    rw [h'.names g hu, h.names g ((hused g).1 hu)]

/-- The names of a list of devices are freed. -/
theorem foldl_free (devs : List Nat) (s : State) :
    devs.foldl (fun s dev => s.free (s.devHeader dev).name) s =
      { s with heap := fun p => if p ∈ devs.map s.devName then none else s.heap p } := by
  induction devs generalizing s with
  | nil => simp
  | cons dev devs ih =>
    rw [List.foldl_cons, ih]
    have hheap : (fun p => if p ∈ devs.map s.devName then none
          else (s.free (s.devName dev)).heap p) =
        fun p => if p ∈ (dev :: devs).map s.devName then none else s.heap p := by
      funext p
      by_cases hp : p = s.devName dev
      · simp [State.free, hp]
      · simp [State.free, hp]
    exact congrArg (fun heap => { s with heap := heap }) hheap

/-- The devices of a driver are removed when no entry in use has one. -/
theorem removeDevs_closed {drvNumber : Nat} (hs : Table s)
    (hno : ∀ g, s.Used g → ¬OfDriver s drvNumber g) :
    Closed s (removeDevs s drvNumber) drvNumber [] := by
  have hheap (p : Nat) (hp : ∀ dev ∈ s.iosDevList,
      (s.devHeader dev).drvNumber = drvNumber → s.devName dev ≠ p) :
      (removeDevs s drvNumber).heap p = s.heap p := by
    rw [removeDevs, foldl_free]
    apply if_neg
    intro hmem
    obtain ⟨dev, hdev, hn⟩ := List.mem_map.1 hmem
    rw [List.mem_filter] at hdev
    exact hp dev hdev.1 (by simpa using hdev.2) hn
  have htable : (removeDevs s drvNumber).iosFdTable = s.iosFdTable := by
    rw [removeDevs, foldl_free]
  have hdevs : (removeDevs s drvNumber).devHeader = s.devHeader := by
    rw [removeDevs, foldl_free]
  have hmax : (removeDevs s drvNumber).iosMaxFd = s.iosMaxFd := by
    rw [removeDevs, foldl_free]
  have hlist (dev : Nat) : dev ∈ (removeDevs s drvNumber).iosDevList ↔
      dev ∈ s.iosDevList ∧ (s.devHeader dev).drvNumber ≠ drvNumber := by
    simp [removeDevs, List.mem_filter]
  have hname : (removeDevs s drvNumber).devName = s.devName := by
    funext dev
    rw [State.devName, hdevs, State.devName]
  have hkept (dev : Nat) (hdev : dev ∈ (removeDevs s drvNumber).iosDevList) :
      (removeDevs s drvNumber).heap (s.devName dev) = s.heap (s.devName dev) := by
    obtain ⟨hdev, hdrv⟩ := (hlist dev).1 hdev
    apply hheap
    intro dev' hdev' hdrv' he
    rw [hs.named.inj dev' hdev' dev hdev he] at hdrv'
    exact hdrv hdrv'
  have hused (g : Nat) : (removeDevs s drvNumber).Used g ↔ s.Used g := by
    rw [State.Used, State.Used, htable]
  -- A name in use is that of a device that stays, or no device's.
  have hcases (g p : Nat) (hu : s.Used g) (hp : (s.iosFdTable g).name = some p) :
      (removeDevs s drvNumber).heap p = s.heap p ∧
        ∃ dev ∈ (removeDevs s drvNumber).iosDevList, (s.iosFdTable g).pDevHeader = some dev ∧
          (p = s.devName dev ∨ Own s g p) := by
    obtain ⟨dev, hdev, hd, hown⟩ := hs.names g hu p hp
    have hdev' : dev ∈ (removeDevs s drvNumber).iosDevList := by
      rw [hlist]
      exact ⟨hdev, fun hdrv => hno g hu ⟨dev, hd, hdrv⟩⟩
    refine ⟨?_, dev, hdev', hd, hown⟩
    rcases hown with hsh | hown
    · rw [hsh]
      exact hkept dev hdev'
    · exact hheap p fun dev' hdev' _ => hown.not_dev dev' hdev'
  refine ⟨⟨⟨?_, ?_⟩, ?_, ?_, ?_⟩, hmax, hdevs, ?_, ?_, ?_⟩
  · intro dev hdev
    rw [hname, hkept dev hdev]
    exact hs.named.live dev ((hlist dev).1 hdev).1
  · intro dev hdev dev' hdev'
    rw [hname]
    exact hs.named.inj dev ((hlist dev).1 hdev).1 dev' ((hlist dev').1 hdev').1
  · intro g hu
    rw [hmax]
    exact hs.numbered g ((hused g).1 hu)
  · intro g hu
    rw [htable]
    exact hs.current g ((hused g).1 hu)
  · intro g hu p hp
    rw [htable] at hp
    obtain ⟨hsame, dev, hdev, hd, hsh | hown⟩ := hcases g p ((hused g).1 hu) hp
    · refine ⟨dev, hdev, by rw [htable]; exact hd, Or.inl ?_⟩
      rw [hname]
      exact hsh
    · refine ⟨dev, hdev, by rw [htable]; exact hd, Or.inr ⟨?_, ?_, ?_⟩⟩
      · rw [hsame]
        exact hown.live
      · intro dev' hdev'
        rw [hname]
        exact hown.not_dev dev' ((hlist dev').1 hdev').1
      · intro k hk hu
        rw [htable]
        exact hown.not_other k hk ((hused k).1 hu)
  · intro g
    rw [hused]
    simp
  · intro g _
    rw [htable]
  · intro g hu
    unfold State.nameOf
    rw [htable]
    cases hp : (s.iosFdTable g).name with
    | none => rfl
    | some p => simp only [(hcases g p ((hused g).1 hu) hp).1]

/-- `iosDrvRemove` closes the entries of the driver, or changes nothing. -/
theorem iosDrvRemove_spec {std : Nat → Int} {drvNumber : Nat} {forceClose : Bool} {rv : Int}
    (hs : Table s) (h : iosDrvRemove s std drvNumber forceClose = some (t, rv)) :
    (rv = ERROR ∧ forceClose = false ∧ t = s) ∨
      (rv = OK ∧ Closed s t drvNumber (List.range s.iosMaxFd) ∧
        (forceClose = false → ∀ g, t.Used g ↔ s.Used g)) := by
  unfold iosDrvRemove at h
  rw [Option.map_eq_some_iff] at h
  obtain ⟨⟨v, rv'⟩, hloop, hr⟩ := h
  rcases closeLoop_spec hs hloop with ⟨hrv, hforce, hv⟩ | ⟨hrv, hclosed, hsame⟩
  · left
    rw [hrv, hv] at hr
    simp only [show ERROR ≠ OK by decide, if_false, Prod.mk.injEq] at hr
    exact ⟨hr.2.symm, hforce, hr.1.symm⟩
  · right
    rw [hrv] at hr
    simp only [if_true, Prod.mk.injEq] at hr
    obtain ⟨ht, hrv'⟩ := hr
    have hno : ∀ g, v.Used g → ¬OfDriver v drvNumber g := by
      intro g hu hd
      obtain ⟨hus, hnot⟩ := (hclosed.used g).1 hu
      apply hnot
      have hlt := hs.numbered g hus
      refine ⟨List.mem_range.2 (by omega), ?_⟩
      unfold OfDriver at hd ⊢
      rw [← hclosed.entries g hu, ← hclosed.devHeader]
      exact hd
    have hremove := removeDevs_closed hclosed.table hno
    rw [ht] at hremove
    refine ⟨hrv'.symm, hclosed.trans hremove, ?_⟩
    intro hforce g
    rw [hremove.used g, hsame hforce]
    simp

/-! ## Runs -/

/-- The descriptors that are out are those of the used entries, and each entry has what its
descriptor was set to last. -/
structure Inv (r : Run) : Prop where
  table : Table r.table
  nodup : r.out.Nodup
  out : ∀ fd, fd ∈ r.out ↔ ∃ f, fd = stdFix f ∧ r.table.Used f
  last : ∀ f, r.table.Used f → ∃ l, r.last (stdFix f) = some l ∧ Holds r.table f l

theorem stdFix_inj (h : stdFix f = stdFix g) : f = g := by
  unfold stdFix at h
  omega

namespace Inv

variable {r : Run}

theorem mem_out (hi : Inv r) : stdFix f ∈ r.out ↔ r.table.Used f := by
  rw [hi.out]
  constructor
  · rintro ⟨g, hg, hu⟩
    rw [stdFix_inj hg]
    exact hu
  · intro hu
    exact ⟨f, rfl, hu⟩

/-- An entry is set: its descriptor is out, and the other entries have what they had. -/
theorem set (hi : Inv r) {l : Setting} {out : List Int} (hf : Frame r.table t f) (ht : Table t)
    (hu : t.Used f) (hl : Holds t f l) (hnodup : out.Nodup)
    (hout : ∀ fd, fd ∈ out ↔ fd = stdFix f ∨ fd ∈ r.out) :
    Inv ⟨t, out, Function.update r.last (stdFix f) (some l)⟩ where
  table := ht
  nodup := hnodup
  out fd := by
    show fd ∈ out ↔ _
    rw [hout fd, hi.out]
    constructor
    · rintro (hfd | ⟨g, hg, hug⟩)
      · exact ⟨f, hfd, hu⟩
      · by_cases hgf : g = f
        · exact ⟨f, hgf ▸ hg, hu⟩
        · exact ⟨g, hg, (hf.used hgf).2 hug⟩
    · rintro ⟨g, hg, hug⟩
      by_cases hgf : g = f
      · exact Or.inl (hgf ▸ hg)
      · exact Or.inr ⟨g, hg, (hf.used hgf).1 hug⟩
  last g hug := by
    by_cases hgf : g = f
    · rw [hgf]
      exact ⟨l, Function.update_self _ _ _, hl⟩
    · have hug' := (hf.used hgf).1 hug
      obtain ⟨l', hlast, hl'⟩ := hi.last g hug'
      refine ⟨l', ?_, hl'.frame hf hgf hug'⟩
      show Function.update r.last (stdFix f) (some l) (stdFix g) = some l'
      rw [Function.update_of_ne fun he => hgf (stdFix_inj he)]
      exact hlast

/-- An entry is freed, and its descriptor is no longer out. -/
theorem freed (hi : Inv r) (hf : Freed r.table t f) :
    Inv ⟨t, r.out.erase (stdFix f), r.last⟩ where
  table := hf.table hi.table
  nodup := hi.nodup.erase _
  out fd := by
    show fd ∈ r.out.erase (stdFix f) ↔ _
    rw [hi.nodup.mem_erase_iff, hi.out]
    constructor
    · rintro ⟨hne, g, hg, hu⟩
      have hgf : g ≠ f := by
        rintro rfl
        exact hne hg
      exact ⟨g, hg, (hf.frame.used hgf).2 hu⟩
    · rintro ⟨g, hg, hu⟩
      have hgf : g ≠ f := by
        rintro rfl
        exact hf.after hu
      exact ⟨fun he => hgf (stdFix_inj (hg ▸ he)), g, hg, (hf.frame.used hgf).1 hu⟩
  last g hu := by
    have hgf : g ≠ f := by
      rintro rfl
      exact hf.after hu
    have hu' := (hf.frame.used hgf).1 hu
    obtain ⟨l, hlast, hl⟩ := hi.last g hu'
    exact ⟨l, hlast, hl.frame hf.frame hgf hu'⟩

/-- A call that frees the entry of a descriptor, if it is used. -/
theorem target (hi : Inv r) {fd : Int} (h : (t = r.table ∧ ∀ f, r.table.Used f → fd ≠ stdFix f) ∨
    ∃ f, fd = stdFix f ∧ Freed r.table t f) : Inv ⟨t, r.out.erase fd, r.last⟩ := by
  rcases h with ⟨ht, hno⟩ | ⟨f, hfd, hf⟩
  · have hout : fd ∉ r.out := by
      rw [hi.out]
      rintro ⟨f, hfd, hu⟩
      exact hno f hu hfd
    rw [ht, List.erase_of_not_mem hout]
    exact hi
  · rw [hfd]
    exact hi.freed hf

/-- A descriptor was set to a device of the driver when its entry has one. -/
theorem ofDriver (hi : Inv r) {drvNumber : Nat} (hu : r.table.Used f) :
    r.ofDriver drvNumber (stdFix f) = true ↔ OfDriver r.table drvNumber f := by
  obtain ⟨l, hlast, hl⟩ := hi.last f hu
  unfold Run.ofDriver OfDriver
  rw [hlast, hl.pDevHeader, Option.bind_some]
  cases l.pDevHeader with
  | none => simp
  | some dev => simp

/-- The entries of a driver have been closed, and their descriptors are no longer out. -/
theorem closed (hi : Inv r) {drvNumber : Nat} {out : List Int} (hnodup : out.Nodup)
    (hc : Closed r.table t drvNumber (List.range r.table.iosMaxFd))
    (hout : ∀ fd, fd ∈ out ↔ ∃ f, fd = stdFix f ∧ t.Used f) : Inv ⟨t, out, r.last⟩ where
  table := hc.table
  nodup := hnodup
  out := hout
  last f hu := by
    obtain ⟨l, hlast, hl⟩ := hi.last f ((hc.used f).1 hu).1
    refine ⟨l, hlast, ?_, ?_, ?_⟩
    · show (t.iosFdTable f).pDevHeader = _
      rw [hc.entries f hu]
      exact hl.pDevHeader
    · show (t.iosFdTable f).value = _
      rw [hc.entries f hu]
      exact hl.value
    · show t.nameOf f = _
      rw [hc.names f hu]
      exact hl.name

/-- Only what `iosFdNew` and `iosFdSet` leave in `errno` has changed. -/
theorem errno (hi : Inv r) (e : Option Errno) : Inv { r with table := { r.table with errno := e } }
    where
  table := hi.table.frame
    (t := { r.table with errno := e }) (f := r.table.iosMaxFd)
    ⟨fun _ _ => rfl, rfl, rfl, rfl, fun _ _ => rfl⟩ fun hu => by
      have hlt := hi.table.numbered _ hu
      omega
  nodup := hi.nodup
  out := hi.out
  last f hu := by
    obtain ⟨l, hlast, hl⟩ := hi.last f hu
    exact ⟨l, hlast, hl.pDevHeader, hl.value, hl.name⟩

end Inv

/-- What the call needs to leave no entry taken and no name lost.  `iosFdNew` finds an entry that
has a descriptor, or none, and the name is copied; `iosFdSet` is for an entry that does not share
the name of another device, and the name is copied or the entry has none.  The device is one of
the list. -/
def Fits (r : Run) : Op → Prop
  | .fdNew malloc pDevHeader name _ =>
    Installed r.table pDevHeader ∧
      (firstFree r.table = r.table.iosMaxFd ∨
        firstFree r.table + 3 < r.table.iosMaxFd ∧ Copies r.table malloc pDevHeader name)
  | .fdSet malloc fd pDevHeader name _ =>
    Installed r.table pDevHeader ∧
      (3 ≤ fd → r.table.Used (fd - 3).toNat → ¬Shares r.table (fd - 3).toNat pDevHeader ∧
        (Copies r.table malloc pDevHeader name ∨
          (r.table.iosFdTable (fd - 3).toNat).name = none))
  | .fdFree _ _ => True
  | .close _ _ _ => True
  | .drvRemove _ _ _ => True

instance (r : Run) (op : Op) : Decidable (Fits r op) := by
  cases op <;> unfold Fits <;> infer_instance

theorem Inv.step {r r' : Run} {op : Op} (hi : Inv r) (hfit : Fits r op)
    (h : Ios.step r op = some r') : Inv r' := by
  unfold Ios.step at h
  rw [Option.map_eq_some_iff] at h
  obtain ⟨⟨t, rv⟩, hcall, rfl⟩ := h
  have hs := hi.table
  cases op with
  | fdNew malloc pDevHeader name value =>
    obtain ⟨hinst, hfull | ⟨hroom, hcopies⟩⟩ := hfit
    · obtain ⟨hrv, ht⟩ := iosFdNew_full hfull hcall
      simp only [Run.record, hrv, if_true, ht]
      exact hi.errno _
    · obtain ⟨hrv, hfree, hframe, ht, hu, hl⟩ := iosFdNew_spec hs hinst hroom hcopies hcall
      have hne : rv ≠ ERROR := by
        rw [hrv, stdFix, ERROR]
        omega
      simp only [Run.record, hne, if_false]
      rw [hrv]
      apply hi.set hframe ht hu hl
      · rw [List.nodup_cons, hi.mem_out]
        exact ⟨hfree, hi.nodup⟩
      · intro fd
        exact List.mem_cons
  | fdSet malloc fd pDevHeader name value =>
    rcases iosFdSet_spec hs hfit.1 hfit.2 hcall with ⟨hrv, ht, _⟩ | ⟨hrv, f, hfd, hu, hto⟩
    · simp only [Run.record, hrv, if_true, ht]
      exact hi
    · have hne : rv ≠ ERROR := by
        rw [hrv]
        decide
      simp only [Run.record, hne, if_false]
      rw [hfd]
      apply hi.set hto.frame (hto.table hs hu) ?_ hto.holds hi.nodup
      · intro fd'
        constructor
        · exact Or.inr
        · rintro (he | he)
          · rw [he, hi.mem_out]
            exact hu
          · exact he
      · rw [State.Used, hto.used]
        exact hu
  | fdFree std fd =>
    simp only [call, Option.map_eq_some_iff, Prod.mk.injEq] at hcall
    obtain ⟨v, hfree, rfl, _⟩ := hcall
    exact hi.target (iosFdFree_spec hs hfree)
  | close std fd rv' => exact hi.target (iosClose_spec hs hcall)
  | drvRemove std drvNumber forceClose =>
    rcases iosDrvRemove_spec hs hcall with ⟨_, hforce, ht⟩ | ⟨_, hc, hsame⟩
    · simp only [Run.record, hforce, ht, Bool.false_eq_true, if_false]
      exact hi
    · cases forceClose with
      | false =>
        apply hi.closed hi.nodup hc
        intro fd
        show fd ∈ r.out ↔ _
        rw [hi.out]
        simp only [hsame rfl]
      | true =>
        apply hi.closed (hi.nodup.filter _) hc
        intro fd
        rw [List.mem_filter, hi.out]
        constructor
        · rintro ⟨⟨f, hfd, hu⟩, hdrv⟩
          refine ⟨f, hfd, (hc.used f).2 ⟨hu, ?_⟩⟩
          rintro ⟨_, hd⟩
          rw [hfd, (hi.ofDriver hu).2 hd] at hdrv
          cases hdrv
        · rintro ⟨f, hfd, hu⟩
          obtain ⟨hus, hno⟩ := (hc.used f).1 hu
          have hlt := hs.numbered f hus
          refine ⟨⟨f, hfd, hus⟩, ?_⟩
          rw [hfd, Bool.not_eq_true', ← Bool.not_eq_true, hi.ofDriver hus]
          exact fun hd => hno ⟨List.mem_range.2 (by omega), hd⟩

/-- The used entries. -/
def usedEntries (s : State) : Finset Nat := (Finset.range s.iosMaxFd).filter fun f => s.Used f

/-- What the callers of the table rely on. -/
structure Right (r : Run) : Prop where
  distinct : r.out.Nodup
  count : (usedEntries r.table).card = r.out.length
  room : r.out.length + 3 < r.table.iosMaxFd → firstFree r.table + 3 < r.table.iosMaxFd
  last : ∀ f, f < r.table.iosMaxFd → r.table.Used f →
    ∃ l, r.last (stdFix f) = some l ∧ Holds r.table f l

/-- A descriptor that `iosFdNew` returns is not out, and when it fails the table is as it was. -/
def NewRight (s : State) (out : List Int) : Op → Prop
  | .fdNew malloc pDevHeader name value =>
    ∀ t rv, iosFdNew s malloc pDevHeader name value = some (t, rv) →
      if rv = ERROR then t.iosFdTable = s.iosFdTable else rv ∉ out
  | .fdSet _ _ _ _ _ => True
  | .fdFree _ _ => True
  | .close _ _ _ => True
  | .drvRemove _ _ _ => True

namespace Inv

variable {r : Run}

/-- The descriptors that are out are those of the used entries, so that there are as many. -/
theorem count (hi : Inv r) : (usedEntries r.table).card = r.out.length := by
  have hout : (usedEntries r.table).image stdFix = r.out.toFinset := by
    ext fd
    rw [Finset.mem_image, List.mem_toFinset, hi.out]
    constructor
    · rintro ⟨f, hf, he⟩
      exact ⟨f, he.symm, (Finset.mem_filter.1 hf).2⟩
    · rintro ⟨f, he, hu⟩
      have hlt := hi.table.numbered f hu
      exact ⟨f, Finset.mem_filter.2 ⟨Finset.mem_range.2 (by omega), hu⟩, he.symm⟩
  rw [← List.toFinset_card_of_nodup hi.nodup, ← hout]
  exact (Finset.card_image_of_injective _ fun _ _ he => stdFix_inj he).symm

/-- As long as a descriptor is left, its entry is found. -/
theorem room (hi : Inv r) (h : r.out.length + 3 < r.table.iosMaxFd) :
    firstFree r.table + 3 < r.table.iosMaxFd := by
  by_contra hfull
  have hsub : Finset.range (r.table.iosMaxFd - 3) ⊆ usedEntries r.table := by
    intro f hf
    have hlt := Finset.mem_range.1 hf
    apply Finset.mem_filter.2
    refine ⟨Finset.mem_range.2 (by omega), ?_⟩
    exact (firstFree_spec r.table).2 f (by omega) (by omega)
  have hcard := Finset.card_le_card hsub
  rw [Finset.card_range, hi.count] at hcard
  omega

theorem right (hi : Inv r) : Right r where
  distinct := hi.nodup
  count := hi.count
  room := hi.room
  last f _ hu := hi.last f hu

theorem newRight (hi : Inv r) {op : Op} (hfit : Fits r op) : NewRight r.table r.out op := by
  cases op with
  | fdNew malloc pDevHeader name value =>
    intro t rv h
    obtain ⟨hinst, hfull | ⟨hroom, hcopies⟩⟩ := hfit
    · obtain ⟨hrv, ht⟩ := iosFdNew_full hfull h
      rw [if_pos hrv, ht]
    · obtain ⟨hrv, hfree, _⟩ := iosFdNew_spec hi.table hinst hroom hcopies h
      have hne : rv ≠ ERROR := by
        rw [hrv, stdFix, ERROR]
        omega
      rw [if_neg hne, hrv, hi.mem_out]
      exact hfree
  | fdSet malloc fd pDevHeader name value => trivial
  | fdFree std fd => trivial
  | close std fd rv => trivial
  | drvRemove std drvNumber forceClose => trivial

end Inv

/-- A table in which nothing has been opened yet. -/
structure Fresh (r : Run) : Prop where
  unused : ∀ f, ¬r.table.Used f
  out : r.out = []
  named : Named r.table

theorem Fresh.inv {r : Run} (hr : Fresh r) : Inv r where
  table :=
    ⟨hr.named, fun f hu => absurd hu (hr.unused f), fun f hu => absurd hu (hr.unused f),
      fun f hu => absurd hu (hr.unused f)⟩
  nodup := by
    rw [hr.out]
    exact List.nodup_nil
  out fd := by
    rw [hr.out]
    constructor
    · intro hfd
      cases hfd
    · rintro ⟨f, _, hu⟩
      exact absurd hu (hr.unused f)
  last f hu := absurd hu (hr.unused f)

theorem iosLibInit_fresh {max_fd : Nat} {devHeader : Nat → DevHeader} {iosDevList : List Nat}
    {heap : Nat → Option (List UInt8)}
    (hn : Named (iosLibInit max_fd devHeader iosDevList heap).table) :
    Fresh (iosLibInit max_fd devHeader iosDevList heap) where
  unused f hu := by
    simp [State.Used, iosLibInit] at hu
  out := rfl
  named := hn

/-- The table is right after every run whose calls fit, and the next call is. -/
theorem table_run {max_fd : Nat} {devHeader : Nat → DevHeader} {iosDevList : List Nat}
    {heap : Nat → Option (List UInt8)} {ops : List Op} {r : Run}
    (hn : Named (iosLibInit max_fd devHeader iosDevList heap).table)
    (hall : AllSteps step Fits (iosLibInit max_fd devHeader iosDevList heap) ops)
    (h : exec step (iosLibInit max_fd devHeader iosDevList heap) ops = some r) :
    Right r ∧ ∀ op, Fits r op → NewRight r.table r.out op := by
  have hi : Inv r := exec_invariant_of (I := Inv) (fun _ _ _ hi hfit hs => hi.step hfit hs)
    (iosLibInit_fresh hn).inv hall h
  exact ⟨hi.right, fun op hfit => hi.newRight hfit⟩

/-- A table with five entries, and a device. -/
def smallTable : Run :=
  iosLibInit 5 (fun _ => ⟨0, 1⟩) [0] fun p => if p = 0 then some [47] else none

theorem smallTable_named : Named smallTable.table where
  live := by decide
  inj := by decide

/-- Two files are opened, one is set again and the driver is removed. -/
theorem table_run_example : ∃ r, exec step smallTable
    [.fdNew (some 1) (some 0) (some [47, 97]) 7, .fdNew none (some 0) (some [47]) 8,
      .fdSet (some 2) 3 (some 0) (some [98]) 9, .fdFree (fun _ => 3) 4,
      .drvRemove (fun _ => 3) 1 true] = some r ∧
    Right r ∧ ∀ op, Fits r op → NewRight r.table r.out op := by
  have hrun : (exec step smallTable
      [.fdNew (some 1) (some 0) (some [47, 97]) 7, .fdNew none (some 0) (some [47]) 8,
        .fdSet (some 2) 3 (some 0) (some [98]) 9, .fdFree (fun _ => 3) 4,
        .drvRemove (fun _ => 3) 1 true]).isSome = true := by
    decide
  obtain ⟨r, hr⟩ := Option.isSome_iff_exists.1 hrun
  exact ⟨r, hr, table_run smallTable_named (by decide) hr⟩

/-- When the two descriptors of the table are out, `iosFdNew` fails and leaves an entry taken. -/
theorem not_table_run : ¬∀ (ops : List Op) (r : Run), exec step smallTable ops = some r →
    Right r ∧ ∀ op, NewRight r.table r.out op := by
  intro h
  have hrun : (exec step smallTable
      [.fdNew none none none 0, .fdNew none none none 0, .fdNew none none none 0]).map
      (fun r => ((usedEntries r.table).card, r.out.length)) = some (3, 2) := by
    decide
  rw [Option.map_eq_some_iff] at hrun
  obtain ⟨r, hr, hcounts⟩ := hrun
  have hcount := (h _ r hr).1.count
  rw [Prod.mk.injEq] at hcounts
  omega

end Vmx.Ios
