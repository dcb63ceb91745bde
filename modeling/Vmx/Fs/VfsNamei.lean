import Vmx.Fs.VfsLib

/-!
# What the walk finds

`resolve` follows a list of names from a vnode.  `namei` stops at a component of the path: those
before it have been followed, and what it returns is the answer for that component, which is the
last one unless the answer is an error (`namei_spec`).
-/

namespace Vmx.Vnio

open Lib (words words_nil words_sep words_takeWhile words_dropWhile)

universe u

variable {V : Type u} (fs : FileSys V)

def isSlash (c : Char) : Bool := decide (c = '/')

/-- The components of a path. -/
def names (path : List Char) : List (List Char) := words isSlash path

/-- The entry of a vnode with a name; `..` at the root of the mount leaves it. -/
def enter (dvp : V) (name : List Char) : Except { e : Int // e ≠ OK } V :=
  if name = ['.', '.'] ∧ fs.v_root dvp = true then .error ⟨FOLLOW_DOTDOT, by decide⟩
  else fs.lookup dvp name

/-- The vnode that a list of names leads to. -/
def resolve : V → List (List Char) → Except { e : Int // e ≠ OK } V
  | dvp, [] => .ok dvp
  | dvp, name :: ns =>
    match enter fs dvp name with
    | .error e => .error e
    | .ok vp => resolve vp ns

/-- What `lookup` answers for a name. -/
def answer (op : CnOp) (dvp : V) (name : List Char) (last : Bool) :
    Except { e : Int // e ≠ OK } V :=
  if name = ['.'] ∧ last = true ∧ op = .CREATE then .error ⟨EEXIST, by decide⟩
  else if name = ['.', '.'] ∧ last = true ∧ op ≠ .LOOKUP then .error ⟨EINVAL, by decide⟩
  else enter fs dvp name

variable {fs} {op : CnOp} {cp : List Char}

theorem answer_not_last {dvp : V} {name : List Char} :
    answer fs op dvp name false = enter fs dvp name := by
  simp [answer]

theorem resolve_cons {dvp vp : V} {name : List Char} (h : enter fs dvp name = .ok vp)
    (ns : List (List Char)) : resolve fs dvp (name :: ns) = resolve fs vp ns := by
  rw [resolve, h]

/-! ## A component -/

theorem not_isSlash : (fun c : Char => decide (c ≠ '/')) = fun c => !isSlash c := by
  funext c
  simp [isSlash]

/-- The path behind its first component, and the slashes behind that. -/
def tail (cp : List Char) : List Char :=
  (cp.drop (component cp).cn_namelen).dropWhile (· = '/')

theorem component_name (cp : List Char) :
    (component cp).name = cp.takeWhile fun c => !isSlash c := by
  rw [ComponentName.name, component, ← not_isSlash]
  exact (List.prefix_iff_eq_take.1 (List.takeWhile_prefix _)).symm

theorem names_component {c : Char} (hc : c ≠ '/') (t : List Char) :
    names (c :: t) = (component (c :: t)).name :: names (tail (c :: t)) := by
  have hsep : isSlash c = false := by simp [isSlash, hc]
  have htail : tail (c :: t) = ((c :: t).dropWhile fun c => !isSlash c).dropWhile isSlash := by
    rw [tail, component, not_isSlash]
    congr 1
    have happ := List.takeWhile_append_dropWhile (p := fun c => !isSlash c) (l := c :: t)
    calc (c :: t).drop ((c :: t).takeWhile fun c => !isSlash c).length
        = (((c :: t).takeWhile fun c => !isSlash c) ++
            (c :: t).dropWhile fun c => !isSlash c).drop
            ((c :: t).takeWhile fun c => !isSlash c).length := by rw [happ]
      _ = (c :: t).dropWhile fun c => !isSlash c := List.drop_left
  rw [names, words_takeWhile hsep, component_name, htail, names, words_dropWhile]

/-- The path behind a component begins with no slash. -/
theorem tail_head {c : Char} {t : List Char} (h : tail cp = c :: t) : c ≠ '/' := by
  have hhead := List.head?_dropWhile_not (fun c => decide (c = '/'))
    (cp.drop (component cp).cn_namelen)
  rw [tail] at h
  rw [h] at hhead
  simpa using hhead

theorem tail_length {c : Char} (hc : c ≠ '/') (t : List Char) :
    (tail (c :: t)).length < (c :: t).length := by
  have hdrop : (tail (c :: t)).length ≤ ((c :: t).drop (component (c :: t)).cn_namelen).length :=
    (List.dropWhile_suffix _).length_le
  have hlen : 0 < (component (c :: t)).cn_namelen := by simp [component, hc]
  rw [List.length_drop] at hdrop
  have hpos : 0 < (c :: t).length := by simp
  omega

theorem component_isdot {c : Char} (hc : c ≠ '/') (t : List Char) :
    (component (c :: t)).isdot = true ↔ (component (c :: t)).name = ['.'] := by
  rw [component_name, ← not_isSlash]
  simp [component, hc]

theorem component_isdotdot {c : Char} (hc : c ≠ '/') (t : List Char) :
    (component (c :: t)).isdotdot = true ↔ (component (c :: t)).name = ['.', '.'] := by
  rw [component_name, ← not_isSlash]
  cases t with
  | nil => simp [component, hc]
  | cons d t =>
    by_cases hd : d = '/'
    · simp [component, hc, hd]
    · simp [component, hc, hd]

/-- `lookup` gives the answer for the name, and stays in the directory. -/
theorem lookup_spec {c : Char} (hc : c ≠ '/') (t : List Char) (nid : NameiData V) :
    let cn := component (c :: t)
    match answer fs op nid.ni_dvp cn.name cn.islastcn with
    | .error e => (lookup fs op nid cn).1 = e ∧ (lookup fs op nid cn).2.ni_dvp = nid.ni_dvp ∧
        (lookup fs op nid cn).2.ni_cn = nid.ni_cn
    | .ok vp => lookup fs op nid cn = (OK, { nid with ni_vp := some vp }) := by
  have hdot := component_isdot hc t
  have hdotdot := component_isdotdot hc t
  generalize component (c :: t) = cn at hdot hdotdot
  show match answer fs op nid.ni_dvp cn.name cn.islastcn with
    | .error e => _
    | .ok vp => _
  have hdots : ¬(cn.name = ['.'] ∧ cn.name = ['.', '.']) := by
    rintro ⟨h1, h2⟩
    rw [h1] at h2
    simp at h2
  have hup : cn.isdot = false ∧ cn.isdotdot = true ↔ cn.name = ['.', '.'] := by
    rw [← Bool.not_eq_true, hdot, hdotdot]
    constructor
    · exact fun h => h.2
    · exact fun h => ⟨fun h' => hdots ⟨h', h⟩, h⟩
  have e1 : (cn.isdot = true ∧ cn.islastcn = true ∧ op = .CREATE) ↔
      (cn.name = ['.'] ∧ cn.islastcn = true ∧ op = .CREATE) := by rw [hdot]
  have e2 : (cn.isdot = false ∧ cn.isdotdot = true ∧ cn.islastcn = true ∧ op ≠ .LOOKUP) ↔
      (cn.name = ['.', '.'] ∧ cn.islastcn = true ∧ op ≠ .LOOKUP) := by rw [← hup, and_assoc]
  have e3 : (cn.isdot = false ∧ cn.isdotdot = true ∧ fs.v_root nid.ni_dvp = true) ↔
      (cn.name = ['.', '.'] ∧ fs.v_root nid.ni_dvp = true) := by rw [← hup, and_assoc]
  unfold lookup answer enter
  rw [if_congr e1 rfl rfl, if_congr e2 rfl rfl, if_congr e3 rfl rfl]
  by_cases h1 : cn.name = ['.'] ∧ cn.islastcn = true ∧ op = .CREATE
  · rw [if_pos h1, if_pos h1]
    exact ⟨rfl, rfl, rfl⟩
  rw [if_neg h1, if_neg h1]
  by_cases h2 : cn.name = ['.', '.'] ∧ cn.islastcn = true ∧ op ≠ .LOOKUP
  · rw [if_pos h2, if_pos h2]
    exact ⟨rfl, rfl, rfl⟩
  rw [if_neg h2, if_neg h2]
  by_cases h3 : cn.name = ['.', '.'] ∧ fs.v_root nid.ni_dvp = true
  · rw [if_pos h3, if_pos h3]
    exact ⟨rfl, rfl, rfl⟩
  rw [if_neg h3, if_neg h3]
  cases fs.lookup nid.ni_dvp cn.name with
  | error e => exact ⟨rfl, rfl, rfl⟩
  | ok vp => rfl

/-- The walk has come to the component `name`: it has followed those before it, `before`, and not
those behind it. -/
structure Reaches (fs : FileSys V) (root : V) (ns before : List (List Char)) (name : List Char)
    (behind : List (List Char)) (nid : NameiData V) : Prop where
  names : ns = before ++ name :: behind
  dir : resolve fs root before = .ok nid.ni_dvp
  cn : nid.ni_cn.map ComponentName.name = some name

/-- The walk ends at a component: with an error, or with the vnode of the last one. -/
theorem nameiLoop_spec {fuel : Nat} {nid : NameiData V} {c : Char} {t : List Char} (hc : c ≠ '/')
    (hfuel : (c :: t).length ≤ fuel) :
    ∃ before name behind,
      Reaches fs nid.ni_dvp (names (c :: t)) before name behind
        (nameiLoop fs op fuel nid (c :: t)).2 ∧
      match answer fs op (nameiLoop fs op fuel nid (c :: t)).2.ni_dvp name behind.isEmpty with
      | .error e => (nameiLoop fs op fuel nid (c :: t)).1 = e
      | .ok vp => (nameiLoop fs op fuel nid (c :: t)).1 = OK ∧ behind = [] ∧
          (nameiLoop fs op fuel nid (c :: t)).2.ni_vp = some vp := by
  induction fuel generalizing nid c t with
  | zero => simp at hfuel
  | succ fuel ih =>
    have hlast : (component (c :: t)).islastcn = (names (tail (c :: t))).isEmpty := by
      show (tail (c :: t)).isEmpty = _
      cases htail : tail (c :: t) with
      | nil => simp [names]
      | cons d t' =>
        rw [names_component (tail_head htail)]
        rfl
    have hspec := @lookup_spec V fs op c hc t { nid with ni_cn := some (component (c :: t)) }
    rw [nameiLoop]
    simp only at hspec ⊢
    rw [hlast] at hspec
    have hns := names_component hc t
    cases hans : answer fs op nid.ni_dvp (component (c :: t)).name
        (names (tail (c :: t))).isEmpty with
    | error e =>
      rw [hans] at hspec
      obtain ⟨h1, h2, h3⟩ := hspec
      rw [if_pos (by rw [h1]; exact e.2)]
      refine ⟨[], (component (c :: t)).name, names (tail (c :: t)), ⟨hns, ?_, ?_⟩, ?_⟩
      · rw [resolve, h2]
      · rw [h3]
        rfl
      · rw [h2, hans]
        exact h1
    | ok vp =>
      rw [hans] at hspec
      simp only at hspec
      rw [hspec, if_neg (by simp), hlast]
      split
      · rename_i hempty
        have hnil : names (tail (c :: t)) = [] := List.isEmpty_iff.1 hempty
        refine ⟨[], (component (c :: t)).name, names (tail (c :: t)), ⟨hns, rfl, rfl⟩, ?_⟩
        rw [hans]
        exact ⟨rfl, hnil, rfl⟩
      · rename_i hmore
        simp only
        cases htail : tail (c :: t) with
        | nil =>
          rw [htail] at hmore
          simp [names] at hmore
        | cons d t' =>
          have hlen := tail_length hc t
          rw [htail] at hlen
          have henter : enter fs nid.ni_dvp (component (c :: t)).name = .ok vp := by
            rw [Bool.not_eq_true] at hmore
            rw [hmore, answer_not_last] at hans
            exact hans
          have hfuel' : (d :: t').length ≤ fuel := by omega
          obtain ⟨before, name, behind, hreach, hend⟩ := @ih
            { nid with ni_cn := some (component (c :: t)), ni_vp := some vp, ni_dvp := vp }
            d t' (tail_head htail) hfuel'
          rw [← htail] at hreach hend
          refine ⟨(component (c :: t)).name :: before, name, behind, ⟨?_, ?_, hreach.cn⟩, hend⟩
          · rw [hns, hreach.names, List.cons_append]
          · rw [resolve_cons henter]
            exact hreach.dir

/-- An empty path is the root; otherwise the walk ends at a component of the path. -/
theorem namei_spec (filename : List Char) (root : V) :
    let r := namei fs op (ndInit filename root)
    (names filename = [] ∧ r.1 = OK ∧ r.2.ni_dvp = root ∧ r.2.ni_vp = some root) ∨
      ∃ before name behind, Reaches fs root (names filename) before name behind r.2 ∧
        match answer fs op r.2.ni_dvp name behind.isEmpty with
        | .error e => r.1 = e
        | .ok vp => r.1 = OK ∧ behind = [] ∧ r.2.ni_vp = some vp := by
  have hns : names (filename.dropWhile (· = '/')) = names filename := words_dropWhile filename
  cases hcp : filename.dropWhile (· = '/') with
  | nil =>
    have hr : namei fs op (ndInit filename root) =
        (OK, { ndInit filename root with ni_vp := some root }) := if_pos hcp
    rw [hcp] at hns
    left
    rw [hr, ← hns]
    exact ⟨words_nil, rfl, rfl, rfl⟩
  | cons c t =>
    have hr : namei fs op (ndInit filename root) =
        nameiLoop fs op (c :: t).length (ndInit filename root) (c :: t) := by
      rw [← hcp]
      exact if_neg (by simp [ndInit, hcp])
    rw [hcp] at hns
    right
    have hc : c ≠ '/' := by
      have hhead := List.head?_dropWhile_not (fun c => decide (c = '/')) filename
      rw [hcp] at hhead
      simpa using hhead
    rw [hr, ← hns]
    exact @nameiLoop_spec V fs op (c :: t).length (ndInit filename root) c t hc (Nat.le_refl _)

end Vmx.Vnio
