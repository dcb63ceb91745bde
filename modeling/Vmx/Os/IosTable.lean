import Vmx.Os.IosLib
import Mathlib.Data.Finset.Card
import Mathlib.Data.Finset.Image
import Mathlib.Data.List.Nodup
import Mathlib.Tactic.Common

/-!
# Runs of the table of descriptors

`iosFdNew` takes an entry before it looks whether the entry has a descriptor, and before the name
is copied; when one of the two fails the entry stays taken.  `iosFdSet` frees the old name before
it has copied the new one, and frees the name of a device that the entry shares when the entry is
set to another device.

`Fits` leaves these calls out.  `Table` is the invariant of the table, in which each name in use
is that of the device or in memory of its own; `Frame` says what a change of one entry leaves as
it was, and the invariant follows from what is true of that entry.
-/

namespace Vmx.Ios

open Lib (exec AllSteps exec_cons exec_invariant_of)

/-- The entry is used. -/
def State.Used (s : State) (f : Nat) : Prop := (s.iosFdTable f).used = true

instance (s : State) (f : Nat) : Decidable (s.Used f) := by
  unfold State.Used
  infer_instance

/-- The address of the name of a device. -/
def State.devName (s : State) (dev : Nat) : Nat := (s.devHeader dev).name

/-- The devices have names in memory, each of its own. -/
structure Named (s : State) : Prop where
  live : ∀ dev ∈ s.iosDevList, s.heap (s.devName dev) ≠ none
  inj : ∀ dev ∈ s.iosDevList, ∀ dev' ∈ s.iosDevList, s.devName dev = s.devName dev' → dev = dev'

/-- The name of the entry, which is at `p`, is nobody else's. -/
structure Own (s : State) (f p : Nat) : Prop where
  live : s.heap p ≠ none
  not_dev : ∀ dev ∈ s.iosDevList, s.devName dev ≠ p
  not_other : ∀ g, g ≠ f → s.Used g → (s.iosFdTable g).name ≠ some p

/-- The name of an entry is shared with its device, or its own. -/
def NameOk (s : State) (f : Nat) : Prop :=
  ∀ p, (s.iosFdTable f).name = some p →
    ∃ dev ∈ s.iosDevList, (s.iosFdTable f).pDevHeader = some dev ∧ (p = s.devName dev ∨ Own s f p)

structure Table (s : State) : Prop where
  named : Named s
  numbered : ∀ f, s.Used f → f + 3 < s.iosMaxFd
  current : ∀ f, s.Used f → (s.iosFdTable f).obsolete = false
  names : ∀ f, s.Used f → NameOk s f

/-- The name is in use by a device, or by an entry other than `f`. -/
def InUse (s : State) (f p : Nat) : Prop :=
  (∃ dev ∈ s.iosDevList, s.devName dev = p) ∨
    ∃ g, g ≠ f ∧ s.Used g ∧ (s.iosFdTable g).name = some p

/-- What a change of the entry `f` leaves as it was. -/
structure Frame (s t : State) (f : Nat) : Prop where
  entries : ∀ g, g ≠ f → t.iosFdTable g = s.iosFdTable g
  maxFd : t.iosMaxFd = s.iosMaxFd
  devHeader : t.devHeader = s.devHeader
  devList : t.iosDevList = s.iosDevList
  heap : ∀ p, InUse s f p → t.heap p = s.heap p

variable {s t u : State} {f g p : Nat}

namespace Frame

theorem refl (s : State) (f : Nat) : Frame s s f := ⟨fun _ _ => rfl, rfl, rfl, rfl, fun _ _ => rfl⟩

theorem devName (h : Frame s t f) : t.devName = s.devName := by
  funext dev
  rw [State.devName, State.devName, h.devHeader]

theorem used (h : Frame s t f) (hg : g ≠ f) : t.Used g ↔ s.Used g := by
  rw [State.Used, State.Used, h.entries g hg]

theorem inUse (h : Frame s t f) : InUse t f p ↔ InUse s f p := by
  unfold InUse
  rw [h.devList, h.devName]
  apply or_congr_right
  apply exists_congr
  intro g
  apply and_congr_right
  intro hg
  rw [h.used hg, h.entries g hg]

theorem trans (h : Frame s t f) (h' : Frame t u f) : Frame s u f where
  entries g hg := (h'.entries g hg).trans (h.entries g hg)
  maxFd := h'.maxFd.trans h.maxFd
  devHeader := h'.devHeader.trans h.devHeader
  devList := h'.devList.trans h.devList
  heap p hp := (h'.heap p (h.inUse.2 hp)).trans (h.heap p hp)

theorem setEntry (s : State) (f : Nat) (e : FdEntry) : Frame s (s.setEntry f e) f where
  entries g hg := by
    rw [State.setEntry]
    exact Function.update_of_ne hg e s.iosFdTable
  maxFd := rfl
  devHeader := rfl
  devList := rfl
  heap _ _ := rfl

/-- A change of memory that nobody else uses. -/
theorem update (s : State) (f : Nat) {q : Nat} (str : Option (List UInt8)) (hq : ¬InUse s f q) :
    Frame s { s with heap := Function.update s.heap q str } f where
  entries _ _ := rfl
  maxFd := rfl
  devHeader := rfl
  devList := rfl
  heap p hp := by
    have hpq : p ≠ q := by
      intro he
      exact hq (he ▸ hp)
    exact Function.update_of_ne hpq str s.heap

/-- The others keep their names. -/
theorem nameOf (h : Frame s t f) (hg : g ≠ f) (hu : s.Used g) : t.nameOf g = s.nameOf g := by
  unfold State.nameOf
  rw [h.entries g hg]
  cases hn : (s.iosFdTable g).name with
  | none => rfl
  | some p => simp only [h.heap p (Or.inr ⟨g, hg, hu, hn⟩)]

end Frame

namespace Table

/-- What is in use can be read. -/
theorem live (hs : Table s) (hp : InUse s f p) : s.heap p ≠ none := by
  rcases hp with ⟨dev, hdev, hp⟩ | ⟨g, hg, hu, hn⟩
  · rw [← hp]
    exact hs.named.live dev hdev
  · obtain ⟨dev, hdev, _, hp | hown⟩ := hs.names g hu p hn
    · rw [hp]
      exact hs.named.live dev hdev
    · exact hown.live

/-- The invariant after a change of one entry: only that entry has to be looked at. -/
theorem frame (hs : Table s) (hf : Frame s t f)
    (he : t.Used f → f + 3 < s.iosMaxFd ∧ (t.iosFdTable f).obsolete = false ∧ NameOk t f) :
    Table t where
  named := by
    constructor
    · intro dev hdev
      rw [hf.devList] at hdev
      rw [hf.devName, hf.heap _ (Or.inl ⟨dev, hdev, rfl⟩)]
      exact hs.named.live dev hdev
    · rw [hf.devList, hf.devName]
      exact hs.named.inj
  numbered g hu := by
    rw [hf.maxFd]
    by_cases hg : g = f
    · rw [hg]
      exact (he (hg ▸ hu)).1
    · exact hs.numbered g ((hf.used hg).1 hu)
  current g hu := by
    by_cases hg : g = f
    · rw [hg]
      exact (he (hg ▸ hu)).2.1
    · rw [hf.entries g hg]
      exact hs.current g ((hf.used hg).1 hu)
  names g hu := by
    by_cases hg : g = f
    · rw [hg]
      exact (he (hg ▸ hu)).2.2
    · intro p hp
      have hu' := (hf.used hg).1 hu
      rw [hf.entries g hg] at hp
      obtain ⟨dev, hdev, hd, hshared | hown⟩ := hs.names g hu' p hp
      · refine ⟨dev, hf.devList ▸ hdev, ?_, Or.inl ?_⟩
        · rw [hf.entries g hg]
          exact hd
        · rw [hf.devName]
          exact hshared
      · refine ⟨dev, hf.devList ▸ hdev, ?_, Or.inr ⟨?_, ?_, ?_⟩⟩
        · rw [hf.entries g hg]
          exact hd
        · rw [hf.heap p (Or.inr ⟨g, hg, hu', hp⟩)]
          exact hown.live
        · rw [hf.devList, hf.devName]
          exact hown.not_dev
        · intro k hk huk hnk
          by_cases hkf : k = f
          · -- The changed entry has not taken a name that was another's.
            rw [hkf] at huk hnk
            obtain ⟨dev', hdev', _, hsh | hown'⟩ := (he huk).2.2 p hnk
            · rw [hf.devList] at hdev'
              rw [hf.devName] at hsh
              exact hown.not_dev dev' hdev' hsh.symm
            · apply hown'.not_other g hg hu
              rw [hf.entries g hg]
              exact hp
          · rw [hf.entries k hkf] at hnk
            exact hown.not_other k hk ((hf.used hkf).1 huk) hnk

/-- The name of an entry is not in use by anyone else, unless it is shared with its device. -/
theorem not_inUse (hs : Table s) (hu : s.Used f) (hp : (s.iosFdTable f).name = some p)
    (hns : ∀ dev, (s.iosFdTable f).pDevHeader = some dev → p ≠ s.devName dev) :
    ¬InUse s f p := by
  obtain ⟨dev, _, hd, hsh | hown⟩ := hs.names f hu p hp
  · exact absurd hsh (hns dev hd)
  · rintro (⟨dev', hdev', hp'⟩ | ⟨g, hg, hug, hn⟩)
    · exact hown.not_dev dev' hdev' hp'
    · exact hown.not_other g hg hug hn

/-- `freeName` changes nothing that others use when the name is not shared, or shared with the
device that is compared. -/
theorem freeName (hs : Table s) (hu : s.Used f) {pDevHeader : Option Nat}
    (hsh : ∀ dev, (s.iosFdTable f).pDevHeader = some dev →
      (s.iosFdTable f).name = some (s.devName dev) → pDevHeader = some dev)
    (h : Ios.freeName s f pDevHeader = some t) :
    Frame s t f ∧ t.iosFdTable = s.iosFdTable := by
  unfold Ios.freeName at h
  cases hn : (s.iosFdTable f).name with
  | none =>
    rw [hn] at h
    cases h
    exact ⟨Frame.refl s f, rfl⟩
  | some p =>
    rw [hn] at h hsh
    cases pDevHeader with
    | none => cases h
    | some dev =>
      simp only [Option.map_some, Option.some.injEq] at h
      subst h
      split
      · rename_i hne
        refine ⟨Frame.update s f none ?_, rfl⟩
        apply hs.not_inUse hu hn
        intro dev' hd' he
        cases hsh dev' hd' (congrArg some he)
        exact hne he
      · exact ⟨Frame.refl s f, rfl⟩

end Table

/-! ## One call -/

/-- What a descriptor has been set to is what its entry has. -/
structure Holds (s : State) (f : Nat) (l : Setting) : Prop where
  pDevHeader : (s.iosFdTable f).pDevHeader = l.pDevHeader
  value : (s.iosFdTable f).value = l.value
  name : s.nameOf f = some l.name

theorem Holds.frame {l : Setting} (h : Holds s g l) (hf : Frame s t f) (hg : g ≠ f)
    (hu : s.Used g) : Holds t g l where
  pDevHeader := by
    rw [hf.entries g hg]
    exact h.pDevHeader
  value := by
    rw [hf.entries g hg]
    exact h.value
  name := by
    rw [hf.nameOf hg hu]
    exact h.name

/-- The entry has been set. -/
structure SetTo (s t : State) (f : Nat) (l : Setting) : Prop where
  frame : Frame s t f
  used : (t.iosFdTable f).used = (s.iosFdTable f).used
  obsolete : (t.iosFdTable f).obsolete = (s.iosFdTable f).obsolete
  holds : Holds t f l
  names : NameOk t f

/-- The device is in the list, if there is one. -/
def Installed (s : State) (pDevHeader : Option Nat) : Prop :=
  ∀ dev ∈ pDevHeader, dev ∈ s.iosDevList

/-- The name is copied, or need not be. -/
def Copies (s : State) (malloc pDevHeader : Option Nat) (name : Option (List UInt8)) : Prop :=
  name = none ∨ malloc ≠ none ∨ (pDevHeader.bind fun dev => s.heap (s.devName dev)) = name

instance (s : State) (pDevHeader : Option Nat) : Decidable (Installed s pDevHeader) := by
  unfold Installed
  infer_instance

instance (s : State) (malloc pDevHeader : Option Nat) (name : Option (List UInt8)) :
    Decidable (Copies s malloc pDevHeader name) := by
  unfold Copies
  infer_instance

@[simp] theorem setEntry_self (s : State) (f : Nat) (e : FdEntry) :
    (s.setEntry f e).iosFdTable f = e := by
  rw [State.setEntry]
  exact Function.update_self f e s.iosFdTable

/-- `setName` sets the entry, or has no memory and takes the name away. -/
theorem setName_spec {malloc pDevHeader : Option Nat} {name : Option (List UInt8)} {value rv : Int}
    (hlive : ∀ p, InUse s f p → s.heap p ≠ none) (hinst : Installed s pDevHeader)
    (h : setName s f malloc pDevHeader name value = some (t, rv)) :
    (rv = OK ∧ SetTo s t f ⟨pDevHeader, name, value⟩) ∨
      (rv = ERROR ∧ t = s.setEntry f { s.iosFdTable f with name := none } ∧
        ¬Copies s malloc pDevHeader name) := by
  unfold setName at h
  cases name with
  | none =>
    simp only [Option.some.injEq, Prod.mk.injEq] at h
    rcases h with ⟨rfl, rfl⟩
    left
    refine ⟨rfl, Frame.setEntry s f _, by simp, by simp, ⟨by simp, by simp, ?_⟩, ?_⟩
    · simp [State.nameOf]
    · intro p hp
      simp at hp
  | some str =>
    cases pDevHeader with
    | none => cases h
    | some dev =>
      have hdev : dev ∈ s.iosDevList := hinst dev rfl
      cases hn : s.heap (s.devHeader dev).name with
      | none => simp [hn] at h
      | some devName =>
        simp only [hn] at h
        split at h
        · -- The name of the device is shared.
          rename_i he
          simp only [Option.some.injEq, Prod.mk.injEq] at h
          rcases h with ⟨rfl, rfl⟩
          left
          refine ⟨rfl, Frame.setEntry s f _, by simp, by simp, ⟨by simp, by simp, ?_⟩, ?_⟩
          · simp [State.nameOf, State.setEntry, hn, he]
          · intro p hp
            simp only [setEntry_self, Option.some.injEq] at hp
            exact ⟨dev, hdev, by simp, Or.inl hp.symm⟩
        · rename_i hne
          cases malloc with
          | none =>
            simp only [Option.some.injEq, Prod.mk.injEq] at h
            rcases h with ⟨rfl, rfl⟩
            right
            refine ⟨rfl, rfl, ?_⟩
            rintro (hc | hc | hc)
            · cases hc
            · exact hc rfl
            · apply hne
              simpa [State.devName, hn] using hc.symm
          | some p =>
            simp only [Option.ite_none_left_eq_some] at h
            rcases h with ⟨hfree, h⟩
            simp only [ne_eq, not_not] at hfree
            simp only [Option.some.injEq, Prod.mk.injEq] at h
            rcases h with ⟨rfl, rfl⟩
            have hp : ¬InUse s f p := fun hp => hlive p hp hfree
            have hframe : Frame s (s.copy p str) f := Frame.update s f (some str) hp
            left
            refine ⟨rfl, hframe.trans (Frame.setEntry _ f _), by simp, by simp,
              ⟨by simp, by simp, ?_⟩, ?_⟩
            · simp [State.nameOf, State.setEntry, State.copy]
            · intro q hq
              simp only [setEntry_self, Option.some.injEq] at hq
              subst hq
              refine ⟨dev, hdev, by simp, Or.inr ⟨?_, ?_, ?_⟩⟩
              · simp [State.setEntry, State.copy]
              · intro dev' hdev' he
                exact hp (Or.inl ⟨dev', hdev', he⟩)
              · intro g hg hu hgn
                have hframe' := hframe.trans
                  (Frame.setEntry (s.copy p str) f { s.iosFdTable f with
                    name := some p, pDevHeader := some dev, value := value })
                rw [hframe'.entries g hg] at hgn
                exact hp (Or.inr ⟨g, hg, (hframe'.used hg).1 hu, hgn⟩)

theorem SetTo.table {l : Setting} (h : SetTo s t f l) (hs : Table s) (hu : s.Used f) :
    Table t := by
  apply hs.frame h.frame
  intro _
  refine ⟨hs.numbered f hu, ?_, h.names⟩
  rw [h.obsolete]
  exact hs.current f hu

/-- The entry shares the name of its device, which is not the one it is to be set to. -/
def Shares (s : State) (f : Nat) (pDevHeader : Option Nat) : Prop :=
  (s.iosFdTable f).name ≠ none ∧ (s.iosFdTable f).pDevHeader ≠ pDevHeader ∧
    (s.iosFdTable f).name = (s.iosFdTable f).pDevHeader.map s.devName

instance (s : State) (f : Nat) (pDevHeader : Option Nat) : Decidable (Shares s f pDevHeader) := by
  unfold Shares
  infer_instance

/-- A used entry is set, or nothing changes: when the name is copied or the entry has none, and
the name of another device is not taken for its own.  A used entry is set when the name is
copied. -/
theorem iosFdSet_spec {malloc pDevHeader : Option Nat} {fd : Int} {name : Option (List UInt8)}
    {value rv : Int} (hs : Table s) (hinst : Installed s pDevHeader)
    (hfit : 3 ≤ fd → s.Used (fd - 3).toNat → ¬Shares s (fd - 3).toNat pDevHeader ∧
      (Copies s malloc pDevHeader name ∨ (s.iosFdTable (fd - 3).toNat).name = none))
    (h : iosFdSet s malloc fd pDevHeader name value = some (t, rv)) :
    (rv = ERROR ∧ t = s ∧ (3 ≤ fd → fd < s.iosMaxFd → s.Used (fd - 3).toNat →
        ¬Copies s malloc pDevHeader name)) ∨
      (rv = OK ∧ ∃ f, fd = stdFix f ∧ s.Used f ∧ SetTo s t f ⟨pDevHeader, name, value⟩) := by
  unfold iosFdSet at h
  split at h
  · rename_i hrange
    cases h
    left
    refine ⟨rfl, rfl, ?_⟩
    intro hlo hhi
    omega
  · rename_i hrange
    simp only at h
    split at h
    · rename_i hunused
      cases h
      left
      refine ⟨rfl, rfl, ?_⟩
      intro _ _ hu
      rw [State.Used, hunused] at hu
      cases hu
    · rename_i hused
      have hu : s.Used (fd - 3).toNat := by simpa [State.Used] using hused
      obtain ⟨hsh, hcopies⟩ := hfit (by omega) hu
      have hfd : fd = stdFix (fd - 3).toNat := by
        rw [stdFix]
        omega
      obtain ⟨v, hfree, hset⟩ := Option.bind_eq_some_iff.1 h
      generalize (fd - 3).toNat = f at *
      obtain ⟨hframe, htable⟩ : Frame s v f ∧ v.iosFdTable = s.iosFdTable := by
        apply hs.freeName hu ?_ hfree
        intro dev hd hn
        by_contra hne
        apply hsh
        refine ⟨by simp [hn], ?_, by simp [hn, hd]⟩
        rw [hd]
        exact fun he => hne he.symm
      have hlive : ∀ p, InUse v f p → v.heap p ≠ none := by
        intro p hp
        have hp' := hframe.inUse.1 hp
        rw [hframe.heap p hp']
        exact hs.live hp'
      have hinst' : Installed v pDevHeader := by
        unfold Installed
        rw [hframe.devList]
        exact hinst
      rcases setName_spec hlive hinst' hset with ⟨hrv, hto⟩ | ⟨hrv, ht, hno⟩
      · right
        refine ⟨hrv, f, hfd, hu, hframe.trans hto.frame, ?_, ?_, hto.holds, hto.names⟩
        · rw [hto.used, htable]
        · rw [hto.obsolete, htable]
      · -- There is no memory; the entry had no name, so that nothing was freed.
        left
        have hno' : ¬Copies s malloc pDevHeader name := by
          rintro (hc | hc | hc)
          · exact hno (Or.inl hc)
          · exact hno (Or.inr (Or.inl hc))
          · apply hno
            right
            right
            rw [← hc, hframe.devName]
            cases hd : pDevHeader with
            | none => rfl
            | some dev =>
              exact hframe.heap _ (Or.inl ⟨dev, hinst dev hd, rfl⟩)
        have hname := hcopies.resolve_left hno'
        have hv : v = s := by
          rw [freeName, hname] at hfree
          cases hfree
          rfl
        refine ⟨hrv, ?_, fun _ _ _ => hno'⟩
        rw [ht, hv, State.setEntry]
        have he : { s.iosFdTable f with name := none } = s.iosFdTable f := by
          rw [← hname]
        rw [he, Function.update_eq_self]

/-- An entry that has no descriptor, or is not used, is not found by `FD_CHECK`. -/
theorem fdCheck_spec (hs : Table s) {std : Nat → Int} {fd : Int} :
    fdCheck s (stdMap std fd) = some f ↔ target std fd = stdFix f ∧ s.Used f := by
  unfold fdCheck stdMap stdFix
  rw [Option.ite_none_right_eq_some]
  constructor
  · rintro ⟨⟨h0, _, hu, _⟩, hf⟩
    have hf' : (target std fd - 3).toNat = f := by simpa using hf
    rw [hf'] at hu
    exact ⟨by omega, hu⟩
  · rintro ⟨ht, hu⟩
    have hf : (target std fd - 3).toNat = f := by omega
    have hnum := hs.numbered f hu
    rw [hf]
    exact ⟨⟨by omega, by omega, hu, hs.current f hu⟩, rfl⟩

/-- The entry has been freed. -/
structure Freed (s t : State) (f : Nat) : Prop where
  frame : Frame s t f
  before : s.Used f
  after : ¬t.Used f

theorem Freed.table (h : Freed s t f) (hs : Table s) : Table t :=
  hs.frame h.frame fun hu => absurd hu h.after

/-- `iosFdFree` frees the entry of the descriptor, if it is used. -/
theorem iosFdFree_spec (hs : Table s) {std : Nat → Int} {fd : Int}
    (h : iosFdFree s std fd = some t) :
    (t = s ∧ ∀ f, s.Used f → target std fd ≠ stdFix f) ∨
      ∃ f, target std fd = stdFix f ∧ Freed s t f := by
  unfold iosFdFree at h
  cases hc : fdCheck s (stdMap std fd) with
  | none =>
    rw [hc] at h
    cases h
    left
    refine ⟨rfl, ?_⟩
    intro f hu ht
    rw [(fdCheck_spec hs).2 ⟨ht, hu⟩] at hc
    cases hc
  | some f =>
    rw [hc] at h
    obtain ⟨ht, hu⟩ := (fdCheck_spec hs).1 hc
    simp only [Option.map_eq_some_iff] at h
    obtain ⟨v, hfree, rfl⟩ := h
    right
    refine ⟨f, ht, ?_, hu, ?_⟩
    · exact (hs.freeName hu (fun dev hd _ => hd) hfree).1.trans (Frame.setEntry v f _)
    · simp [State.Used]

/-- `iosClose` frees the entry as `iosFdFree` does. -/
theorem iosClose_spec (hs : Table s) {std : Nat → Int} {fd rv rv' : Int}
    (h : iosClose s std fd rv = some (t, rv')) :
    (t = s ∧ ∀ f, s.Used f → target std fd ≠ stdFix f) ∨
      ∃ f, target std fd = stdFix f ∧ Freed s t f := by
  unfold iosClose at h
  simp only at h
  cases hc : fdCheck s (stdMap std fd) with
  | none =>
    rw [hc] at h
    cases h
    left
    refine ⟨rfl, ?_⟩
    intro f hu ht
    rw [(fdCheck_spec hs).2 ⟨ht, hu⟩] at hc
    cases hc
  | some f =>
    rw [hc] at h
    obtain ⟨ht, hu⟩ := (fdCheck_spec hs).1 hc
    have hmap : target std (stdMap std fd + 3) = target std fd := by
      rw [stdMap, ht, stdFix, target, if_neg (by omega)]
      omega
    cases hd : (s.iosFdTable f).pDevHeader with
    | none => simp [hd] at h
    | some dev =>
      simp only [hd, Option.map_eq_some_iff, Prod.mk.injEq] at h
      obtain ⟨v, hfree, rfl, _⟩ := h
      have hspec := iosFdFree_spec hs hfree
      rw [hmap] at hspec
      exact hspec

end Vmx.Ios
