import Mathlib.Data.List.Nodup
import Vmx.Fs.BufLib

/-!
# Who has a buffer

A buffer that a task has got is busy and stays for its block, until the task releases it.  While
it is in `brelse` nobody has it, and it is still busy.  The invariant holds as long as no task
takes a buffer that it found, or waited for, after another one has taken it meanwhile:
`buf_getblk` does not look again.
-/

namespace Vmx.Bio

open Lib

variable {s s' : State} {t t' b b' : Nat} {k : Nat × Nat} {r : Req} {frames : List Frame}

/-- Only one task has a buffer, and it is busy and for the block that the task asked for. -/
structure Exclusive (s : State) : Prop where
  one : ∀ t t' b, s.holds t b ≠ none → s.holds t' b ≠ none → t = t'
  key : ∀ t b k, s.holds t b = some k → (s.buf b).busy = true ∧ (s.buf b).key = some k

attribute [local grind =] step

/-! ## The stacks -/

/-- The buffer that a task reads or writes in a frame. -/
def Frame.io : Frame → Option Nat
  | .reading b => some b
  | .writing b => some b
  | _ => none

/-- The buffers that a task reads or writes. -/
def ioBufs (frames : List Frame) : List Nat := frames.filterMap Frame.io

theorem ioBufs_reading (b : Nat) (frames : List Frame) :
    ioBufs (.reading b :: frames) = b :: ioBufs frames := rfl

theorem ioBufs_writing (b : Nat) (frames : List Frame) :
    ioBufs (.writing b :: frames) = b :: ioBufs frames := rfl

/-- Only the frames of strategy routines matter for that. -/
theorem ioBufs_filter (frames : List Frame) :
    ioBufs frames = ioBufs (frames.filter (·.io.isSome)) := by
  induction frames with
  | nil => rfl
  | cons f frames ih =>
    rw [ioBufs] at ih ⊢
    cases hf : f.io <;> simp [hf, ih, ioBufs]

/-- The buffer that is in `brelse`, on top of a stack. -/
def leavingBuf : List Frame → Option Nat
  | .brelse b _ :: _ => some b
  | .released b _ :: _ => some b
  | _ => none

/-- Below the top of a stack there are strategy routines. -/
def Stacked (frames : List Frame) : Prop := ∀ f ∈ frames.tail, f.io ≠ none

theorem leavingBuf_of_io {f : Frame} (h : f.io ≠ none) : leavingBuf (f :: frames) = none := by
  cases f <;> first | rfl | exact absurd rfl h

theorem leavingBuf_tail {f : Frame} (h : Stacked (f :: frames)) : leavingBuf frames = none := by
  cases frames with
  | nil => rfl
  | cons f' frames => exact leavingBuf_of_io (h f' (by simp))

theorem Stacked.tail {f : Frame} (h : Stacked (f :: frames)) : Stacked frames :=
  fun f' hf' => h f' (List.mem_of_mem_tail hf')

theorem Stacked.top {f : Frame} (f' : Frame) (h : Stacked (f :: frames)) :
    Stacked (f' :: frames) := h

theorem Stacked.push {f : Frame} (h : Stacked frames) (hcall : canCall frames = true) :
    Stacked (f :: frames) := by
  intro f' hf'
  cases frames with
  | nil => simp at hf'
  | cons top rest =>
    obtain rfl | hmem := List.mem_cons.1 hf'
    · cases f' <;> first | exact absurd hcall Bool.false_ne_true | exact Option.some_ne_none _
    · exact h f' hmem

theorem leavingBuf_canCall (h : canCall frames = true) : leavingBuf frames = none := by
  cases frames with
  | nil => rfl
  | cons f frames => cases f <;> first | rfl | exact absurd h Bool.false_ne_true

/-! ## The invariant -/

structure OwnInv (s : State) : Prop where
  exclusive : Exclusive s
  leaving : ∀ t b, leavingBuf (s.calls t) = some b → (s.buf b).busy = true ∧
    (∀ t', s.holds t' b = none) ∧ ∀ t', leavingBuf (s.calls t') = some b → t' = t
  io : ∀ t, (ioBufs (s.calls t)).Nodup ∧ ∀ b ∈ ioBufs (s.calls t), s.holds t b ≠ none
  async : ∀ b, (s.buf b).async = true →
    (∃ t, .writing b ∈ s.calls t) ∨ ∃ t, leavingBuf (s.calls t) = some b
  stacked : ∀ t, Stacked (s.calls t)

/-- A buffer that is not busy is nobody's. -/
theorem OwnInv.free (h : OwnInv s) (hb : (s.buf b).busy = false) (t : Nat) :
    s.holds t b = none ∧ leavingBuf (s.calls t) ≠ some b := by
  constructor
  · cases hk : s.holds t b with
    | none => rfl
    | some k =>
      have := (h.exclusive.key t b k hk).1
      rw [hb] at this
      simp at this
  · intro hl
    have := (h.leaving t b hl).1
    rw [hb] at this
    simp at this

/-- A change of one stack that does not matter, and of what does not matter in the buffers. -/
theorem OwnInv.frame (h : OwnInv s) (hholds : s'.holds = s.holds)
    (hbuf : ∀ b, (s'.buf b).busy = (s.buf b).busy ∧ (s'.buf b).key = (s.buf b).key ∧
      (s'.buf b).async = (s.buf b).async)
    (hcalls : ∀ t', t' ≠ t → s'.calls t' = s.calls t')
    (hio : (s'.calls t).filter (·.io.isSome) = (s.calls t).filter (·.io.isSome))
    (hleaving : leavingBuf (s'.calls t) = leavingBuf (s.calls t)) (hst : Stacked (s'.calls t)) :
    OwnInv s' := by
  have hlv : ∀ t', leavingBuf (s'.calls t') = leavingBuf (s.calls t') := by
    intro t'
    by_cases ht : t' = t
    · rw [ht, hleaving]
    · rw [hcalls t' ht]
  have hfilter : ∀ t', (s'.calls t').filter (·.io.isSome) =
      (s.calls t').filter (·.io.isSome) := by
    intro t'
    by_cases ht : t' = t
    · rw [ht, hio]
    · rw [hcalls t' ht]
  refine ⟨⟨?_, fun t b k hk => ?_⟩, fun t' b hl => ?_, fun t' => ?_, fun b ha => ?_, fun t' => ?_⟩
  · rw [hholds]
    exact h.exclusive.one
  · rw [(hbuf b).1, (hbuf b).2.1]
    rw [hholds] at hk
    exact h.exclusive.key t b k hk
  · rw [(hbuf b).1, hholds]
    simp only [hlv] at hl ⊢
    exact h.leaving t' b hl
  · rw [hholds, ioBufs_filter, hfilter, ← ioBufs_filter]
    exact h.io t'
  · rw [(hbuf b).2.2] at ha
    simp only [hlv]
    obtain ⟨t', ht'⟩ | hl := h.async b ha
    · refine .inl ⟨t', ?_⟩
      have hmem : .writing b ∈ (s'.calls t').filter (·.io.isSome) := by
        rw [hfilter]
        exact List.mem_filter.2 ⟨ht', rfl⟩
      exact List.mem_of_mem_filter hmem
    · exact .inr hl
  · by_cases ht : t' = t
    · rw [ht]
      exact hst
    · rw [hcalls t' ht]
      exact h.stacked t'

/-- Only one buffer and one task change. -/
structure Change (s s' : State) (t b : Nat) : Prop where
  buf : ∀ b', b' ≠ b → s'.buf b' = s.buf b'
  calls : ∀ t', t' ≠ t → s'.calls t' = s.calls t'
  holds : ∀ t' b', ¬ (t' = t ∧ b' = b) → s'.holds t' b' = s.holds t' b'

/-- A buffer that is on top of no stack in `brelse`, and that nobody has, is not asynchronous. -/
theorem OwnInv.sync (h : OwnInv s) (hholds : ∀ t, s.holds t b = none)
    (hleaving : ∀ t, leavingBuf (s.calls t) ≠ some b) : (s.buf b).async = false := by
  by_contra ha
  obtain ⟨t, ht⟩ | ⟨t, ht⟩ := h.async b (by simpa using ha)
  · have hmem : b ∈ ioBufs (s.calls t) := List.mem_filterMap.2 ⟨_, ht, rfl⟩
    exact (h.io t).2 b hmem (hholds t)
  · exact hleaving t ht

theorem writing_of_cons {f : Frame} (hf : f.io = none) (hw : .writing b ∈ f :: frames) :
    .writing b ∈ frames := by
  obtain rfl | hmem := List.mem_cons.1 hw
  · simp [Frame.io] at hf
  · exact hmem

/-- A task gets a buffer that is not busy. -/
theorem OwnInv.gain {f : Frame} (h : OwnInv s) (hc : Change s s' t b)
    (hb : (s.buf b).busy = false) (hbusy : (s'.buf b).busy = true)
    (hkey : (s'.buf b).key = some k) (hasync : (s'.buf b).async = true → (s.buf b).async = true)
    (hholds : s'.holds t b = some k) (hcalls : s.calls t = f :: frames) (hf : f.io = none)
    (hleaving : leavingBuf (f :: frames) = none) (hcalls' : s'.calls t = frames) : OwnInv s' := by
  have hcase : ∀ t' b', s'.holds t' b' ≠ none → (t' = t ∧ b' = b) ∨ s.holds t' b' ≠ none := by
    intro t' b' hne
    by_cases hself : t' = t ∧ b' = b
    · exact .inl hself
    · rw [hc.holds t' b' hself] at hne
      exact .inr hne
  have hstacked := h.stacked t
  rw [hcalls] at hstacked
  have hnone := leavingBuf_tail hstacked
  have hlv : ∀ t' b', leavingBuf (s'.calls t') = some b' →
      t' ≠ t ∧ leavingBuf (s.calls t') = some b' := by
    intro t' b' hl
    by_cases ht : t' = t
    · rw [ht, hcalls', hnone] at hl
      simp at hl
    · rw [hc.calls t' ht] at hl
      exact ⟨ht, hl⟩
  refine ⟨⟨fun t1 t2 b' h1 h2 => ?_, fun t' b' k' hk => ?_⟩, fun t' b' hl => ?_, fun t' => ?_,
    fun b' ha => ?_, fun t' => ?_⟩
  · obtain ⟨rfl, rfl⟩ | h1 := hcase t1 b' h1
    · obtain ⟨rfl, -⟩ | h2 := hcase t2 b' h2
      · rfl
      · exact absurd (h.free hb t2).1 h2
    · obtain ⟨rfl, rfl⟩ | h2 := hcase t2 b' h2
      · exact absurd (h.free hb t1).1 h1
      · exact h.exclusive.one t1 t2 b' h1 h2
  · by_cases hself : t' = t ∧ b' = b
    · obtain ⟨rfl, rfl⟩ := hself
      rw [hholds] at hk
      exact ⟨hbusy, hkey.trans hk⟩
    · rw [hc.holds t' b' hself] at hk
      have hne : b' ≠ b := by
        rintro rfl
        rw [(h.free hb t').1] at hk
        simp at hk
      rw [hc.buf b' hne]
      exact h.exclusive.key t' b' k' hk
  · obtain ⟨ht, hl⟩ := hlv t' b' hl
    have hne : b' ≠ b := by
      rintro rfl
      exact (h.free hb t').2 hl
    obtain ⟨h1, h2, h3⟩ := h.leaving t' b' hl
    refine ⟨by rw [hc.buf b' hne]; exact h1, fun t2 => ?_, fun t2 hl2 => h3 t2 (hlv t2 b' hl2).2⟩
    rw [hc.holds t2 b' fun hself => hne hself.2]
    exact h2 t2
  · by_cases ht : t' = t
    · subst ht
      have hio := h.io t'
      rw [hcalls, ioBufs, List.filterMap_cons_none hf] at hio
      rw [hcalls']
      refine ⟨hio.1, fun b' hb' => ?_⟩
      have hne : b' ≠ b := by
        rintro rfl
        exact hio.2 b' hb' (h.free hb t').1
      rw [hc.holds t' b' fun hself => hne hself.2]
      exact hio.2 b' hb'
    · rw [hc.calls t' ht]
      refine ⟨(h.io t').1, fun b' hb' => ?_⟩
      rw [hc.holds t' b' fun hself => ht hself.1]
      exact (h.io t').2 b' hb'
  · by_cases hne : b' = b
    · subst hne
      have := h.sync (fun t2 => (h.free hb t2).1) fun t2 => (h.free hb t2).2
      rw [hasync ha] at this
      simp at this
    · rw [hc.buf b' hne] at ha
      obtain ⟨t', ht'⟩ | ⟨t', hl⟩ := h.async b' ha
      · refine .inl ⟨t', ?_⟩
        by_cases ht : t' = t
        · subst ht
          rw [hcalls] at ht'
          rw [hcalls']
          exact writing_of_cons hf ht'
        · rw [hc.calls t' ht]
          exact ht'
      · refine .inr ⟨t', ?_⟩
        by_cases ht : t' = t
        · rw [ht, hcalls, hleaving] at hl
          simp at hl
        · rw [hc.calls t' ht]
          exact hl
  · by_cases ht : t' = t
    · rw [ht, hcalls']
      exact hstacked.tail
    · rw [hc.calls t' ht]
      exact h.stacked t'

/-- A buffer that nobody else has or releases goes into `brelse`. -/
theorem OwnInv.leave (h : OwnInv s) (hc : Change s s' t b) (hbusy : (s'.buf b).busy = true)
    (hother : ∀ t', t' ≠ t → s.holds t' b = none)
    (hnot : ∀ t', leavingBuf (s.calls t') ≠ some b) (hself : leavingBuf (s.calls t) = none)
    (hholds : s'.holds t b = none) (hcalls' : leavingBuf (s'.calls t) = some b)
    (hio : (ioBufs (s'.calls t)).Nodup ∧ ∀ b' ∈ ioBufs (s'.calls t),
      b' ≠ b ∧ b' ∈ ioBufs (s.calls t))
    (hwriting : ∀ b', b' ≠ b → .writing b' ∈ s.calls t → .writing b' ∈ s'.calls t)
    (hst : Stacked (s'.calls t)) : OwnInv s' := by
  have hnobody : ∀ t', s'.holds t' b = none := by
    intro t'
    by_cases ht : t' = t
    · rw [ht, hholds]
    · rw [hc.holds t' b fun hs => ht hs.1, hother t' ht]
  have hold : ∀ t' b', s'.holds t' b' ≠ none → b' ≠ b ∧ s'.holds t' b' = s.holds t' b' := by
    intro t' b' hne
    have hbb : b' ≠ b := by
      rintro rfl
      exact hne (hnobody t')
    exact ⟨hbb, hc.holds t' b' fun hs => hbb hs.2⟩
  have hlv : ∀ t' b', leavingBuf (s'.calls t') = some b' →
      (t' = t ∧ b' = b) ∨ (t' ≠ t ∧ b' ≠ b ∧ leavingBuf (s.calls t') = some b') := by
    intro t' b' hl
    by_cases ht : t' = t
    · rw [ht, hcalls'] at hl
      exact .inl ⟨ht, (Option.some.inj hl).symm⟩
    · rw [hc.calls t' ht] at hl
      refine .inr ⟨ht, ?_, hl⟩
      rintro rfl
      exact hnot t' hl
  refine ⟨⟨fun t1 t2 b' h1 h2 => ?_, fun t' b' k' hk => ?_⟩, fun t' b' hl => ?_, fun t' => ?_,
    fun b' ha => ?_, fun t' => ?_⟩
  · rw [(hold t1 b' h1).2] at h1
    rw [(hold t2 b' h2).2] at h2
    exact h.exclusive.one t1 t2 b' h1 h2
  · obtain ⟨hne, heq⟩ := hold t' b' (by simp [hk])
    rw [heq] at hk
    rw [hc.buf b' hne]
    exact h.exclusive.key t' b' k' hk
  · obtain ⟨rfl, rfl⟩ | ⟨ht, hne, hl⟩ := hlv t' b' hl
    · refine ⟨hbusy, hnobody, fun t2 hl2 => ?_⟩
      obtain ⟨ht2, -⟩ | ⟨-, hne, -⟩ := hlv t2 b' hl2
      · exact ht2
      · exact absurd rfl hne
    · obtain ⟨h1, h2, h3⟩ := h.leaving t' b' hl
      refine ⟨by rw [hc.buf b' hne]; exact h1, fun t2 => ?_, fun t2 hl2 => ?_⟩
      · rw [hc.holds t2 b' fun hs => hne hs.2]
        exact h2 t2
      · obtain ⟨-, rfl⟩ | ⟨-, -, hl2⟩ := hlv t2 b' hl2
        · exact absurd rfl hne
        · exact h3 t2 hl2
  · by_cases ht : t' = t
    · subst ht
      refine ⟨hio.1, fun b' hb' => ?_⟩
      obtain ⟨hne, hmem⟩ := hio.2 b' hb'
      rw [hc.holds t' b' fun hs => hne hs.2]
      exact (h.io t').2 b' hmem
    · rw [hc.calls t' ht]
      refine ⟨(h.io t').1, fun b' hb' => ?_⟩
      rw [hc.holds t' b' fun hs => ht hs.1]
      exact (h.io t').2 b' hb'
  · by_cases hne : b' = b
    · subst hne
      exact .inr ⟨t, hcalls'⟩
    · rw [hc.buf b' hne] at ha
      obtain ⟨t', ht'⟩ | ⟨t', hl⟩ := h.async b' ha
      · refine .inl ⟨t', ?_⟩
        by_cases ht : t' = t
        · subst ht
          exact hwriting b' hne ht'
        · rw [hc.calls t' ht]
          exact ht'
      · refine .inr ⟨t', ?_⟩
        by_cases ht : t' = t
        · rw [ht, hself] at hl
          simp at hl
        · rw [hc.calls t' ht]
          exact hl
  · by_cases ht : t' = t
    · rw [ht]
      exact hst
    · rw [hc.calls t' ht]
      exact h.stacked t'

/-- The end of `brelse`. -/
theorem OwnInv.unlock (h : OwnInv s) (hself : leavingBuf (s.calls t) = some b)
    (hbuf : ∀ b', b' ≠ b → s'.buf b' = s.buf b')
    (hcalls : ∀ t', t' ≠ t → s'.calls t' = s.calls t') (hholds : s'.holds = s.holds)
    (hasync : (s'.buf b).async = false) (hcalls' : leavingBuf (s'.calls t) = none)
    (hio : (s'.calls t).filter (·.io.isSome) = (s.calls t).filter (·.io.isSome))
    (hst : Stacked (s'.calls t)) : OwnInv s' := by
  obtain ⟨-, hnobody, honly⟩ := h.leaving t b hself
  have hlv : ∀ t' b', leavingBuf (s'.calls t') = some b' →
      t' ≠ t ∧ b' ≠ b ∧ leavingBuf (s.calls t') = some b' := by
    intro t' b' hl
    by_cases ht : t' = t
    · rw [ht, hcalls'] at hl
      simp at hl
    · rw [hcalls t' ht] at hl
      refine ⟨ht, ?_, hl⟩
      rintro rfl
      exact ht (honly t' hl)
  have hfilter : ∀ t', (s'.calls t').filter (·.io.isSome) =
      (s.calls t').filter (·.io.isSome) := by
    intro t'
    by_cases ht : t' = t
    · rw [ht, hio]
    · rw [hcalls t' ht]
  refine ⟨⟨?_, fun t' b' k' hk => ?_⟩, fun t' b' hl => ?_, fun t' => ?_, fun b' ha => ?_,
    fun t' => ?_⟩
  · rw [hholds]
    exact h.exclusive.one
  · rw [hholds] at hk
    have hne : b' ≠ b := by
      rintro rfl
      rw [hnobody t'] at hk
      simp at hk
    rw [hbuf b' hne]
    exact h.exclusive.key t' b' k' hk
  · obtain ⟨-, hne, hl⟩ := hlv t' b' hl
    obtain ⟨h1, h2, h3⟩ := h.leaving t' b' hl
    rw [hbuf b' hne, hholds]
    exact ⟨h1, h2, fun t2 hl2 => h3 t2 (hlv t2 b' hl2).2.2⟩
  · rw [hholds, ioBufs_filter, hfilter, ← ioBufs_filter]
    exact h.io t'
  · have hne : b' ≠ b := by
      rintro rfl
      rw [hasync] at ha
      simp at ha
    rw [hbuf b' hne] at ha
    obtain ⟨t', ht'⟩ | ⟨t', hl⟩ := h.async b' ha
    · refine .inl ⟨t', ?_⟩
      have hmem : .writing b' ∈ (s'.calls t').filter (·.io.isSome) := by
        rw [hfilter]
        exact List.mem_filter.2 ⟨ht', rfl⟩
      exact List.mem_of_mem_filter hmem
    · refine .inr ⟨t', ?_⟩
      have ht : t' ≠ t := by
        rintro rfl
        rw [hself] at hl
        exact hne (Option.some.inj hl).symm
      rw [hcalls t' ht]
      exact hl
  · by_cases ht : t' = t
    · rw [ht]
      exact hst
    · rw [hcalls t' ht]
      exact h.stacked t'

/-- A task starts to read or write a buffer that it has. -/
theorem OwnInv.start {f : Frame} (h : OwnInv s) (hf : f.io = some b)
    (hcall : canCall (s.calls t) = true) (hholds : s.holds t b ≠ none)
    (hnot : b ∉ ioBufs (s.calls t)) (hsame : s'.holds = s.holds)
    (hbuf : ∀ b', (s'.buf b').busy = (s.buf b').busy ∧ (s'.buf b').key = (s.buf b').key)
    (hasync : ∀ b', (s'.buf b').async = true →
      (s.buf b').async = true ∨ (b' = b ∧ f = .writing b))
    (hcalls : ∀ t', t' ≠ t → s'.calls t' = s.calls t')
    (hcalls' : s'.calls t = f :: s.calls t) : OwnInv s' := by
  have hlv : ∀ t', leavingBuf (s'.calls t') = leavingBuf (s.calls t') := by
    intro t'
    by_cases ht : t' = t
    · rw [ht, hcalls', leavingBuf_of_io (by simp [hf]), leavingBuf_canCall hcall]
    · rw [hcalls t' ht]
  refine ⟨⟨?_, fun t' b' k' hk => ?_⟩, fun t' b' hl => ?_, fun t' => ?_, fun b' ha => ?_,
    fun t' => ?_⟩
  · rw [hsame]
    exact h.exclusive.one
  · rw [hsame] at hk
    rw [(hbuf b').1, (hbuf b').2]
    exact h.exclusive.key t' b' k' hk
  · simp only [hlv] at hl ⊢
    rw [(hbuf b').1, hsame]
    exact h.leaving t' b' hl
  · rw [hsame]
    by_cases ht : t' = t
    · subst ht
      rw [hcalls', ioBufs, List.filterMap_cons_some hf]
      refine ⟨List.nodup_cons.2 ⟨hnot, (h.io t').1⟩, fun b' hb' => ?_⟩
      obtain rfl | hmem := List.mem_cons.1 hb'
      · exact hholds
      · exact (h.io t').2 b' hmem
    · rw [hcalls t' ht]
      exact h.io t'
  · simp only [hlv]
    have hmem : ∀ t', .writing b' ∈ s.calls t' → .writing b' ∈ s'.calls t' := by
      intro t' hw
      by_cases ht : t' = t
      · subst ht
        rw [hcalls']
        exact List.mem_cons_of_mem _ hw
      · rw [hcalls t' ht]
        exact hw
    obtain ha | ⟨rfl, rfl⟩ := hasync b' ha
    · obtain ⟨t', ht'⟩ | hl := h.async b' ha
      · exact .inl ⟨t', hmem t' ht'⟩
      · exact .inr hl
    · exact .inl ⟨t, by simp [hcalls']⟩
  · by_cases ht : t' = t
    · rw [ht, hcalls']
      exact (h.stacked t).push hcall
    · rw [hcalls t' ht]
      exact h.stacked t'

/-- A task has read a buffer. -/
theorem OwnInv.read (h : OwnInv s) (hcalls : s.calls t = .reading b :: frames)
    (hsame : s'.holds = s.holds)
    (hbuf : ∀ b', (s'.buf b').busy = (s.buf b').busy ∧ (s'.buf b').key = (s.buf b').key ∧
      (s'.buf b').async = (s.buf b').async)
    (hothers : ∀ t', t' ≠ t → s'.calls t' = s.calls t') (hcalls' : s'.calls t = frames) :
    OwnInv s' := by
  have hstacked := h.stacked t
  rw [hcalls] at hstacked
  have hlv : ∀ t', leavingBuf (s'.calls t') = leavingBuf (s.calls t') := by
    intro t'
    by_cases ht : t' = t
    · rw [ht, hcalls', hcalls, leavingBuf_tail hstacked]
      rfl
    · rw [hothers t' ht]
  refine ⟨⟨?_, fun t' b' k' hk => ?_⟩, fun t' b' hl => ?_, fun t' => ?_, fun b' ha => ?_,
    fun t' => ?_⟩
  · rw [hsame]
    exact h.exclusive.one
  · rw [hsame] at hk
    rw [(hbuf b').1, (hbuf b').2.1]
    exact h.exclusive.key t' b' k' hk
  · simp only [hlv] at hl ⊢
    rw [(hbuf b').1, hsame]
    exact h.leaving t' b' hl
  · rw [hsame]
    by_cases ht : t' = t
    · subst ht
      have hio := h.io t'
      rw [hcalls, ioBufs_reading, List.nodup_cons] at hio
      rw [hcalls']
      exact ⟨hio.1.2, fun b' hb' => hio.2 b' (List.mem_cons_of_mem _ hb')⟩
    · rw [hothers t' ht]
      exact h.io t'
  · rw [(hbuf b').2.2] at ha
    simp only [hlv]
    obtain ⟨t', ht'⟩ | hl := h.async b' ha
    · refine .inl ⟨t', ?_⟩
      by_cases ht : t' = t
      · subst ht
        rw [hcalls] at ht'
        rw [hcalls']
        obtain heq | hmem := List.mem_cons.1 ht'
        · simp at heq
        · exact hmem
      · rw [hothers t' ht]
        exact ht'
    · exact .inr hl
  · by_cases ht : t' = t
    · rw [ht, hcalls']
      exact hstacked.tail
    · rw [hothers t' ht]
      exact h.stacked t'

/-- A buffer that a task reads is not asynchronous. -/
theorem OwnInv.reading_sync (h : OwnInv s) (hcalls : s.calls t = .reading b :: frames) :
    (s.buf b).async = false := by
  have hio := h.io t
  have hmem : b ∈ ioBufs (s.calls t) := by
    rw [hcalls, ioBufs_reading]
    exact List.mem_cons_self
  have hheld := hio.2 b hmem
  by_contra ha
  obtain ⟨t', hw⟩ | ⟨t', hl⟩ := h.async b (by simpa using ha)
  · have hmem' : b ∈ ioBufs (s.calls t') := List.mem_filterMap.2 ⟨_, hw, rfl⟩
    obtain rfl := h.exclusive.one t' t b ((h.io t').2 b hmem') hheld
    rw [hcalls] at hw
    have hrest : .writing b ∈ frames := by
      obtain heq | hrest := List.mem_cons.1 hw
      · simp at heq
      · exact hrest
    rw [hcalls, ioBufs_reading, List.nodup_cons] at hio
    exact hio.1.1 (List.mem_filterMap.2 ⟨_, hrest, rfl⟩)
  · exact hheld ((h.leaving t' b hl).2.1 t)

/-! ## Runs -/

/-- The task has the buffer, and is not reading or writing it. -/
def mayUse (s : State) (t b : Nat) : Bool := (s.holds t b).isSome && !(ioBufs (s.calls t)).contains b

/-- A task reads, writes and releases what it has, and `buf_getblk` takes a buffer that it found,
or waited for, when it is free and still for the same block. -/
def goodStep (s : State) : Label → Bool
  | .bread t b => mayUse s t b
  | .bwrite t b => !(s.buf b).busy || mayUse s t b
  | .bufStartwrite t b => mayUse s t b
  | .brelse t b => !(s.buf b).busy || mayUse s t b
  | .take t =>
    match s.calls t with
    | .found b r :: _ => !(s.buf b).busy && (s.buf b).key == some r.key
    | _ => true
  | _ => true

theorem mayUse_iff : mayUse s t b = true ↔ s.holds t b ≠ none ∧ b ∉ ioBufs (s.calls t) := by
  rw [mayUse, Bool.and_eq_true, Option.isSome_iff_ne_none, Bool.not_eq_true', ← Bool.not_eq_true,
    List.contains_iff_mem]

/-- A task that has a buffer starts to release it. -/
theorem OwnInv.callBrelse {s1 : State} (h : OwnInv s) (hholds : s1.holds = s.holds)
    (hcalls : s1.calls = s.calls) (hbuf : ∀ b', b' ≠ b → s1.buf b' = s.buf b')
    (hbusy : (s1.buf b).busy = (s.buf b).busy) (hheld : s.holds t b ≠ none)
    (hself : leavingBuf (s.calls t) = none)
    (hio : (ioBufs frames).Nodup ∧ ∀ b' ∈ ioBufs frames, b' ≠ b ∧ b' ∈ ioBufs (s.calls t))
    (hwriting : ∀ b', b' ≠ b → .writing b' ∈ s.calls t → .writing b' ∈ frames)
    (hst : Stacked (.brelse b none :: frames)) : OwnInv (callBrelse s1 t b none frames) := by
  obtain ⟨k, hk⟩ := Option.ne_none_iff_exists'.1 hheld
  have hcalls' : (Bio.callBrelse s1 t b none frames).calls t = .brelse b none :: frames := by
    simp [Bio.callBrelse, State.setCalls]
  refine h.leave (t := t) (b := b) ⟨hbuf, fun t' ht => ?_, fun t' b' hne => ?_⟩
    (hbusy.trans (h.exclusive.key t b k hk).1) (fun t' ht => ?_) (fun t' hl => ?_) hself
    ?_ ?_ ?_ (fun b' hne hw => ?_) ?_
  · simp [Bio.callBrelse, State.setCalls, State.setHolds, Function.update_of_ne ht, hcalls]
  · simp only [Bio.callBrelse, State.setCalls, State.setHolds, Function.update_apply, hholds]
    split
    · subst_vars
      rw [Function.update_apply, if_neg fun hb => hne ⟨rfl, hb⟩]
    · rfl
  · by_contra hne
    exact ht (h.exclusive.one t' t b hne hheld)
  · exact hheld ((h.leaving t' b hl).2.1 t)
  · simp [Bio.callBrelse, State.setCalls, State.setHolds]
  · rw [hcalls']
    rfl
  · rw [hcalls']
    exact hio
  · rw [hcalls']
    exact List.mem_cons_of_mem _ (hwriting b' hne hw)
  · rw [hcalls']
    exact hst

/-- `brelse` of a buffer that the task may use. -/
theorem OwnInv.mayBrelse {f : Buf → Buf} (h : OwnInv s) (hcall : canCall (s.calls t) = true)
    (huse : mayUse s t b = true) (hf : (f (s.buf b)).busy = (s.buf b).busy) :
    OwnInv (Bio.callBrelse (s.setBuf b f) t b none (s.calls t)) := by
  obtain ⟨hheld, hnot⟩ := mayUse_iff.1 huse
  refine h.callBrelse rfl rfl (fun b' hne => ?_) ?_ hheld (leavingBuf_canCall hcall)
    ⟨(h.io t).1, fun b' hb' => ⟨?_, hb'⟩⟩ (fun b' _ hw => hw) ((h.stacked t).push hcall)
  · simp [State.setBuf, Function.update_of_ne hne]
  · simpa [State.setBuf] using hf
  · rintro rfl
    exact hnot hb'

/-- `bwrite` of a buffer that the task may use. -/
theorem OwnInv.mayBwrite {f : Buf → Buf} (h : OwnInv s) (hcall : canCall (s.calls t) = true)
    (huse : mayUse s t b = true)
    (hf : (f (s.buf b)).busy = (s.buf b).busy ∧ (f (s.buf b)).key = (s.buf b).key) :
    OwnInv (callBwrite (s.setBuf b f) t b (s.calls t)) := by
  obtain ⟨hheld, hnot⟩ := mayUse_iff.1 huse
  obtain ⟨k, hk⟩ := Option.ne_none_iff_exists'.1 hheld
  have hbusy : ((s.setBuf b f).buf b).busy = true := by
    simpa [State.setBuf, hf.1] using (h.exclusive.key t b k hk).1
  rw [callBwrite, hbusy]
  simp only [if_true, Bool.not_true, Bool.false_eq_true, if_false]
  split
  · exact h.mayBrelse hcall huse hf.1
  · refine h.start (f := .writing b) (b := b) rfl hcall hheld hnot rfl (fun b' => ?_)
      (fun b' ha => ?_) (fun t' ht => ?_) ?_
    · simp only [State.setCalls, State.setBuf, Function.update_apply]
      split
      · subst_vars
        exact hf
      · exact ⟨rfl, rfl⟩
    · by_cases hne : b' = b
      · exact .inr ⟨hne, rfl⟩
      · left
        simpa [State.setCalls, State.setBuf, Function.update_of_ne hne] using ha
    · simp [State.setCalls, State.setBuf, Function.update_of_ne ht]
    · simp [State.setCalls]

/-- What the end of input or output does to the buffers. -/
theorem bufError_buf (s : State) (b : Nat) (error : Bool) (b' : Nat) :
    ((bufError s b error).buf b').busy = (s.buf b').busy ∧
      ((bufError s b error).buf b').key = (s.buf b').key ∧
      ((bufError s b error).buf b').async = (s.buf b').async ∧
      (b' ≠ b → (bufError s b error).buf b' = s.buf b') := by
  rw [bufError]
  split
  · simp only [State.toHead, State.setBuf, Function.update_apply]
    split
    · subst_vars
      exact ⟨rfl, rfl, rfl, fun hne => absurd rfl hne⟩
    · exact ⟨rfl, rfl, rfl, fun _ => rfl⟩
  · exact ⟨rfl, rfl, rfl, fun _ => rfl⟩

theorem bufError_calls (s : State) (b : Nat) (error : Bool) :
    (bufError s b error).calls = s.calls ∧ (bufError s b error).holds = s.holds := by
  rw [bufError]
  split
  · exact ⟨rfl, rfl⟩
  · exact ⟨rfl, rfl⟩

theorem bufDone_eq (bp : Buf) :
    (bufDone bp).busy = bp.busy ∧ (bufDone bp).key = bp.key ∧ (bufDone bp).async = bp.async := by
  rw [bufDone]
  split
  · exact ⟨rfl, rfl, rfl⟩
  · exact ⟨rfl, rfl, rfl⟩

theorem done_buf (s : State) (b : Nat) (error : Bool) (b' : Nat) :
    ((bufError (s.setBuf b bufDone) b error).buf b').busy = (s.buf b').busy ∧
      ((bufError (s.setBuf b bufDone) b error).buf b').key = (s.buf b').key ∧
      ((bufError (s.setBuf b bufDone) b error).buf b').async = (s.buf b').async ∧
      (b' ≠ b → (bufError (s.setBuf b bufDone) b error).buf b' = s.buf b') := by
  obtain ⟨h1, h2, h3, h4⟩ := bufError_buf (s.setBuf b bufDone) b error b'
  rw [h1, h2, h3]
  by_cases hne : b' = b
  · subst hne
    obtain ⟨g1, g2, g3⟩ := bufDone_eq (s.buf b')
    simp [State.setBuf, g1, g2, g3]
  · rw [h4 hne]
    simp [State.setBuf, Function.update_of_ne hne]

/-- The input or output of a task ends. -/
theorem OwnInv.done {error : Bool} (h : OwnInv s) (hs : step s (.done t error) = some s') :
    OwnInv s' := by
  rw [step] at hs
  split at hs
  · rename_i b frames hcalls
    rw [h.reading_sync hcalls] at hs
    cases hs
    obtain ⟨hc, hh⟩ := bufError_calls (s.setBuf b bufDone) b error
    refine h.read hcalls hh (fun b' => ?_) (fun t' ht => ?_) ?_
    · obtain ⟨h1, h2, h3, -⟩ := done_buf s b error b'
      exact ⟨h1, h2, h3⟩
    · simp only [State.setCalls, Function.update_of_ne ht]
      rw [hc]
      rfl
    · simp [State.setCalls]
  · rename_i b frames hcalls
    cases hs
    obtain ⟨hc, hh⟩ := bufError_calls (s.setBuf b bufDone) b error
    have hio := h.io t
    rw [hcalls, ioBufs_writing, List.nodup_cons] at hio
    have hst := h.stacked t
    rw [hcalls] at hst
    refine h.callBrelse hh hc (fun b' hne => (done_buf s b error b').2.2.2 hne)
      (done_buf s b error b).1 (hio.2 b List.mem_cons_self) ?_
      ⟨hio.1.2, fun b' hb' => ⟨?_, ?_⟩⟩ (fun b' hne hw => ?_) (hst.top _)
    · rw [hcalls]
      rfl
    · rintro rfl
      exact hio.1.1 hb'
    · rw [hcalls, ioBufs_writing]
      exact List.mem_cons_of_mem _ hb'
    · rw [hcalls] at hw
      obtain heq | hmem := List.mem_cons.1 hw
      · exact absurd (Frame.writing.inj heq) hne
      · exact hmem
  · simp at hs

/-- `buf_getblk` takes the buffer that it found. -/
theorem OwnInv.take (h : OwnInv s) (hgood : goodStep s (.take t) = true)
    (hs : step s (.take t) = some s') : OwnInv s' := by
  rw [step] at hs
  split at hs
  · rename_i b r frames hcalls
    simp only [goodStep, hcalls, Bool.and_eq_true, Bool.not_eq_true', beq_iff_eq] at hgood
    obtain ⟨hfree, hkey⟩ := hgood
    have hst := h.stacked t
    rw [hcalls] at hst
    simp only at hs
    split at hs
    · -- the size is not right, and the buffer is released again
      cases hs
      refine h.leave (t := t) (b := b) ⟨fun b' hne => ?_, fun t' ht => ?_, fun _ _ _ => rfl⟩ ?_
        (fun t' _ => (h.free hfree t').1) (fun t' => (h.free hfree t').2) (by rw [hcalls]; rfl)
        (h.free hfree t).1 ?_ ?_ (fun b' _ hw => ?_) ?_
      · simp [State.setCalls, State.setBuf, Function.update_of_ne hne]
      · simp [State.setCalls, State.setBuf, Function.update_of_ne ht]
      · simp [State.setCalls, State.setBuf]
      · simp [State.setCalls, leavingBuf]
      · have hio := h.io t
        rw [hcalls] at hio ⊢
        have heq : ((((s.setBuf b fun bp => { bp with busy := true, cache := true }).setBuf b
            fun bp => { bp with inval := true }).setCalls t
            (.brelse b (some r) :: frames)).calls t) = .brelse b (some r) :: frames := by
          simp [State.setCalls]
        rw [heq]
        refine ⟨hio.1, fun b' hb' => ⟨?_, hb'⟩⟩
        rintro rfl
        exact hio.2 b' hb' (h.free hfree t).1
      · rw [hcalls] at hw
        have hmem := writing_of_cons (f := .found b r) rfl hw
        simp [State.setCalls, hmem]
      · simpa [State.setCalls] using hst.top _
    · cases hs
      refine h.gain (b := b) (k := r.key) ⟨fun b' hne => ?_, fun t' ht => ?_, fun t' b' hne => ?_⟩
        hfree ?_ ?_ ?_ ?_ hcalls rfl rfl ?_
      · simp [State.setCalls, State.setHolds, State.setBuf, Function.update_of_ne hne]
      · simp [State.setCalls, State.setHolds, State.setBuf, Function.update_of_ne ht]
      · simp only [State.setCalls, State.setHolds, State.setBuf, Function.update_apply]
        split
        · subst_vars
          rw [Function.update_apply, if_neg fun hb => hne ⟨rfl, hb⟩]
        · rfl
      · simp [State.setCalls, State.setHolds, State.setBuf]
      · simpa [State.setCalls, State.setHolds, State.setBuf, Buf.key] using hkey
      · simp [State.setCalls, State.setHolds, State.setBuf]
      · simp [State.setCalls, State.setHolds, State.setBuf]
      · simp [State.setCalls]
  · simp at hs

/-- `buf_getblk` takes a buffer for a new block. -/
theorem OwnInv.new (h : OwnInv s) (hs : step s (.new t) = some s') : OwnInv s' := by
  rw [step] at hs
  split at hs
  · rename_i r frames hcalls
    have hst := h.stacked t
    rw [hcalls] at hst
    split at hs
    · cases hs
      refine h.frame (t := t) rfl (fun _ => ⟨rfl, rfl, rfl⟩) (fun t' ht => ?_) ?_ ?_ ?_
      · simp [State.setCalls, Function.update_of_ne ht]
      · simp [State.setCalls, hcalls, Frame.io]
      · simp [State.setCalls, hcalls, leavingBuf]
      · simpa [State.setCalls] using hst.top _
    · rename_i b hnew
      cases hs
      have hfree : (s.buf b).busy = false := by
        simpa using List.find?_some hnew
      refine h.gain (b := b) (k := r.key) ⟨fun b' hne => ?_, fun t' ht => ?_, fun t' b' hne => ?_⟩
        hfree ?_ ?_ ?_ ?_ hcalls rfl rfl ?_
      · simp [State.setCalls, State.setHolds, State.toHead, State.setBuf,
          Function.update_of_ne hne]
      · simp [State.setCalls, State.setHolds, State.toHead, State.setBuf,
          Function.update_of_ne ht]
      · simp only [State.setCalls, State.setHolds, State.toHead, State.setBuf,
          Function.update_apply]
        split
        · subst_vars
          rw [Function.update_apply, if_neg fun hb => hne ⟨rfl, hb⟩]
        · rfl
      · simp [State.setCalls, State.setHolds, State.toHead, State.setBuf, fresh]
      · simp [State.setCalls, State.setHolds, State.toHead, State.setBuf, fresh, Buf.key, Req.key]
      · simp [State.setCalls, State.setHolds, State.toHead, State.setBuf, fresh]
      · simp [State.setCalls, State.setHolds, State.toHead, State.setBuf]
      · simp [State.setCalls]
  · simp at hs

/-- What a task does in `buf_getblk` and `brelse` when it does not take or free a buffer. -/
theorem OwnInv.top {f : Frame} (h : OwnInv s) (hcalls : s.calls t = f :: frames) (f' : Frame)
    (b : Nat) (g : Buf → Buf) (hio : f.io = none ∧ f'.io = none)
    (hleaving : leavingBuf (f' :: frames) = leavingBuf (f :: frames))
    (hg : ∀ bp, (g bp).busy = bp.busy ∧ (g bp).key = bp.key ∧ (g bp).async = bp.async) :
    OwnInv ((s.setBuf b g).setCalls t (f' :: frames)) := by
  have hst := h.stacked t
  rw [hcalls] at hst
  refine h.frame (t := t) rfl (fun b' => ?_) (fun t' ht => ?_) ?_ ?_ ?_
  · simp only [State.setCalls, State.setBuf, Function.update_apply]
    split
    · subst_vars
      exact hg _
    · exact ⟨rfl, rfl, rfl⟩
  · simp [State.setCalls, State.setBuf, Function.update_of_ne ht]
  · simp [State.setCalls, hcalls, hio]
  · simpa [State.setCalls, hcalls] using hleaving
  · simpa [State.setCalls] using hst.top _

theorem State.setBuf_id (s : State) (b : Nat) : s.setBuf b id = s := by
  simp [State.setBuf]

theorem OwnInv.look (h : OwnInv s) (hs : step s (.look t) = some s') : OwnInv s' := by
  rw [step] at hs
  split at hs
  · rename_i r frames hcalls
    split at hs
    · cases hs
      have := h.top hcalls (.missing r) 0 id ⟨rfl, rfl⟩ rfl
        fun _ => ⟨rfl, rfl, rfl⟩
      rwa [State.setBuf_id] at this
    · rename_i b hfound
      split at hs
      · cases hs
        exact h.top hcalls (.waiting b r) b _ ⟨rfl, rfl⟩ rfl fun _ => ⟨rfl, rfl, rfl⟩
      · cases hs
        have := h.top hcalls (.found b r) 0 id ⟨rfl, rfl⟩ rfl
          fun _ => ⟨rfl, rfl, rfl⟩
        rwa [State.setBuf_id] at this
  · simp at hs

theorem OwnInv.wake (h : OwnInv s) (hs : step s (.wake t) = some s') : OwnInv s' := by
  rw [step] at hs
  split at hs
  · rename_i b r frames hcalls
    split at hs
    · cases hs
      exact h.top hcalls (.found b r) b _ ⟨rfl, rfl⟩ rfl fun _ => ⟨rfl, rfl, rfl⟩
    · simp at hs
  · simp at hs

theorem OwnInv.give (h : OwnInv s) (hs : step s (.give t) = some s') : OwnInv s' := by
  rw [step] at hs
  split at hs
  · rename_i b again frames hcalls
    cases hs
    refine h.top hcalls (.released b again) b _ ⟨rfl, rfl⟩ rfl fun bp => ?_
    split
    · exact ⟨rfl, rfl, rfl⟩
    · exact ⟨rfl, rfl, rfl⟩
  · simp at hs

/-- The second half of `brelse`. -/
theorem OwnInv.released (h : OwnInv s) (hs : step s (.unlock t) = some s') : OwnInv s' := by
  rw [step] at hs
  split at hs
  · rename_i b again frames hcalls
    have hst := h.stacked t
    rw [hcalls] at hst
    cases hs
    refine h.unlock (t := t) (b := b) (by rw [hcalls]; rfl) (fun b' hne => ?_)
      (fun t' ht => ?_) rfl ?_ ?_ ?_ ?_
    · simp [State.setCalls, State.setBuf, State.toHead, Function.update_of_ne hne]
    · simp [State.setCalls, State.setBuf, State.toHead, Function.update_of_ne ht]
    · simp [State.setCalls, State.setBuf, State.toHead]
    · cases again with
      | none => simpa [State.setCalls] using leavingBuf_tail hst
      | some r => simp [State.setCalls, leavingBuf]
    · cases again <;> simp [State.setCalls, hcalls, Frame.io]
    · cases again with
      | none => simpa [State.setCalls] using hst.tail
      | some r => simpa [State.setCalls] using hst.top _
  · simp at hs

/-- `bread` of a buffer that the task may use. -/
theorem OwnInv.bread (h : OwnInv s) (huse : mayUse s t b = true)
    (hs : step s (.bread t b) = some s') : OwnInv s' := by
  obtain ⟨hheld, hnot⟩ := mayUse_iff.1 huse
  rw [step] at hs
  split at hs
  · simp at hs
  · rename_i hcall
    split at hs
    · cases hs
      exact h
    · cases hs
      refine h.start (f := .reading b) (b := b) rfl (by simpa using hcall) hheld hnot rfl
        (fun b' => ?_) (fun b' ha => .inl ?_) (fun t' ht => ?_) ?_
      · simp only [State.setCalls, State.setBuf, Function.update_apply]
        split
        · subst_vars
          exact ⟨rfl, rfl⟩
        · exact ⟨rfl, rfl⟩
      · simp only [State.setCalls, State.setBuf, Function.update_apply] at ha
        split at ha
        · subst_vars
          exact ha
        · exact ha
      · simp [State.setCalls, State.setBuf, Function.update_of_ne ht]
      · simp [State.setCalls, State.setBuf]

/-- A good step keeps the invariant. -/
theorem step_inv {l : Label} (h : OwnInv s) (hgood : goodStep s l = true)
    (hs : step s l = some s') : OwnInv s' := by
  cases l with
  | bufGetblk t r =>
    obtain ⟨hcall, rfl⟩ := guard_some.1 hs
    refine h.frame (t := t) rfl (fun _ => ⟨rfl, rfl, rfl⟩) (fun t' ht => ?_) ?_ ?_ ?_
    · simp [State.setCalls, Function.update_of_ne ht]
    · simp [State.setCalls, Frame.io]
    · simp only [State.setCalls, Function.update_self, leavingBuf_canCall hcall]
      rfl
    · simpa [State.setCalls] using (h.stacked t).push hcall
  | bread t b => exact h.bread hgood hs
  | bwrite t b =>
    obtain ⟨hcall, rfl⟩ := guard_some.1 hs
    simp only [goodStep, Bool.or_eq_true, Bool.not_eq_true'] at hgood
    obtain hfree | huse := hgood
    · rw [callBwrite, hfree]
      simpa using h
    · have := h.mayBwrite (f := id) hcall huse ⟨rfl, rfl⟩
      rwa [State.setBuf_id] at this
  | bufStartwrite t b =>
    obtain ⟨hcall, rfl⟩ := guard_some.1 hs
    exact h.mayBwrite hcall hgood ⟨rfl, rfl⟩
  | brelse t b =>
    rw [step] at hs
    split at hs
    · simp at hs
    · rename_i hcall
      simp only [goodStep, Bool.or_eq_true, Bool.not_eq_true'] at hgood
      split at hs
      · rename_i hbusy
        cases hs
        obtain hfree | huse := hgood
        · simp [hfree] at hbusy
        · have := h.mayBrelse (f := id) (by simpa using hcall) huse rfl
          rwa [State.setBuf_id] at this
      · cases hs
        exact h
  | look t => exact h.look hs
  | wake t => exact h.wake hs
  | take t => exact h.take hgood hs
  | new t => exact h.new hs
  | done t error => exact h.done hs
  | give t => exact h.give hs
  | unlock t => exact h.released hs

theorem init_inv (nBufs bufSize : Nat) : OwnInv (init nBufs bufSize) := by
  refine ⟨⟨?_, ?_⟩, ?_, ?_, ?_, ?_⟩
  · simp [init]
  · simp [init]
  · simp [init, leavingBuf]
  · simp [init, ioBufs]
  · simp [init]
  · simp [init, Stacked]

/-- Block 5 of vnode 1. -/
def req5 : Req := ⟨1, 5, 512⟩

/-- A task waits for the buffer of another one, and gets it after the release. -/
def waitRun : List Label :=
  [.bufGetblk 0 req5, .look 0, .new 0, .bufGetblk 1 req5, .look 1, .brelse 0 1, .give 0, .unlock 0,
    .wake 1, .take 1, .bread 1 1]

end Vmx.Bio
