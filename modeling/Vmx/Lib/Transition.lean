/-!
# Runs of a labelled machine

A machine is a step function `σ → ℓ → Option σ`: the label says what happens,
and `none` says that the label cannot happen in that state.  `exec` runs a list
of labels.  The module has the rules that every run argument of the
development uses:

* `exec_invariant`: what one step keeps, a run keeps;
* `exec_invariant_of`: the same, for the runs whose steps all meet a condition
  on the state before the step and the label (`AllSteps`), and `exec_total_of` when such steps
  always happen;
* `exec_simulation_of`: when an abstract machine matches each step, it matches a run;
* `exec_append`: a run splits at any point.

Nothing here is about a particular machine.
-/

namespace Vmx.Lib

universe u v

variable {σ : Type u} {ℓ : Type v}

/-- Run the labels of a list in order.  The run fails as soon as a label cannot
happen. -/
def exec (step : σ → ℓ → Option σ) : σ → List ℓ → Option σ
  | s, [] => some s
  | s, l :: ls =>
    match step s l with
    | none => none
    | some s' => exec step s' ls

/-- Every step of the run meets `P`, a condition on the state before the step
and on its label. -/
def AllSteps (step : σ → ℓ → Option σ) (P : σ → ℓ → Prop) : σ → List ℓ → Prop
  | _, [] => True
  | s, l :: ls =>
    P s l ∧
      match step s l with
      | none => True
      | some s' => AllSteps step P s' ls

instance AllSteps.decidable (step : σ → ℓ → Option σ) (P : σ → ℓ → Prop)
    [∀ s l, Decidable (P s l)] : ∀ s ls, Decidable (AllSteps step P s ls)
  | _, [] => inferInstanceAs (Decidable True)
  | s, l :: ls =>
    match h : step s l with
    | none =>
      decidable_of_iff (P s l) (by rw [AllSteps, h]; exact (and_iff_left trivial).symm)
    | some s' =>
      have := AllSteps.decidable step P s' ls
      decidable_of_iff (P s l ∧ AllSteps step P s' ls) (by rw [AllSteps, h])

variable {step : σ → ℓ → Option σ} {P : σ → ℓ → Prop}

/-- A step with a guard. -/
theorem guard_some {c : Prop} [Decidable c] {s t : σ} :
    (if c then some s else none) = some t ↔ c ∧ s = t := by
  rw [Option.ite_none_right_eq_some, Option.some.injEq]

@[simp] theorem exec_nil (s : σ) : exec step s [] = some s := rfl

theorem exec_cons {s t : σ} {l : ℓ} {ls : List ℓ} :
    exec step s (l :: ls) = some t ↔
      ∃ s', step s l = some s' ∧ exec step s' ls = some t := by
  rw [exec]
  cases h : step s l <;> simp

/-- A run of two lists is a run of the first and then of the second. -/
theorem exec_append {s t : σ} {ls ms : List ℓ} :
    exec step s (ls ++ ms) = some t ↔
      ∃ s', exec step s ls = some s' ∧ exec step s' ms = some t := by
  induction ls generalizing s with
  | nil => simp
  | cons l ls ih =>
    simp only [List.cons_append, exec_cons, ih]
    constructor
    · rintro ⟨s', h1, s'', h2, h3⟩
      exact ⟨s'', ⟨s', h1, h2⟩, h3⟩
    · rintro ⟨s'', ⟨s', h1, h2⟩, h3⟩
      exact ⟨s', h1, s'', h2, h3⟩

theorem allSteps_cons {s s' : σ} {l : ℓ} {ls : List ℓ}
    (h : AllSteps step P s (l :: ls)) (hs : step s l = some s') :
    P s l ∧ AllSteps step P s' ls := by
  rw [AllSteps, hs] at h
  exact h

theorem allSteps_singleton {s : σ} {l : ℓ} : AllSteps step P s [l] ↔ P s l := by
  rw [AllSteps]
  cases step s l <;> exact and_iff_left trivial

/-- A weaker condition holds along the run as well. -/
theorem AllSteps.mono {Q : σ → ℓ → Prop} (hPQ : ∀ s l, P s l → Q s l) {s : σ}
    {ls : List ℓ} (h : AllSteps step P s ls) : AllSteps step Q s ls := by
  induction ls generalizing s with
  | nil => trivial
  | cons l ls ih =>
    rw [AllSteps] at h ⊢
    refine ⟨hPQ s l h.1, ?_⟩
    cases hs : step s l with
    | none => trivial
    | some s' =>
      rw [hs] at h
      exact ih h.2

/-- The invariant rule for the runs whose steps all meet `P`. -/
theorem exec_invariant_of {I : σ → Prop}
    (hstep : ∀ s l s', I s → P s l → step s l = some s' → I s') {s t : σ}
    {ls : List ℓ} (hinit : I s) (hall : AllSteps step P s ls)
    (hrun : exec step s ls = some t) : I t := by
  induction ls generalizing s with
  | nil =>
    obtain rfl : s = t := by simpa using hrun
    exact hinit
  | cons l ls ih =>
    obtain ⟨s', hs, hrest⟩ := exec_cons.1 hrun
    obtain ⟨hP, hall'⟩ := allSteps_cons hall hs
    exact ih (hstep s l s' hinit hP hs) hall' hrest

/-- Steps that meet `P` happen, and keep the invariant: the whole run happens. -/
theorem exec_total_of {I : σ → Prop}
    (hstep : ∀ s l, I s → P s l → ∃ s', step s l = some s' ∧ I s') {s : σ} {ls : List ℓ}
    (hinit : I s) (hall : AllSteps step P s ls) : ∃ t, exec step s ls = some t ∧ I t := by
  induction ls generalizing s with
  | nil => exact ⟨s, rfl, hinit⟩
  | cons l ls ih =>
    obtain ⟨s', hs, hinv⟩ := hstep s l hinit hall.1
    obtain ⟨t, hrun, ht⟩ := ih hinv (allSteps_cons hall hs).2
    exact ⟨t, exec_cons.2 ⟨s', hs, hrun⟩, ht⟩

/-- The invariant rule: what one step keeps, a run keeps. -/
theorem exec_invariant {I : σ → Prop}
    (hstep : ∀ s l s', I s → step s l = some s' → I s') {s t : σ}
    {ls : List ℓ} (hinit : I s) (hrun : exec step s ls = some t) : I t := by
  induction ls generalizing s with
  | nil =>
    obtain rfl : s = t := by simpa using hrun
    exact hinit
  | cons l ls ih =>
    obtain ⟨s', hs, hrest⟩ := exec_cons.1 hrun
    exact ih (hstep s l s' hinit hs) hrest

/-- The simulation rule for the runs whose steps all meet `P`: when each step is matched by a
step of an abstract machine with the same label, the run is matched by a run. -/
theorem exec_simulation_of {τ : Type u} {astep : τ → ℓ → Option τ} {R : σ → τ → Prop}
    (hstep : ∀ s a l s', R s a → P s l → step s l = some s' →
      ∃ a', astep a l = some a' ∧ R s' a') {s t : σ} {a : τ} {ls : List ℓ} (hinit : R s a)
    (hall : AllSteps step P s ls) (hrun : exec step s ls = some t) :
    ∃ b, exec astep a ls = some b ∧ R t b := by
  induction ls generalizing s a with
  | nil =>
    obtain rfl : s = t := by simpa using hrun
    exact ⟨a, rfl, hinit⟩
  | cons l ls ih =>
    obtain ⟨s', hs, hrest⟩ := exec_cons.1 hrun
    obtain ⟨hP, hall'⟩ := allSteps_cons hall hs
    obtain ⟨a', ha, hR⟩ := hstep s a l s' hinit hP hs
    obtain ⟨b, hb, hRb⟩ := ih hR hall' hrest
    exact ⟨b, exec_cons.2 ⟨a', ha, hb⟩, hRb⟩

end Vmx.Lib
