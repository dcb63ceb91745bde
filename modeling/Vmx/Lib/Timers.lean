import Mathlib.Data.List.Basic

/-!
# Histories of timers

A history, newest event first, records the announced ticks and the timers that
were started, cancelled and expired.  `due` reads off when a timer should
expire, and `OnTime` says that the history is one of exact timers: at every
announcement nothing is overdue, and whatever expires is due.

`OnTime.exact` and `OnTime.not_late` say what that means for a single timer,
whatever the other timers do in between.  A start with timeout 0 is not a timer.
-/

namespace Vmx.Lib

universe u

inductive TimerEvent (α : Type u) where
  | announce
  | start (n : α) (timeout : Nat)
  | cancel (n : α)
  | expire (n : α)
  deriving DecidableEq, Repr

variable {α : Type u}

/-- The number of announced ticks. -/
def announced : List (TimerEvent α) → Nat
  | [] => 0
  | .announce :: h => announced h + 1
  | .start _ _ :: h => announced h
  | .cancel _ :: h => announced h
  | .expire _ :: h => announced h

/-- The event is about the timer `n`. -/
def TimerEvent.About (n : α) : TimerEvent α → Prop
  | .announce => False
  | .start m _ => m = n
  | .cancel m => m = n
  | .expire m => m = n

theorem announced_append (es h : List (TimerEvent α)) :
    announced (es ++ h) = announced es + announced h := by
  induction es with
  | nil => simp [announced]
  | cons e es ih =>
    cases e with
    | announce =>
      simp only [List.cons_append, announced, ih]
      omega
    | start _ _ => simpa [announced] using ih
    | cancel _ => simpa [announced] using ih
    | expire _ => simpa [announced] using ih

variable [DecidableEq α]

/-- The announcement at which `n` should expire. -/
def due : List (TimerEvent α) → α → Option Nat
  | [], _ => none
  | .announce :: h, n => due h n
  | .start m timeout :: h, n =>
    if m = n then (if timeout = 0 then none else some (announced h + timeout)) else due h n
  | .cancel m :: h, n => if m = n then none else due h n
  | .expire m :: h, n => if m = n then none else due h n

/-- No timer is overdue. -/
def NoneOverdue (h : List (TimerEvent α)) : Prop := ∀ n d, due h n = some d → announced h < d

/-- At every announcement nothing is overdue, and every timer expires when it is
due. -/
def OnTime : List (TimerEvent α) → Prop
  | [] => True
  | .announce :: h => NoneOverdue h ∧ OnTime h
  | .start _ _ :: h => OnTime h
  | .cancel _ :: h => OnTime h
  | .expire n :: h => (∀ d, due h n = some d → d = announced h) ∧ OnTime h

theorem OnTime.tail {e : TimerEvent α} {h : List (TimerEvent α)} (ho : OnTime (e :: h)) :
    OnTime h := by
  cases e with
  | announce => exact ho.2
  | start _ _ => exact ho
  | cancel _ => exact ho
  | expire _ => exact ho.2

theorem OnTime.drop {es h : List (TimerEvent α)} (ho : OnTime (es ++ h)) : OnTime h := by
  induction es with
  | nil => exact ho
  | cons e es ih => exact ih ho.tail

/-- Events about other timers do not change when a timer is due. -/
theorem due_append {n : α} {es h : List (TimerEvent α)} (hes : ∀ e ∈ es, ¬ e.About n) :
    due (es ++ h) n = due h n := by
  induction es with
  | nil => rfl
  | cons e es ih =>
    have he := hes e List.mem_cons_self
    have ih := ih fun d hd => hes d (List.mem_cons_of_mem _ hd)
    cases e with
    | announce => exact ih
    | start m timeout =>
      have hne : ¬ m = n := he
      rw [List.cons_append, due, if_neg hne]
      exact ih
    | cancel m =>
      have hne : ¬ m = n := he
      rw [List.cons_append, due, if_neg hne]
      exact ih
    | expire m =>
      have hne : ¬ m = n := he
      rw [List.cons_append, due, if_neg hne]
      exact ih

theorem due_start {n : α} {timeout : Nat} (ht : 0 < timeout) {es h : List (TimerEvent α)}
    (hes : ∀ e ∈ es, ¬ e.About n) :
    due (es ++ .start n timeout :: h) n = some (announced h + timeout) := by
  rw [due_append hes, due, if_pos rfl, if_neg (by omega)]

/-- A timer that expires does so at the announcement that its timeout names. -/
theorem OnTime.exact {n : α} {timeout : Nat} (ht : 0 < timeout)
    {later es h : List (TimerEvent α)} (hes : ∀ e ∈ es, ¬ e.About n)
    (ho : OnTime (later ++ .expire n :: (es ++ .start n timeout :: h))) :
    announced es = timeout := by
  have hdue := ho.drop.1 _ (due_start ht hes)
  rw [announced_append] at hdue
  simp only [announced] at hdue
  omega

/-- A timer that has not expired and was not cancelled has not reached the
announcement that its timeout names. -/
theorem NoneOverdue.not_late {n : α} {timeout : Nat} (ht : 0 < timeout)
    {es h : List (TimerEvent α)} (hes : ∀ e ∈ es, ¬ e.About n)
    (ho : NoneOverdue (es ++ .start n timeout :: h)) : announced es < timeout := by
  have hlt := ho _ _ (due_start ht hes)
  rw [announced_append] at hlt
  simp only [announced] at hlt
  omega

end Vmx.Lib
