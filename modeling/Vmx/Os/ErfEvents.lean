import Vmx.Os.ErfLib
import Vmx.Lib.Transition

/-!
# Events are handled once, in order

While a task calls handlers it has the mutex, so only its own handlers change the lists: they put
entries at the head, before the entry that is current.  Only `erfHandler` takes one out, and it is
the last entry of the list that the event task walks through then.  So the entries from the current
one on are those of the list as it was when the event was taken up (`WalkOk`).

Numbers below zero pass the checks; `erf_run` is about runs without them.
-/

namespace Vmx.Erf

open Lib

variable {s s' : State} {f f' g : Frame} {rest : List Frame} {task : Nat} {category type : Int}
  {l : List ErfType} {hdl : ErfHdl}

/-! ## Lists of handlers -/

/-- The addresses of a list are told apart, and `erfHandler` comes last. -/
structure ListOk (category : Int) (nextAddr : Nat) (l : List ErfType) : Prop where
  nodup : (l.map ErfType.addr).Nodup
  lt : ∀ x ∈ l, x.addr < nextAddr
  last : l.Pairwise fun x _ => x.func ≠ .erfHandler
  own : ∀ x ∈ l, x.func = .erfHandler → category = erfEventCategory

theorem ListOk.cons {n : Nat} (h : ListOk category n l) (func u : Nat) :
    ListOk category (n + 1) (⟨n, .user func, u⟩ :: l) := by
  refine ⟨?_, ?_, ?_, ?_⟩
  · rw [List.map_cons, List.nodup_cons]
    refine ⟨fun hmem => ?_, h.nodup⟩
    obtain ⟨x, hx, heq⟩ := List.mem_map.1 hmem
    have hlt := h.lt x hx
    rw [heq] at hlt
    exact absurd hlt (Nat.lt_irrefl n)
  · intro x hx
    rcases List.mem_cons.1 hx with rfl | hx
    · exact Nat.lt_succ_self n
    · exact Nat.lt_succ_of_lt (h.lt x hx)
  · exact List.pairwise_cons.2 ⟨fun _ _ => by simp, h.last⟩
  · intro x hx hown
    rcases List.mem_cons.1 hx with rfl | hx
    · cases hown
    · exact h.own x hx hown

theorem ListOk.succ {n : Nat} (h : ListOk category n l) : ListOk category (n + 1) l :=
  ⟨h.nodup, fun x hx => Nat.lt_succ_of_lt (h.lt x hx), h.last, h.own⟩

theorem unregisterLoop_sublist (hdl : ErfHdl) (l : List ErfType) :
    (unregisterLoop hdl l).Sublist l := by
  induction l with
  | nil => exact List.Sublist.refl []
  | cons x l ih =>
    rw [unregisterLoop]
    split
    next => exact List.sublist_cons_self x l
    next => exact ih.cons_cons x

theorem ListOk.unregister {n : Nat} (h : ListOk category n l) (hdl : ErfHdl) :
    ListOk category n (unregisterLoop hdl l) := by
  have hsub := unregisterLoop_sublist hdl l
  exact ⟨h.nodup.sublist (hsub.map _), fun x hx => h.lt x (hsub.subset hx), h.last.sublist hsub,
    fun x hx => h.own x (hsub.subset hx)⟩

/-- A registration that is to be taken out. -/
def Matches (hdl : ErfHdl) (x : ErfType) : Prop :=
  x.func = .user hdl.func ∧ x.pUserData = hdl.pUserData

/-- One registration that matches is taken out, if there is one. -/
def Removes (hdl : ErfHdl) (l l' : List ErfType) : Prop :=
  (∃ pre x post, l = pre ++ x :: post ∧ Matches hdl x ∧ l' = pre ++ post) ∨
    (∀ x ∈ l, ¬ Matches hdl x) ∧ l' = l

theorem unregisterLoop_removes (hdl : ErfHdl) (l : List ErfType) :
    Removes hdl l (unregisterLoop hdl l) := by
  induction l with
  | nil => exact .inr ⟨fun x hx => (by cases hx), rfl⟩
  | cons x l ih =>
    rw [unregisterLoop]
    split
    next hmatch => exact .inl ⟨[], x, l, rfl, hmatch, rfl⟩
    next hmatch =>
      rcases ih with ⟨pre, y, post, rfl, hy, heq⟩ | ⟨hnone, heq⟩
      · refine .inl ⟨x :: pre, y, post, rfl, hy, ?_⟩
        rw [heq, List.cons_append]
      · refine .inr ⟨fun y hy => ?_, by rw [heq]⟩
        rcases List.mem_cons.1 hy with rfl | hy
        · exact hmatch
        · exact hnone y hy

/-- `erfHandler` itself stays at the end. -/
theorem unregisterLoop_concat (hdl : ErfHdl) (pre : List ErfType) {x : ErfType}
    (hx : x.func = .erfHandler) : ∃ pre', unregisterLoop hdl (pre ++ [x]) = pre' ++ [x] := by
  induction pre with
  | nil =>
    refine ⟨[], ?_⟩
    rw [List.nil_append, unregisterLoop, if_neg (by simp [hx])]
    rfl
  | cons y pre ih =>
    obtain ⟨pre', heq⟩ := ih
    rw [List.cons_append, unregisterLoop]
    split
    next => exact ⟨pre, rfl⟩
    next => exact ⟨y :: pre', by rw [heq, List.cons_append]⟩

theorem nextOf_eq {pre post : List ErfType} {x : ErfType}
    (h : ((pre ++ x :: post).map ErfType.addr).Nodup) :
    nextOf x.addr (pre ++ x :: post) = some (post.head?.map ErfType.addr) := by
  induction pre with
  | nil => exact if_pos rfl
  | cons y pre ih =>
    rw [List.cons_append, List.map_cons, List.nodup_cons] at h
    have hne : y.addr ≠ x.addr := by
      intro heq
      exact h.1 (List.mem_map.2 ⟨x, by simp, heq.symm⟩)
    rw [List.cons_append, nextOf, if_neg hne]
    exact ih h.2

theorem find_eq {pre post : List ErfType} {x : ErfType}
    (h : ((pre ++ x :: post).map ErfType.addr).Nodup) :
    ((pre ++ x :: post).find? fun y => y.addr = x.addr) = some x := by
  induction pre with
  | nil => exact List.find?_cons_of_pos (by simp)
  | cons y pre ih =>
    rw [List.cons_append, List.map_cons, List.nodup_cons] at h
    have hne : y.addr ≠ x.addr := by
      intro heq
      exact h.1 (List.mem_map.2 ⟨x, by simp, heq.symm⟩)
    rw [List.cons_append, List.find?_cons_of_neg (by simpa using hne)]
    exact ih h.2

/-! ## Frames -/

/-- What is done for an event in all. -/
def Frame.complete (f : Frame) : List Act :=
  f.handlers.map .called ++ if f.msg.hasFreeFunc then [.freed] else []

/-- The handlers that were called are those before the current one, and the list from that one on
is what is left of them. -/
def WalkOk (l : List ErfType) (f : Frame) : Prop :=
  match f.phase with
  | .received => f.log = []
  | .walk none => f.log = f.handlers.map .called
  | .walk (some addr) => ∃ pre called x post, l = pre ++ x :: post ∧ x.addr = addr ∧
      f.handlers = called ++ x :: post ∧ f.log = called.map .called
  | .called addr _ => ∃ pre called x post, l = pre ++ x :: post ∧ x.addr = addr ∧
      f.handlers = called ++ x :: post ∧ f.log = (called ++ [x]).map .called
  | .freeing => f.log = f.handlers.map .called ++ [.freed] ∧ f.msg.hasFreeFunc = true

theorem WalkOk.cons (h : WalkOk l f) (x : ErfType) : WalkOk (x :: l) f := by
  unfold WalkOk at h ⊢
  split at h
  next => exact h
  next => exact h
  next =>
    obtain ⟨pre, called, y, post, rfl, hy, hrest⟩ := h
    exact ⟨x :: pre, called, y, post, rfl, hy, hrest⟩
  next =>
    obtain ⟨pre, called, y, post, rfl, hy, hrest⟩ := h
    exact ⟨x :: pre, called, y, post, rfl, hy, hrest⟩
  next => exact h

/-- Without the mutex, the lists do not matter. -/
theorem WalkOk.of_unlocked {l' : List ErfType} (h : WalkOk l f) (hphase : f.phase.locked = false) :
    WalkOk l' f := by
  unfold WalkOk at h ⊢
  cases hp : f.phase with
  | received => rwa [hp] at h
  | walk erfType => simp [hp, Phase.locked] at hphase
  | called addr user => simp [hp, Phase.locked] at hphase
  | freeing => rwa [hp] at h

/-- What was done is the beginning of what is to be done. -/
theorem WalkOk.log_isPrefix (h : WalkOk l f) : f.log <+: f.complete := by
  unfold WalkOk at h
  unfold Frame.complete
  split at h
  next => rw [h]; exact List.nil_prefix
  next => rw [h]; exact List.prefix_append _ _
  next =>
    obtain ⟨pre, called, x, post, -, -, hhandlers, hlog⟩ := h
    rw [hlog, hhandlers, List.map_append, List.append_assoc]
    exact List.prefix_append _ _
  next =>
    obtain ⟨pre, called, x, post, -, -, hhandlers, hlog⟩ := h
    rw [hlog, hhandlers]
    exact ⟨post.map .called ++ if f.msg.hasFreeFunc then [.freed] else [], by simp⟩
  next => rw [h.1, h.2]; exact List.prefix_refl _

/-- The event task has one event from its queue, below those that its handlers raise. -/
def Shape (task : Nat) : List Frame → Prop
  | [] => True
  | f :: rest => if f.async then task = 0 ∧ rest = [] else Shape task rest

theorem Shape.replace (h : Shape task (f :: rest)) (hasync : f'.async = f.async) :
    Shape task (f' :: rest) := by
  unfold Shape at h ⊢
  rwa [hasync]

theorem Shape.pop (h : Shape task (f :: rest)) : Shape task rest := by
  unfold Shape at h
  split at h
  next =>
    rw [h.2]
    trivial
  next => exact h

theorem Shape.length_le (h : Shape task rest) : (rest.filter Frame.async).length ≤ 1 := by
  induction rest with
  | nil => exact Nat.zero_le 1
  | cons f rest ih =>
    unfold Shape at h
    split at h
    next hasync =>
      rw [List.filter_cons_of_pos hasync, h.2]
      exact Nat.le_refl 1
    next hasync =>
      rw [List.filter_cons_of_neg hasync]
      exact ih h

/-! ## The invariant -/

/-- Numbers within the table. -/
def Bound (cats types category type : Int) : Prop :=
  (0 ≤ category ∧ category < cats) ∧ 0 ≤ type ∧ type < types

/-- An event that can be handled: one of the library's own has the description of a handler. -/
structure MsgOk (cats types : Int) (msg : ErfMsg) : Prop where
  bound : Bound cats types msg.category msg.type
  own : msg.category = erfEventCategory →
    ∃ hdl, msg.pEventData = .hdl hdl ∧ Bound cats types hdl.category hdl.type

structure FrameOk (cats types : Int) (mutex : Option Nat) (table : Int → Int → List ErfType)
    (task : Nat) (f : Frame) : Prop where
  msg : MsgOk cats types f.msg
  sync : f.async = false → f.msg.category ≠ erfEventCategory
  locked : f.phase.locked = true → mutex = some task
  walk : WalkOk (table f.msg.category f.msg.type) f

/-- The events of the queue that a task handles. -/
def current (frames : List Frame) : List ErfMsg := (frames.filter Frame.async).map Frame.msg

structure Inv (s : State) : Prop where
  catUsed : s.erfCatUsed ≤ s.erfCategories
  typesUsed : ∀ category, 0 ≤ category → category < s.erfCategories →
    s.typesUsed category ≤ s.erfTypes
  lists : ∀ category type, Bound s.erfCategories s.erfTypes category type →
    ListOk category s.nextAddr (s.table category type)
  queue : ∀ msg ∈ s.erfMsgQ, MsgOk s.erfCategories s.erfTypes msg
  frames : ∀ task, ∀ f ∈ s.frames task,
    FrameOk s.erfCategories s.erfTypes s.erfMutex s.table task f
  shape : ∀ task, Shape task (s.frames task)
  accepted : s.accepted = s.handled.map Frame.msg ++ current (s.frames 0) ++ s.erfMsgQ
  handled : ∀ f ∈ s.handled, f.log = f.complete
  room : 1 ≤ s.erfCategories ∧ 2 ≤ s.erfTypes

theorem Inv.fail (h : Inv s) : Inv s.fail :=
  ⟨h.catUsed, h.typesUsed, h.lists, h.queue, h.frames, h.shape, h.accepted, h.handled, h.room⟩

theorem Inv.send (h : Inv s) {msg : ErfMsg} (hmsg : MsgOk s.erfCategories s.erfTypes msg) :
    Inv (s.send msg) := by
  unfold State.send
  split
  next =>
    refine ⟨h.catUsed, h.typesUsed, h.lists, fun m hm => ?_, h.frames, h.shape, ?_, h.handled,
      h.room⟩
    · rcases List.mem_append.1 hm with hm | hm
      · exact h.queue m hm
      · rw [List.mem_singleton.1 hm]
        exact hmsg
    · dsimp only
      rw [h.accepted, List.append_assoc]
  next => exact h.fail

theorem update_update (table : Int → Int → List ErfType) (category type : Int) (l : List ErfType)
    (c t : Int) :
    Function.update table category (Function.update (table category) type l) c t =
      if c = category ∧ t = type then l else table c t := by
  by_cases hc : c = category
  · subst hc
    rw [Function.update_self]
    by_cases ht : t = type
    · subst ht
      rw [Function.update_self, if_pos ⟨rfl, rfl⟩]
    · rw [Function.update_of_ne ht, if_neg fun h => ht h.2]
  · rw [Function.update_of_ne hc, if_neg fun h => hc h.1]

theorem Inv.insert (h : Inv s) (category type : Int) (func u : Nat) :
    Inv (s.insert category type (.user func) u) := by
  refine ⟨h.catUsed, h.typesUsed, fun c t hb => ?_, h.queue, fun j f hf => ?_, h.shape, h.accepted,
    h.handled, h.room⟩
  · simp only [State.insert, update_update]
    split
    next heq =>
      rw [← heq.1, ← heq.2]
      exact (h.lists c t hb).cons func u
    next => exact (h.lists c t hb).succ
  · obtain ⟨hmsg, hsync, hlocked, hwalk⟩ := h.frames j f hf
    refine ⟨hmsg, hsync, hlocked, ?_⟩
    simp only [State.insert, update_update]
    split
    next heq =>
      rw [← heq.1, ← heq.2]
      exact hwalk.cons _
    next => exact hwalk

/-- The frames of one task and the mutex change. -/
theorem Inv.update {mutex : Option Nat} {l handled : List Frame} (h : Inv s)
    (hothers : ∀ j, j ≠ task → ∀ g ∈ s.frames j, g.phase.locked = true → mutex = some j)
    (hl : ∀ g ∈ l, FrameOk s.erfCategories s.erfTypes mutex s.table task g)
    (hshape : Shape task l)
    (hcurrent : task = 0 → handled.map Frame.msg ++ current l =
      s.handled.map Frame.msg ++ current (s.frames 0))
    (hsame : task ≠ 0 → handled = s.handled) (hhandled : ∀ f ∈ handled, f.log = f.complete) :
    Inv { s with
      erfMutex := mutex, frames := Function.update s.frames task l, handled := handled } := by
  refine ⟨h.catUsed, h.typesUsed, h.lists, h.queue, fun j f hf => ?_, fun j => ?_, ?_, hhandled,
    h.room⟩
  · by_cases hj : j = task
    · subst hj
      dsimp only at hf
      rw [Function.update_self] at hf
      exact hl f hf
    · dsimp only at hf
      rw [Function.update_of_ne hj] at hf
      obtain ⟨hmsg, hsync, -, hwalk⟩ := h.frames j f hf
      exact ⟨hmsg, hsync, hothers j hj f hf, hwalk⟩
  · by_cases hj : j = task
    · subst hj
      dsimp only
      rwa [Function.update_self]
    · dsimp only
      rw [Function.update_of_ne hj]
      exact h.shape j
  · dsimp only
    rw [h.accepted]
    by_cases hzero : task = 0
    · subst hzero
      rw [Function.update_self, hcurrent rfl]
    · rw [Function.update_of_ne (Ne.symm hzero), hsame hzero]

/-! ## Steps -/

theorem canTake_others (h : Inv s) (hcan : s.canTake task) (j : Nat) :
    ∀ g ∈ s.frames j, g.phase.locked = true → some task = some j := by
  intro g hg hlocked
  have hmutex := (h.frames j g hg).locked hlocked
  rcases hcan with hcan | hcan
  · rw [hcan] at hmutex
    cases hmutex
  · exact hcan.symm.trans hmutex

/-- The handlers of an event are those of the list. -/
theorem walkOk_start (l : List ErfType) (f : Frame) (hlog : f.log = []) :
    WalkOk l { f with phase := .walk (l.head?.map ErfType.addr), handlers := l } := by
  cases l with
  | nil => exact hlog
  | cons x l => exact ⟨[], [], x, l, rfl, rfl, rfl, hlog⟩

/-- The frame of a task that has the mutex, taken or kept. -/
theorem FrameOk.lock (h : FrameOk s.erfCategories s.erfTypes s.erfMutex s.table task g) :
    FrameOk s.erfCategories s.erfTypes (some task) s.table task g :=
  ⟨h.msg, h.sync, fun _ => rfl, h.walk⟩

theorem current_cons_sync (hsync : f.async = false) : current (f :: rest) = current rest := by
  rw [current, List.filter_cons_of_neg (by simp [hsync])]
  rfl

theorem current_replace (hasync : f'.async = f.async) (hmsg : f'.msg = f.msg) :
    current (f' :: rest) = current (f :: rest) := by
  unfold current
  cases ha : f.async with
  | true => simp [ha, hasync, hmsg]
  | false => simp [ha, hasync]

/-- An event is taken up. -/
theorem Inv.received (h : Inv s) (hframes : s.frames task = f :: rest) (hlog : f.log = [])
    (hcan : s.canTake task) : Inv (s.takeUp task f rest) := by
  have hok := h.frames task f (by rw [hframes]; exact List.mem_cons_self)
  refine h.update (fun j _ => canTake_others h hcan j) (fun g hg => ?_) ?_ (fun hzero => ?_)
    (fun _ => rfl)
    h.handled
  · rcases List.mem_cons.1 hg with rfl | hg
    · exact ⟨hok.msg, hok.sync, fun _ => rfl, walkOk_start _ f hlog⟩
    · exact (h.frames task g (by rw [hframes]; exact List.mem_cons_of_mem _ hg)).lock
  · have hshape := h.shape task
    rw [hframes] at hshape
    exact hshape.replace rfl
  · subst hzero
    rw [hframes]
    exact congrArg _ (current_replace rfl rfl)

/-- An event is raised and handled by its task. -/
theorem Inv.raised (h : Inv s) {msg : ErfMsg} (hmsg : MsgOk s.erfCategories s.erfTypes msg)
    (hown : msg.category ≠ erfEventCategory) (hcan : s.canTake task) :
    Inv (s.takeUp task { msg := msg, async := false, phase := .received } (s.frames task)) := by
  refine h.update (fun j _ => canTake_others h hcan j) (fun g hg => ?_) ?_ (fun hzero => ?_)
    (fun _ => rfl)
    h.handled
  · rcases List.mem_cons.1 hg with rfl | hg
    · exact ⟨hmsg, fun _ => hown, fun _ => rfl, walkOk_start _ _ rfl⟩
    · exact (h.frames task g hg).lock
  · exact h.shape task
  · subst hzero
    rw [current_cons_sync rfl]

/-- The frame on top goes on. -/
theorem Inv.setTop {mutex : Option Nat} (h : Inv s) (hframes : s.frames task = f :: rest)
    (hothers : ∀ j, j ≠ task → ∀ g ∈ s.frames j, g.phase.locked = true → mutex = some j)
    (hrest : ∀ g ∈ rest, g.phase.locked = true → mutex = some task) (hmsg : f'.msg = f.msg)
    (hasync : f'.async = f.async) (hlocked : f'.phase.locked = true → mutex = some task)
    (hwalk : WalkOk (s.table f.msg.category f.msg.type) f') :
    Inv (State.setTop { s with erfMutex := mutex } task f' rest) := by
  have hok := h.frames task f (by rw [hframes]; exact List.mem_cons_self)
  refine h.update hothers (fun g hg => ?_) ?_ (fun hzero => ?_) (fun _ => rfl) h.handled
  · rcases List.mem_cons.1 hg with rfl | hg
    · refine ⟨?_, ?_, hlocked, ?_⟩
      · rw [hmsg]
        exact hok.msg
      · rw [hmsg, hasync]
        exact hok.sync
      · rw [hmsg]
        exact hwalk
    · have hok := h.frames task g (by rw [hframes]; exact List.mem_cons_of_mem _ hg)
      exact ⟨hok.msg, hok.sync, hrest g hg, hok.walk⟩
  · have hshape := h.shape task
    rw [hframes] at hshape
    exact hshape.replace hasync
  · subst hzero
    rw [hframes, current_replace hasync hmsg]

/-- An event is over. -/
theorem Inv.finish {mutex : Option Nat} (h : Inv s) (hframes : s.frames task = f :: rest)
    (hothers : ∀ j, j ≠ task → ∀ g ∈ s.frames j, g.phase.locked = true → mutex = some j)
    (hrest : ∀ g ∈ rest, g.phase.locked = true → mutex = some task) (hlog : f.log = f.complete) :
    Inv (State.finish { s with erfMutex := mutex } task f rest) := by
  have hshape := h.shape task
  rw [hframes] at hshape
  refine h.update hothers (fun g hg => ?_) hshape.pop (fun hzero => ?_) (fun hne => ?_) ?_
  · have hok := h.frames task g (by rw [hframes]; exact List.mem_cons_of_mem _ hg)
    exact ⟨hok.msg, hok.sync, hrest g hg, hok.walk⟩
  · subst hzero
    rw [hframes]
    cases hasync : f.async with
    | true =>
      unfold Shape at hshape
      rw [if_pos hasync] at hshape
      rw [hshape.2]
      simp [current, hasync]
    | false => simp [current_cons_sync hasync]
  · unfold Shape at hshape
    split at hshape
    next => exact absurd hshape.1 hne
    next hasync => exact if_neg hasync
  · intro g hg
    dsimp only at hg
    split at hg
    next =>
      rcases List.mem_append.1 hg with hg | hg
      · exact h.handled g hg
      · rw [List.mem_singleton.1 hg]
        exact hlog
    next => exact h.handled g hg

/-- The other tasks do not have the mutex. -/
theorem Inv.others (h : Inv s) (hmutex : s.erfMutex = some task) (mutex : Option Nat) (j : Nat)
    (hj : j ≠ task) : ∀ g ∈ s.frames j, g.phase.locked = true → mutex = some j := by
  intro g hg hlocked
  have hj' := (h.frames j g hg).locked hlocked
  rw [hmutex] at hj'
  exact absurd (Option.some.inj hj').symm hj

/-- `erfHandler` takes a registration out of a list, while the event task has the event on top. -/
theorem Inv.unregister (h : Inv s) (hframes : s.frames task = [f]) (hmutex : s.erfMutex = some task)
    (hdl : ErfHdl) (hwalk : ∀ l', l' = (if f.msg.category = hdl.category ∧ f.msg.type = hdl.type then
        unregisterLoop hdl (s.table hdl.category hdl.type) else s.table f.msg.category f.msg.type) →
      WalkOk l' f) :
    Inv { s with
      table := Function.update s.table hdl.category (Function.update (s.table hdl.category) hdl.type
        (unregisterLoop hdl (s.table hdl.category hdl.type))) } := by
  refine ⟨h.catUsed, h.typesUsed, fun c t hb => ?_, h.queue, fun j g hg => ?_, h.shape, h.accepted,
    h.handled, h.room⟩
  · simp only [update_update]
    split
    next heq =>
      rw [← heq.1, ← heq.2]
      exact (h.lists c t hb).unregister hdl
    next => exact h.lists c t hb
  · obtain ⟨hmsg, hsync, hlocked, hw⟩ := h.frames j g hg
    refine ⟨hmsg, hsync, hlocked, ?_⟩
    by_cases hj : j = task
    · subst hj
      dsimp only at hg
      rw [hframes, List.mem_singleton] at hg
      subst hg
      exact hwalk _ (update_update ..)
    · refine hw.of_unlocked ?_
      by_contra hlock
      have hmine := h.others hmutex none j hj g hg (by simpa using hlock)
      cases hmine

/-! ## A handler is called -/

variable {addr : Nat} {x : ErfType} {malloc : Bool}

/-- The current handler is called; the list may have changed before that. -/
theorem WalkOk.call {l' : List ErfType} (h : WalkOk l f) (h' : WalkOk l' f)
    (hphase : f.phase = .walk (some addr)) (hnodup : (l.map ErfType.addr).Nodup)
    (hfind : (l.find? fun y => y.addr = addr) = some x) (user : Bool) :
    WalkOk l' { f with phase := .called addr user, log := f.log ++ [.called x] } := by
  unfold WalkOk at h h' ⊢
  rw [hphase] at h h'
  obtain ⟨pre, called, y, post, rfl, rfl, hhandlers, hlog⟩ := h
  obtain ⟨pre', called', y', post', rfl, haddr, hhandlers', hlog'⟩ := h'
  rw [find_eq hnodup] at hfind
  obtain rfl := Option.some.inj hfind
  have hcalled : called = called' := by
    apply List.map_injective_iff.2 (fun _ _ heq => Act.called.inj heq)
    exact hlog.symm.trans hlog'
  subst hcalled
  have htail := List.append_cancel_left (hhandlers.symm.trans hhandlers')
  obtain ⟨rfl, rfl⟩ := List.cons.inj htail
  refine ⟨pre', called, y, post, rfl, rfl, hhandlers, ?_⟩
  dsimp only
  rw [hlog, List.map_append]
  rfl

/-- The current handler is in the list. -/
theorem WalkOk.find (h : WalkOk l f) (hphase : f.phase = .walk (some addr))
    (hnodup : (l.map ErfType.addr).Nodup) :
    ∃ x, (l.find? fun y => y.addr = addr) = some x := by
  unfold WalkOk at h
  rw [hphase] at h
  obtain ⟨pre, called, y, post, rfl, rfl, -⟩ := h
  exact ⟨y, find_eq hnodup⟩

/-- The next handler is known after the current one returns. -/
theorem WalkOk.return {user : Bool} (h : WalkOk l f) (hphase : f.phase = .called addr user)
    (hnodup : (l.map ErfType.addr).Nodup) :
    ∃ next, nextOf addr l = some next ∧ WalkOk l { f with phase := .walk next } := by
  unfold WalkOk at h ⊢
  rw [hphase] at h
  obtain ⟨pre, called, y, post, rfl, rfl, hhandlers, hlog⟩ := h
  refine ⟨_, nextOf_eq hnodup, ?_⟩
  cases post with
  | nil =>
    dsimp only
    rw [hlog, hhandlers]
    rfl
  | cons z post =>
    refine ⟨pre ++ [y], called ++ [y], z, post, ?_, rfl, ?_, hlog⟩
    · simp
    · dsimp only
      rw [hhandlers]
      simp

/-- The event task has nothing else to do when it handles an event of the library's own. -/
theorem Inv.own (h : Inv s) (hframes : s.frames task = f :: rest)
    (hown : f.msg.category = erfEventCategory) : rest = [] := by
  have hok := h.frames task f (by rw [hframes]; exact List.mem_cons_self)
  have hshape := h.shape task
  rw [hframes, Shape, if_pos ?_] at hshape
  · exact hshape.2
  · by_contra hasync
    exact hok.sync (by simpa using hasync) hown

/-- What `erfHandler` does to the lists. -/
theorem Inv.erfHandler (h : Inv s) (hframes : s.frames task = f :: rest)
    (hphase : f.phase = .walk (some addr))
    (hfind : ((s.table f.msg.category f.msg.type).find? fun y => y.addr = addr) = some x)
    (hx : x.func = .erfHandler) :
    ∃ t, erfHandler s f.msg malloc = some t ∧ Inv t ∧ t.frames = s.frames ∧
      t.erfMutex = s.erfMutex := by
  have hok := h.frames task f (by rw [hframes]; exact List.mem_cons_self)
  have hlist := h.lists _ _ hok.msg.bound
  have hmem : x ∈ s.table f.msg.category f.msg.type := List.mem_of_find?_eq_some hfind
  have hown := hlist.own x hmem hx
  obtain ⟨hdl, hdata, hbound⟩ := hok.msg.own hown
  unfold Erf.erfHandler
  rw [if_neg (not_not_intro hown), hdata]
  dsimp only
  split
  next =>
    split
    next => exact ⟨_, rfl, h.insert _ _ _ _, rfl, rfl⟩
    next => exact ⟨_, rfl, h, rfl, rfl⟩
  next =>
    split
    next =>
      refine ⟨_, rfl, ?_, rfl, rfl⟩
      have hmutex : s.erfMutex = some task := hok.locked (by rw [hphase]; rfl)
      have hone : s.frames task = [f] := by rw [hframes, h.own hframes hown]
      refine h.unregister hone hmutex hdl (fun l' hl' => ?_)
      subst hl'
      split
      next heq =>
        -- the entry of `erfHandler` is the last one, and stays
        have hwalk := hok.walk
        unfold WalkOk at hwalk ⊢
        rw [hphase] at hwalk ⊢
        obtain ⟨pre, called, y, post, hsplit, rfl, hhandlers, hlog⟩ := hwalk
        have hnodup := hlist.nodup
        have hlast := hlist.last
        rw [hsplit] at hfind hnodup hlast
        rw [find_eq hnodup] at hfind
        obtain rfl := Option.some.inj hfind
        have hpost : post = [] := by
          cases post with
          | nil => rfl
          | cons z post =>
            have hpair := (List.pairwise_append.1 hlast).2.1
            exact absurd hx ((List.pairwise_cons.1 hpair).1 z List.mem_cons_self)
        subst hpost
        obtain ⟨pre', heq'⟩ := unregisterLoop_concat hdl pre hx
        rw [heq.1, heq.2] at hsplit
        rw [hsplit, heq']
        exact ⟨pre', called, y, [], rfl, rfl, hhandlers, hlog⟩
      next => exact hok.walk
    next => exact ⟨_, rfl, h, rfl, rfl⟩

/-- A task that has an event, and is not waiting for the mutex, goes on. -/
theorem Inv.goOn (h : Inv s) (hframes : s.frames task = f :: rest) (malloc : Bool) :
    (f.phase = .received → s.canTake task) → ∃ t, goOn s task malloc = some t ∧ Inv t := by
  intro hcan
  have hok := h.frames task f (by rw [hframes]; exact List.mem_cons_self)
  have hlist := h.lists _ _ hok.msg.bound
  have hlower : ∀ g ∈ rest, g.phase.locked = true → s.erfMutex = some task := fun g hg =>
    (h.frames task g (by rw [hframes]; exact List.mem_cons_of_mem _ hg)).locked
  have hkeep : ∀ j, j ≠ task → ∀ g ∈ s.frames j, g.phase.locked = true → s.erfMutex = some j :=
    fun j _ g hg => (h.frames j g hg).locked
  unfold Erf.goOn
  rw [hframes]
  dsimp only
  have hwalk := hok.walk
  cases hphase : f.phase with
  | received =>
    have hlog : f.log = [] := by
      unfold WalkOk at hwalk
      rwa [hphase] at hwalk
    dsimp only
    rw [if_pos (hcan hphase)]
    exact ⟨_, rfl, h.received hframes hlog (hcan hphase)⟩
  | walk erfType =>
    have hmutex : s.erfMutex = some task := hok.locked (by rw [hphase]; rfl)
    cases erfType with
    | none =>
      have hlog : f.log = f.handlers.map .called := by
        unfold WalkOk at hwalk
        rwa [hphase] at hwalk
      have hrest : ∀ g ∈ rest, g.phase.locked = true →
          (if rest.any fun f => f.phase.locked then some task else none) = some task := by
        intro g hg hlocked
        exact if_pos (List.any_eq_true.2 ⟨g, hg, hlocked⟩)
      dsimp only
      split
      next hfree =>
        refine ⟨_, rfl, h.setTop hframes (h.others hmutex _) hrest rfl rfl
          (fun hl => (by cases hl)) ⟨?_, hfree⟩⟩
        dsimp only
        rw [hlog]
      next hfree =>
        refine ⟨_, rfl, h.finish hframes (h.others hmutex _) hrest ?_⟩
        rw [hlog, Frame.complete, if_neg hfree, List.append_nil]
    | some addr =>
      obtain ⟨x, hfind⟩ := hwalk.find hphase hlist.nodup
      dsimp only
      rw [hfind, Option.bind_some]
      split
      next =>
        have hcall := hwalk.call hwalk hphase hlist.nodup hfind (decide (x.func ≠ .erfHandler))
        exact ⟨_, rfl, h.setTop hframes hkeep hlower rfl rfl (fun _ => hmutex) hcall⟩
      next hown =>
        have hx : x.func = .erfHandler := by simpa using hown
        have hhandled : ∃ t, Erf.erfHandler s f.msg malloc = some t ∧ Inv t ∧ t.frames = s.frames ∧
            t.erfMutex = s.erfMutex := h.erfHandler hframes hphase hfind hx
        obtain ⟨t, ht, hinv, hsame, hmutex'⟩ := hhandled
        have hframes' : t.frames task = f :: rest := by rw [hsame, hframes]
        have hok' := hinv.frames task f (by rw [hframes']; exact List.mem_cons_self)
        have hcall := hwalk.call hok'.walk hphase hlist.nodup hfind (decide (x.func ≠ .erfHandler))
        rw [ht]
        refine ⟨_, rfl, hinv.setTop hframes' (fun j _ g hg => (hinv.frames j g hg).locked) ?_ rfl rfl
          (fun _ => hmutex'.trans hmutex) hcall⟩
        intro g hg hlocked
        rw [hmutex']
        exact hlower g hg hlocked
  | called addr user =>
    obtain ⟨next, hnext, hwalk'⟩ := hwalk.return hphase hlist.nodup
    have hmutex : s.erfMutex = some task := hok.locked (by rw [hphase]; rfl)
    dsimp only
    rw [hnext]
    exact ⟨_, rfl, h.setTop hframes hkeep hlower rfl rfl (fun _ => hmutex) hwalk'⟩
  | freeing =>
    unfold WalkOk at hwalk
    rw [hphase] at hwalk
    refine ⟨_, rfl, h.finish hframes hkeep hlower ?_⟩
    rw [hwalk.1, Frame.complete, if_pos hwalk.2]

/-! ## Calls -/

variable {op : Op}

/-- Numbers are not negative, and an event of the library's own is raised by the library. -/
def Op.sound : Op → Bool
  | .typeAllocate _ category _ => 0 ≤ category
  | .register _ category type _ _ _ _ | .unregister _ category type _ _ _ =>
    decide (0 ≤ category) && decide (0 ≤ type)
  | .raise _ category type _ _ _ =>
    decide (0 ≤ category) && decide (0 ≤ type) && category != erfEventCategory
  | _ => true

theorem Inv.bound (h : Inv s) (hc : 0 ≤ category) (ht : 0 ≤ type)
    (href : ¬ s.refuses category type) : Bound s.erfCategories s.erfTypes category type := by
  obtain ⟨hcat, htype⟩ := not_or.1 href
  have hused := h.catUsed
  have hlt : category < s.erfCategories := by omega
  have htypes := h.typesUsed category hc hlt
  exact ⟨⟨hc, hlt⟩, ht, by omega⟩

/-- The message of a registration, or of its end. -/
theorem msgOk_own (hb : Bound s.erfCategories s.erfTypes category type) (t : Int)
    (ht : t = erfEventHandlerRegister ∨ t = erfEventHandlerUnregister)
    (hroom : 1 ≤ s.erfCategories ∧ 2 ≤ s.erfTypes) (func u : Nat) :
    MsgOk s.erfCategories s.erfTypes
      { category := erfEventCategory, type := t, hasFreeFunc := true
        pEventData := .hdl { category := category, type := type, func := func, pUserData := u } } := by
  refine ⟨?_, fun _ => ⟨_, rfl, hb⟩⟩
  unfold erfEventHandlerRegister erfEventHandlerUnregister at ht
  unfold Bound erfEventCategory
  dsimp only
  omega

theorem Inv.step (h : Inv s) (hsound : op.sound = true) (hs : step s op = some s') : Inv s' := by
  unfold Erf.step at hs
  rw [Option.ite_none_right_eq_some] at hs
  replace hs := hs.2
  cases op with
  | categoryAllocate task null =>
    simp only [erfCategoryAllocate] at hs
    split at hs
    · cases hs
      exact h.fail
    rw [Option.ite_none_right_eq_some] at hs
    replace hs := hs.2
    split at hs
    next =>
      cases hs
      exact h.fail
    next hne =>
      cases hs
      have hle := h.catUsed
      refine ⟨?_, h.typesUsed, h.lists, h.queue, h.frames, h.shape, h.accepted, h.handled, h.room⟩
      dsimp only
      omega
  | typeAllocate task category null =>
    simp only [erfTypeAllocate] at hs
    split at hs
    · cases hs
      exact h.fail
    rw [Option.ite_none_right_eq_some] at hs
    replace hs := hs.2
    split at hs
    next =>
      cases hs
      exact h.fail
    next hne =>
      cases hs
      refine ⟨h.catUsed, fun c hc hlt => ?_, h.lists, h.queue, h.frames, h.shape, h.accepted,
        h.handled, h.room⟩
      have hle := h.typesUsed c hc hlt
      dsimp only
      by_cases heq : c = category
      · subst heq
        rw [Function.update_self]
        omega
      · rw [Function.update_of_ne heq]
        exact hle
  | register task category type func u flags malloc =>
    simp only [Op.sound, Bool.and_eq_true, decide_eq_true_eq] at hsound
    simp only [erfHandlerRegister] at hs
    split at hs
    · cases hs
      exact h.fail
    split at hs
    · cases hs
      exact h.fail
    next href =>
      split at hs
      · cases hs
        exact h.fail
      split at hs
      · rw [Option.ite_none_right_eq_some] at hs
        obtain rfl := Option.some.inj hs.2
        have hins := h.insert category type ‹_› u
        exact ⟨hins.catUsed, hins.typesUsed, hins.lists, hins.queue, hins.frames, hins.shape,
          hins.accepted, hins.handled, hins.room⟩
      · cases hs
        exact h.send (msgOk_own (h.bound hsound.1 hsound.2 href) _ (.inl rfl) h.room _ _)
  | unregister task category type func u malloc =>
    simp only [Op.sound, Bool.and_eq_true, decide_eq_true_eq] at hsound
    cases hs
    unfold erfHandlerUnregister
    split
    · exact h.fail
    next href =>
      split
      · exact h.fail
      · exact h.send (msgOk_own (h.bound hsound.1 hsound.2 href) _ (.inr rfl) h.room _ _)
  | raise task category type async data hasFreeFunc =>
    simp only [Op.sound, Bool.and_eq_true, decide_eq_true_eq, bne_iff_ne] at hsound
    simp only [erfEventRaise] at hs
    split at hs
    · cases hs
      exact h.fail
    next href =>
      have hmsg : MsgOk s.erfCategories s.erfTypes
          { category := category, type := type, hasFreeFunc := hasFreeFunc
            pEventData := .user data } :=
        ⟨h.bound hsound.1.1 hsound.1.2 href, fun hown => absurd hown hsound.2⟩
      split at hs
      · cases hs
        exact h.send hmsg
      · rw [Option.ite_none_right_eq_some] at hs
        obtain rfl := Option.some.inj hs.2
        exact h.raised hmsg hsound.2 hs.1
  | receive =>
    simp only [erfTaskReceive] at hs
    split at hs
    next msg queue hframes hqueue =>
      cases hs
      refine ⟨h.catUsed, h.typesUsed, h.lists, fun m hm => ?_, fun j f hf => ?_, fun j => ?_, ?_,
        h.handled, h.room⟩
      · exact h.queue m (by rw [hqueue]; exact List.mem_cons_of_mem _ hm)
      · by_cases hj : j = 0
        · subst hj
          simp only [Function.update_self, List.mem_singleton] at hf
          subst hf
          exact ⟨h.queue msg (by rw [hqueue]; exact List.mem_cons_self),
            fun hsync => (by cases hsync), fun hlocked => (by cases hlocked), rfl⟩
        · simp only [Function.update_of_ne hj] at hf
          exact h.frames j f hf
      · by_cases hj : j = 0
        · subst hj
          simp [Shape]
        · simp only [Function.update_of_ne hj]
          exact h.shape j
      · have hacc := h.accepted
        rw [hframes, hqueue] at hacc
        simpa [current] using hacc
    next => cases hs
  | goOn task malloc =>
    cases hframes : s.frames task with
    | nil => simp [Erf.goOn, hframes] at hs
    | cons f rest =>
      have hcan : f.phase = .received → s.canTake task := by
        intro hphase
        simp only [Erf.goOn, hframes, hphase] at hs
        rw [Option.ite_none_right_eq_some] at hs
        exact hs.1
      obtain ⟨t, ht, hinv⟩ := h.goOn hframes malloc hcan
      obtain rfl := Option.some.inj (ht.symm.trans hs)
      exact hinv

/-! ## Refused numbers, and the lists -/

/-- A number is outside of the allocated range. -/
def Outside (s : State) : Op → Prop
  | .typeAllocate _ category _ => ¬ (0 ≤ category ∧ category < s.erfCatUsed)
  | .register _ category type _ _ _ _ | .unregister _ category type _ _ _
  | .raise _ category type _ _ _ =>
    ¬ ((0 ≤ category ∧ category < s.erfCatUsed) ∧ 0 ≤ type ∧ type < s.typesUsed category)
  | _ => False

theorem refuses_of_outside (hc : 0 ≤ category) (ht : 0 ≤ type)
    (h : ¬ ((0 ≤ category ∧ category < s.erfCatUsed) ∧ 0 ≤ type ∧ type < s.typesUsed category)) :
    s.refuses category type := by
  unfold State.refuses
  omega

theorem step_refused (hsound : op.sound = true) (hout : Outside s op)
    (hs : step s op = some s') : s' = s.fail := by
  unfold Erf.step at hs
  rw [Option.ite_none_right_eq_some] at hs
  replace hs := hs.2
  cases op with
  | categoryAllocate => exact hout.elim
  | typeAllocate task category null =>
    have hc : 0 ≤ category := by simpa [Op.sound] using hsound
    unfold Outside at hout
    have hge : category ≥ s.erfCatUsed ∨ null = true := by omega
    simp only [erfTypeAllocate] at hs
    rw [if_pos hge] at hs
    exact (Option.some.inj hs).symm
  | register task category type func u flags malloc =>
    simp only [Op.sound, Bool.and_eq_true, decide_eq_true_eq] at hsound
    have href := refuses_of_outside hsound.1 hsound.2 hout
    simp only [erfHandlerRegister] at hs
    split at hs
    · exact (Option.some.inj hs).symm
    · rw [if_pos href] at hs
      exact (Option.some.inj hs).symm
  | unregister task category type func u malloc =>
    simp only [Op.sound, Bool.and_eq_true, decide_eq_true_eq] at hsound
    have href := refuses_of_outside hsound.1 hsound.2 hout
    simp only [erfHandlerUnregister] at hs
    rw [if_pos href] at hs
    exact (Option.some.inj hs).symm
  | raise task category type async data hasFreeFunc =>
    simp only [Op.sound, Bool.and_eq_true, decide_eq_true_eq] at hsound
    have href := refuses_of_outside hsound.1.1 hsound.1.2 hout
    simp only [erfEventRaise] at hs
    rw [if_pos href] at hs
    exact (Option.some.inj hs).symm
  | receive => exact hout.elim
  | goOn => exact hout.elim

/-- The event task is about to call `erfHandler` for the end of a registration. -/
def Unregistering (s : State) (hdl : ErfHdl) : Op → Prop
  | .goOn task _ => ∃ f rest addr x, s.frames task = f :: rest ∧ f.phase = .walk (some addr) ∧
      ((s.table f.msg.category f.msg.type).find? fun y => y.addr = addr) = some x ∧
      x.func = .erfHandler ∧ f.msg.category = erfEventCategory ∧
      f.msg.type = erfEventHandlerUnregister ∧ f.msg.pEventData = .hdl hdl
  | _ => False

theorem insert_table (category type : Int) (func : Func) (u : Nat) (c t : Int) :
    s.table c t <:+ (s.insert category type func u).table c t := by
  simp only [State.insert, update_update]
  split
  next heq =>
    rw [heq.1, heq.2]
    exact List.suffix_cons _ _
  next => exact List.suffix_refl _

theorem suffix_of_table (h : s'.table = s.table) (c t : Int) : s.table c t <:+ s'.table c t :=
  h ▸ List.suffix_refl _

theorem send_table (msg : ErfMsg) : (s.send msg).table = s.table := by
  unfold State.send
  split
  next => rfl
  next => rfl

theorem erfHandler_table {msg : ErfMsg} {t : State} (ht : erfHandler s msg malloc = some t) :
    (∀ c u, s.table c u <:+ t.table c u) ∨
      ∃ hdl, msg.category = erfEventCategory ∧ msg.type = erfEventHandlerUnregister ∧
        msg.pEventData = .hdl hdl := by
  unfold Erf.erfHandler at ht
  split at ht
  · cases ht
    exact .inl fun c u => List.suffix_refl _
  next hown =>
    split at ht
    · cases ht
    next hdl hdata =>
      split at ht
      · left
        split at ht
        · cases ht
          exact fun c u => insert_table _ _ _ _ c u
        · cases ht
          exact fun c u => List.suffix_refl _
      · split at ht
        next htype => exact .inr ⟨hdl, not_not.1 hown, htype, hdata⟩
        next =>
          cases ht
          exact .inl fun c u => List.suffix_refl _

/-- Registrations are only taken out by `erfHandler`. -/
theorem step_table (hs : step s op = some s') (hnot : ∀ hdl, ¬ Unregistering s hdl op) (c t : Int) :
    s.table c t <:+ s'.table c t := by
  unfold Erf.step at hs
  rw [Option.ite_none_right_eq_some] at hs
  replace hs := hs.2
  have hsame : s'.table = s.table → s.table c t <:+ s'.table c t := fun heq => suffix_of_table heq c t
  cases op with
  | categoryAllocate task null =>
    simp only [erfCategoryAllocate] at hs
    split_ifs at hs <;> obtain rfl := Option.some.inj hs <;> exact hsame rfl
  | typeAllocate task category null =>
    simp only [erfTypeAllocate] at hs
    split_ifs at hs <;> obtain rfl := Option.some.inj hs <;> exact hsame rfl
  | register task category type func u flags malloc =>
    simp only [erfHandlerRegister] at hs
    split at hs
    · cases hs
      exact hsame rfl
    · split_ifs at hs
      · cases hs
        exact hsame rfl
      · cases hs
        exact hsame rfl
      · cases hs
        exact insert_table category type _ u c t
      · cases hs
        exact hsame (send_table _)
  | unregister task category type func u malloc =>
    cases hs
    unfold erfHandlerUnregister
    split_ifs
    · exact List.suffix_refl _
    · exact List.suffix_refl _
    · exact suffix_of_table (send_table _) c t
  | raise task category type async data hasFreeFunc =>
    simp only [erfEventRaise] at hs
    split_ifs at hs
    · cases hs
      exact hsame rfl
    · cases hs
      exact hsame (send_table _)
    · cases hs
      exact hsame rfl
  | receive =>
    simp only [erfTaskReceive] at hs
    split at hs
    · cases hs
      exact hsame rfl
    · cases hs
  | goOn task malloc =>
    simp only [Erf.goOn] at hs
    split at hs
    · cases hs
    next f rest hframes =>
      split at hs
      · rw [Option.ite_none_right_eq_some] at hs
        obtain rfl := Option.some.inj hs.2
        exact hsame rfl
      · split at hs <;> obtain rfl := Option.some.inj hs <;> exact hsame rfl
      next addr hphase =>
        obtain ⟨x, hfind, hs⟩ := Option.bind_eq_some_iff.1 hs
        split at hs
        · cases hs
          exact hsame rfl
        next hown =>
          have hx : x.func = .erfHandler := by simpa using hown
          obtain ⟨u, hu, rfl⟩ := Option.map_eq_some_iff.1 hs
          rcases erfHandler_table hu with hall | ⟨hdl, hcat, htype, hdata⟩
          · exact hall c t
          · exact absurd ⟨f, rest, addr, x, hframes, hphase, hfind, hx, hcat, htype, hdata⟩ (hnot hdl)
      · obtain ⟨next, -, rfl⟩ := Option.map_eq_some_iff.1 hs
        exact hsame rfl
      · cases hs
        exact hsame rfl

/-- The end of a registration takes one out that matches, if there is one, and no other. -/
theorem step_unregister (hs : step s op = some s') (hun : Unregistering s hdl op) :
    Removes hdl (s.table hdl.category hdl.type) (s'.table hdl.category hdl.type) ∧
      ∀ c t, ¬ (c = hdl.category ∧ t = hdl.type) → s'.table c t = s.table c t := by
  unfold Erf.step at hs
  rw [Option.ite_none_right_eq_some] at hs
  replace hs := hs.2
  cases op with
  | goOn task malloc =>
    obtain ⟨f, rest, addr, x, hframes, hphase, hfind, hx, hcat, htype, hdata⟩ := hun
    simp only [Erf.goOn, hframes, hphase, hfind, Option.bind_some, hx] at hs
    rw [if_neg (by simp)] at hs
    obtain ⟨u, hu, rfl⟩ := Option.map_eq_some_iff.1 hs
    unfold Erf.erfHandler at hu
    rw [if_neg (not_not_intro hcat), hdata] at hu
    dsimp only at hu
    rw [if_neg (by rw [htype]; decide), if_pos htype] at hu
    cases hu
    simp only [State.setTop, update_update]
    refine ⟨?_, fun c t hne => if_neg hne⟩
    rw [if_pos ⟨trivial, trivial⟩]
    exact unregisterLoop_removes hdl _
  | _ => exact hun.elim

/-! ## Runs -/

theorem inv_erfLibInit {maxCategories maxTypes : Int} {typesUsed : Int → Int}
    {table : Int → Int → List ErfType}
    (h : erfLibInit maxCategories maxTypes typesUsed table = some s) : Inv s := by
  unfold erfLibInit at h
  split at h
  · cases h
  next hmax =>
    cases h
    obtain ⟨hcats, htypes⟩ := not_or.1 hmax
    refine ⟨Int.not_lt.1 hcats, fun c hc hlt => ?_, fun c t hb => ?_, fun m hm => (by cases hm),
      fun j f hf => (by cases hf), fun j => trivial, rfl, fun f hf => (by cases hf),
      Int.not_lt.1 hcats, Int.not_lt.1 htypes⟩
    · dsimp only
      split
      · omega
      · rw [if_pos ⟨hc, hlt⟩]
        omega
    · have hone : ∀ addr < 2, c = erfEventCategory → ListOk c 2 [⟨addr, .erfHandler, 0⟩] := by
        intro addr haddr hc
        refine ⟨by simp, fun x hx => ?_, List.pairwise_singleton _ _, fun _ _ _ => hc⟩
        rw [List.mem_singleton.1 hx]
        exact haddr
      dsimp only
      split
      next h0 => exact hone 0 (by decide) h0.1
      next =>
        split
        next h1 => exact hone 1 (by decide) h1.1
        next =>
          rw [if_pos ⟨hb.1.1, hb.1.2, hb.2.1, hb.2.2⟩]
          exact ⟨List.nodup_nil, fun x hx => (by cases hx), List.Pairwise.nil,
            fun x hx => (by cases hx)⟩

/-- The events that were accepted are handled in their order: for each, the handlers of the time
when it was taken up are called in turn, and its data is freed then.  What is left of the last one
can go on. -/
structure Delivered (s : State) : Prop where
  order : s.accepted = s.handled.map Frame.msg ++ current (s.frames 0) ++ s.erfMsgQ
  one : (current (s.frames 0)).length ≤ 1
  once : ∀ f ∈ s.handled, f.log = f.complete
  part : ∀ f ∈ s.frames 0, f.async = true → f.log <+: f.complete
  goesOn : ∀ task f rest malloc, s.frames task = f :: rest →
    (f.phase = .received → s.canTake task) → (goOn s task malloc).isSome

/-- What a step does to the lists, and what it refuses. -/
structure StepRight (s : State) (op : Op) (s' : State) : Prop where
  takenUp : ∀ task malloc f rest, op = .goOn task malloc → s.frames task = f :: rest →
    f.phase = .received →
      ∃ f', s'.frames task = f' :: rest ∧ f'.handlers = s.table f.msg.category f.msg.type
  refused : Outside s op → s' = s.fail
  unregistered : ∀ hdl, Unregistering s hdl op →
    Removes hdl (s.table hdl.category hdl.type) (s'.table hdl.category hdl.type) ∧
      ∀ c t, ¬ (c = hdl.category ∧ t = hdl.type) → s'.table c t = s.table c t
  kept : (∀ hdl, ¬ Unregistering s hdl op) → ∀ c t, s.table c t <:+ s'.table c t

def Sound (_ : State) (op : Op) : Prop := op.sound = true

instance (s : State) (op : Op) : Decidable (Sound s op) := inferInstanceAs (Decidable (_ = true))

/-- A run without negative numbers, in which only the library raises events of its own. -/
theorem erf_run {maxCategories maxTypes : Int} {typesUsed : Int → Int}
    {table : Int → Int → List ErfType} {s₀ : State} {ops : List Op}
    (hinit : erfLibInit maxCategories maxTypes typesUsed table = some s₀)
    (hall : AllSteps step Sound s₀ ops) (hrun : exec step s₀ ops = some s) :
    Delivered s ∧ ∀ op s', op.sound = true → step s op = some s' → StepRight s op s' := by
  have hinv : Inv s := exec_invariant_of (I := Inv) (fun s op s' h hsound hs => h.step hsound hs)
    (inv_erfLibInit hinit) hall hrun
  refine ⟨⟨hinv.accepted, ?_, hinv.handled, fun f hf _ => (hinv.frames 0 f hf).walk.log_isPrefix,
    fun task f rest malloc hframes hcan => ?_⟩, fun op s' hsound hs => ⟨?_, ?_, ?_, ?_⟩⟩
  · rw [current, List.length_map]
    exact (hinv.shape 0).length_le
  · obtain ⟨t, ht, -⟩ := hinv.goOn hframes malloc hcan
    rw [ht]
    rfl
  · rintro task malloc f rest rfl hframes hphase
    have hgo : goOn s task malloc = some s' := hs
    simp only [goOn, hframes, hphase] at hgo
    rw [Option.ite_none_right_eq_some] at hgo
    obtain rfl := Option.some.inj hgo.2
    exact ⟨_, Function.update_self .., rfl⟩
  · exact fun hout => step_refused hsound hout hs
  · exact fun hdl hun => step_unregister hs hun
  · exact fun hnot => step_table hs hnot

/-! ## One library -/

/-- A category and a type are allocated. -/
def exampleSetup : List Op := [.categoryAllocate 1 false, .typeAllocate 1 1 false]

/-- A handler is registered, and one more behind the event task; the end of the first one is raised
behind an event, and the event task handles both. -/
def exampleEvents : List Op :=
  exampleSetup ++
  [.register 1 1 0 (some 7) 0 false true, .register 1 1 0 (some 8) 0 false true,
    .raise 1 1 0 true 5 true, .unregister 1 1 0 7 0 true] ++
  [.receive, .goOn 0 true, .goOn 0 true, .goOn 0 true, .goOn 0 true, .goOn 0 true, .goOn 0 true,
    .goOn 0 true] ++
  [.receive, .goOn 0 true, .goOn 0 true]

def exampleErf : Option State := erfLibInit 2 2 (fun _ => 0) fun _ _ => []

/-- The entries of the list that the example is about, and what was done for the events. -/
def exampleView (s : State) : List ErfType × List (List Act) :=
  (s.table 1 0, s.handled.map Frame.log)

theorem erf_run_example :
    ∃ s₀ s, exampleErf = some s₀ ∧ exec step s₀ exampleEvents = some s ∧
      exampleView s = ([⟨3, .user 8, 0⟩],
        [[.called ⟨3, .user 8, 0⟩, .called ⟨2, .user 7, 0⟩, .freed]]) ∧ Delivered s := by
  obtain ⟨s₀, hinit⟩ : ∃ s₀, exampleErf = some s₀ := Option.isSome_iff_exists.1 (by decide)
  have hall : AllSteps step Sound s₀ exampleEvents := by
    obtain rfl := Option.some.inj hinit
    decide
  have hview : (exec step s₀ exampleEvents).map exampleView = some ([⟨3, .user 8, 0⟩],
      [[.called ⟨3, .user 8, 0⟩, .called ⟨2, .user 7, 0⟩, .freed]]) := by
    obtain rfl := Option.some.inj hinit
    decide
  obtain ⟨s, hrun, hs⟩ := Option.map_eq_some_iff.1 hview
  exact ⟨s₀, s, hinit, hrun, hs, (erf_run hinit hall hrun).1⟩

/-- The type -1 passes the check, and an entry is put in front of the table. -/
theorem not_erf_run :
    ∃ s₀ s s', exampleErf = some s₀ ∧ exec step s₀ exampleSetup = some s ∧
      step s (.register 1 1 (-1) (some 7) 0 false true) = some s' ∧
      s'.status = OK ∧ s.table 1 (-1) = [] ∧ s'.table 1 (-1) = [⟨2, .user 7, 0⟩] := by
  obtain ⟨s₀, hinit⟩ : ∃ s₀, exampleErf = some s₀ := Option.isSome_iff_exists.1 (by decide)
  have hview : ((exec step s₀ exampleSetup).bind fun s =>
      (step s (.register 1 1 (-1) (some 7) 0 false true)).map fun s' =>
        (s'.status, s.table 1 (-1), s'.table 1 (-1))) = some (OK, [], [⟨2, .user 7, 0⟩]) := by
    obtain rfl := Option.some.inj hinit
    decide
  obtain ⟨s, hrun, hs⟩ := Option.bind_eq_some_iff.1 hview
  obtain ⟨s', hstep, hs'⟩ := Option.map_eq_some_iff.1 hs
  obtain ⟨hstatus, htable⟩ := Prod.mk.inj hs'
  exact ⟨s₀, s, s', hinit, hrun, hstep, hstatus, (Prod.mk.inj htable).1, (Prod.mk.inj htable).2⟩

end Vmx.Erf
