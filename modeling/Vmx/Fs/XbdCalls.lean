import Vmx.Fs.XbdLib

/-!
# The calls of the partition code

What a successful turn of the loop of `xbdPartitionsDetect` does is said once, in
`detectEntry_true`: a free slot of the device list is taken, one part of the record is filled,
two handlers are registered and an event is raised.
-/

namespace Vmx.Xbd

variable {env : Env} {s s' : State} {root name : DevName} {blkSize nBlks r i j k d : Nat}
  {e : PartitionEntry} {es : List PartitionEntry}

/-! ## Records -/

namespace State

@[simp] theorem setRecord_setRecord (s : State) (r : Nat) (f g : Partition → Partition) :
    (s.setRecord r f).setRecord r g = s.setRecord r (g ∘ f) := by
  simp [setRecord, List.modify_modify_eq]

@[simp] theorem setRecord_xbdDeviceList (s : State) (r : Nat) (f : Partition → Partition) :
    (s.setRecord r f).xbdDeviceList = s.xbdDeviceList := rfl

@[simp] theorem setRecord_handlers (s : State) (r : Nat) (f : Partition → Partition) :
    (s.setRecord r f).handlers = s.handlers := rfl

@[simp] theorem setRecord_erfMsgQ (s : State) (r : Nat) (f : Partition → Partition) :
    (s.setRecord r f).erfMsgQ = s.erfMsgQ := rfl

theorem setRecord_get (s : State) (r r' : Nat) (f : Partition → Partition) :
    (s.setRecord r f).records[r']? =
      if r = r' then (s.records[r']?).map f else s.records[r']? := by
  simp only [setRecord, List.getElem?_modify]
  split <;> simp

end State

/-- The part of a partition that has been attached. -/
def attachedPart (e : PartitionEntry) (name : DevName) (blkSize d : Nat) (p : Part) : Part :=
  { partOf e p with name := name, blkSize := blkSize, nBlks := e.nSectors, device := some d }

/-- A record after one more partition. -/
def grown (e : PartitionEntry) (name : DevName) (blkSize d k : Nat) (record : Partition) :
    Partition :=
  { record with
    nPartitions := record.nPartitions + 1
    xbdParts := Function.update record.xbdParts k
      (attachedPart e name blkSize d (record.xbdParts k)) }

/-- The state after one more partition. -/
def attached (s : State) (e : PartitionEntry) (name : DevName) (blkSize d r k : Nat) : State :=
  { s.setRecord r (grown e name blkSize d k) with
    xbdDeviceList := s.xbdDeviceList.set d (some (.part r k))
    handlers := fun type =>
      if type = .remove ∨ type = .mediaChanged then
        ⟨.xbdPartitionEject, some (r, k)⟩ :: s.handlers type
      else s.handlers type
    erfMsgQ := s.erfMsgQ ++ [.event .secondaryInsert d] }

/-! ## One entry of the table -/

/-- What a turn of the loop for a non-empty entry needs. -/
structure Room (env : Env) (s : State) (root : DevName) (r i k : Nat) (e : PartitionEntry) :
    Prop where
  short : (partName root (k + 1)).length + 1 < 32
  unused : xbdDevFind (s.setPart r k (partOf e)) (partName root (k + 1)) = false
  remove : env.mallocRemove i = true
  mediaChanged : env.mallocMediaChanged i = true
  queue : s.erfMsgQ.length < maxMsgs

theorem xbdAttach_some {s2 : State} (h : xbdAttach s r k name blkSize nBlks = (s2, some d)) :
    name.length + 1 < 32 ∧ xbdDevFind s name = false ∧
      s.xbdDeviceList.findIdx? (· = none) = some d ∧
      s2 = { s.setPart r k fun p => { p with name := name, blkSize := blkSize, nBlks := nBlks }
        with xbdDeviceList := s.xbdDeviceList.set d (some (.part r k)) } := by
  rw [xbdAttach] at h
  split at h
  · simp at h
  · rename_i hlen
    split at h
    · simp at h
    · rename_i hfind
      simp only at h
      split at h
      · simp at h
      · rename_i d' hd
        simp only [Prod.mk.injEq, Option.some.injEq] at h
        obtain ⟨rfl, rfl⟩ := h
        exact ⟨by omega, by simpa using hfind, hd, rfl⟩

theorem xbdAttach_eq (hlen : name.length + 1 < 32) (hfind : xbdDevFind s name = false)
    (hd : s.xbdDeviceList.findIdx? (· = none) = some d) :
    xbdAttach s r k name blkSize nBlks =
      ({ s.setPart r k fun p => { p with name := name, blkSize := blkSize, nBlks := nBlks }
        with xbdDeviceList := s.xbdDeviceList.set d (some (.part r k)) }, some d) := by
  rw [xbdAttach, if_neg (by omega), if_neg (by simp [hfind])]
  simp [hd]

theorem update_cons_twice (f : EventType → List Handler) (h : Handler) :
    Function.update (Function.update f .remove (h :: f .remove)) .mediaChanged
        (h :: Function.update f .remove (h :: f .remove) .mediaChanged) =
      fun type =>
        if type = .remove ∨ type = .mediaChanged then h :: f type else f type := by
  funext type
  cases type <;> simp [Function.update]

/-- A turn of the loop with all that it needs. -/
theorem detectEntry_of_room (h : Room env s root r i k e)
    (hd : s.xbdDeviceList.findIdx? (· = none) = some d) :
    detectEntry env root blkSize r s i k e =
      (attached s e (partName root (k + 1)) blkSize d r k, true) := by
  have hattach : xbdAttach (s.setPart r k (partOf e)) r k (partName root (k + 1)) blkSize
      e.nSectors = _ := xbdAttach_eq h.short h.unused hd
  rw [detectEntry]
  simp only [hattach, erfHandlerRegister, h.remove, h.mediaChanged, msgQSend, if_true]
  rw [if_pos (by exact h.queue)]
  simp only [State.setPart, State.setRecord, attached, List.modify_modify_eq, update_cons_twice]
  congr 3
  funext record
  simp [grown, attachedPart, partOf]

/-- A turn of the loop that goes on. -/
theorem detectEntry_true (h : detectEntry env root blkSize r s i k e = (s', true)) :
    Room env s root r i k e ∧ ∃ d, s.xbdDeviceList.findIdx? (· = none) = some d ∧
      s' = attached s e (partName root (k + 1)) blkSize d r k := by
  have hroom : Room env s root r i k e ∧
      ∃ d, s.xbdDeviceList.findIdx? (· = none) = some d := by
    rw [detectEntry] at h
    simp only at h
    split at h
    · simp at h
    · rename_i s2 d hattach
      obtain ⟨hlen, hfind, hd, rfl⟩ := xbdAttach_some hattach
      simp only [erfHandlerRegister, msgQSend] at h
      by_cases hrem : env.mallocRemove i = true
      · by_cases hmed : env.mallocMediaChanged i = true
        · by_cases hq : s.erfMsgQ.length < maxMsgs
          · exact ⟨⟨hlen, hfind, hrem, hmed, hq⟩, d, hd⟩
          · simp [hrem, hmed, hq, State.setPart] at h
        · simp [hrem, hmed] at h
      · simp [hrem] at h
  obtain ⟨hroom, d, hd⟩ := hroom
  refine ⟨hroom, d, hd, ?_⟩
  rw [detectEntry_of_room hroom hd] at h
  simpa using h.symm

/-! ## The loop over the table -/

/-- Partition `k` of record `r` is a device of its own, with this start and length. -/
def IsDevice (s : State) (r k start len : Nat) : Prop :=
  ∃ p d, s.partAt r k = some p ∧ p.device = some d ∧ s.deviceAt d = some (.part r k) ∧
    p.startBlock = start ∧ p.nBlocks = len ∧ p.nBlks = len

theorem deviceAt_eq_some {ptr : XbdPtr} :
    s.deviceAt d = some ptr ↔ s.xbdDeviceList[d]? = some (some ptr) := by
  simp [State.deviceAt, Option.join_eq_some_iff]

/-- A slot that `xbdAttach` takes is one that was free. -/
theorem findIdx_free {l : List (Option XbdPtr)} (h : l.findIdx? (· = none) = some d) :
    l[d]? = some none := by
  obtain ⟨hd, hfree, _⟩ := List.findIdx?_eq_some_iff_getElem.1 h
  rw [List.getElem?_eq_getElem hd]
  simpa using hfree

/-- A record whose part `k` is changed by `g`. -/
theorem setRecord_partAt {f : Partition → Partition} {g : Part → Part}
    (hf : ∀ record, (f record).xbdParts =
      Function.update record.xbdParts k (g (record.xbdParts k))) (r' k' : Nat) :
    (s.setRecord r f).partAt r' k' =
      if r = r' ∧ k = k' then (s.partAt r' k').map g else s.partAt r' k' := by
  simp only [State.partAt, State.setRecord_get]
  by_cases hr : r = r'
  · subst hr
    cases s.records[r]? with
    | none => simp
    | some record =>
      by_cases hk : k = k'
      · subst hk
        simp [hf]
      · simp [hf, hk, Function.update_of_ne (Ne.symm hk)]
  · simp [hr]

theorem partAt_setPart (f : Part → Part) (r' k' : Nat) :
    (s.setPart r k f).partAt r' k' =
      if r = r' ∧ k = k' then (s.partAt r' k').map f else s.partAt r' k' :=
  setRecord_partAt (fun _ => rfl) r' k'

theorem attached_partAt (r' k' : Nat) :
    (attached s e name blkSize d r k).partAt r' k' =
      if r = r' ∧ k = k' then (s.partAt r' k').map (attachedPart e name blkSize d)
      else s.partAt r' k' :=
  setRecord_partAt (s := s) (f := grown e name blkSize d k) (fun _ => rfl) r' k'

theorem attached_deviceAt (hd : s.xbdDeviceList[d]? = some none) (d' : Nat) :
    (attached s e name blkSize d r k).deviceAt d' =
      if d = d' then some (.part r k) else s.deviceAt d' := by
  simp only [State.deviceAt, attached, List.getElem?_set]
  split
  · subst_vars
    simp [List.getElem?_eq_some_iff.1 hd |>.1]
  · rfl

/-- The new partition is a device. -/
theorem isDevice_attached (hd : s.xbdDeviceList[d]? = some none) (hr : r < s.records.length) :
    IsDevice (attached s e name blkSize d r k) r k e.sector e.nSectors := by
  refine ⟨attachedPart e name blkSize d (s.records[r].xbdParts k), d, ?_, rfl, ?_, rfl, rfl, rfl⟩
  · rw [attached_partAt, if_pos ⟨rfl, rfl⟩]
    simp [State.partAt, hr]
  · simp [attached_deviceAt hd]

/-- The devices that are there stay. -/
theorem IsDevice.attached {start len : Nat} (h : IsDevice s r j start len)
    (hd : s.xbdDeviceList[d]? = some none) (hj : j ≠ k) :
    IsDevice (attached s e name blkSize d r k) r j start len := by
  obtain ⟨p, d', hp, hdev, hat, hrest⟩ := h
  have hne : d ≠ d' := by
    rintro rfl
    rw [deviceAt_eq_some, hd] at hat
    simp at hat
  exact ⟨p, d', by simp [attached_partAt, hp, Ne.symm hj], hdev,
    by simp [attached_deviceAt hd, hne, hat], hrest⟩

theorem IsDevice.setPart {start len : Nat} (h : IsDevice s r j start len) (f : Part → Part)
    (hj : j ≠ k) : IsDevice (s.setPart r k f) r j start len := by
  obtain ⟨p, d', hp, hdev, hat, hrest⟩ := h
  exact ⟨p, d', by simp [partAt_setPart, hp, Ne.symm hj], hdev, hat, hrest⟩

/-- The entries that `xbdPartitionsDetect` does not skip. -/
def nonempty (es : List PartitionEntry) : List PartitionEntry := es.filter (·.nSectors ≠ 0)

/-- The loop makes one device for each non-empty entry, in the order of the table. -/
theorem detectLoop_some {i k k' : Nat} (hr : r < s.records.length)
    (h : detectLoop env root blkSize r s i k es = (s', some k')) :
    k' = k + (nonempty es).length ∧
      (∀ j start len, j < k → IsDevice s r j start len → IsDevice s' r j start len) ∧
      ∀ j e, (nonempty es)[j]? = some e → IsDevice s' r (k + j) e.sector e.nSectors := by
  induction es generalizing s i k with
  | nil =>
    simp only [detectLoop, Prod.mk.injEq, Option.some.injEq] at h
    obtain ⟨rfl, rfl⟩ := h
    simp [nonempty]
  | cons e es ih =>
    rw [detectLoop] at h
    split at h
    · rename_i hempty
      obtain ⟨hlen, hframe, hnew⟩ := ih (by simpa [State.setPart, State.setRecord] using hr) h
      have hskip : nonempty (e :: es) = nonempty es := by simp [nonempty, hempty]
      rw [hskip]
      exact ⟨hlen, fun j start len hj hdev => hframe j start len hj
        (hdev.setPart _ (by omega)), hnew⟩
    · rename_i hne
      have hkeep : nonempty (e :: es) = e :: nonempty es := by simp [nonempty, hne]
      split at h
      · simp at h
      · rename_i s1 hentry
        obtain ⟨_, d, hd, rfl⟩ := detectEntry_true hentry
        have hfree := findIdx_free hd
        obtain ⟨hlen, hframe, hnew⟩ := ih
          (by simpa [attached, State.setRecord] using hr) h
        refine ⟨by simp [hkeep, hlen]; omega, fun j start len hj hdev =>
          hframe j start len (by omega) (hdev.attached hfree (by omega)), fun j f hf => ?_⟩
        cases j with
        | zero =>
          obtain rfl : e = f := by simpa [hkeep] using hf
          exact hframe k _ _ (by omega) (isDevice_attached hfree hr)
        | succ j =>
          have := hnew j f (by simpa [hkeep] using hf)
          rwa [show k + 1 + j = k + (j + 1) by omega] at this

/-- What a detection that finds its partitions has made. -/
theorem xbdPartitionsDetect_some {device n : Nat} {table : PartTable}
    (htable : env.sector0 = some table)
    (h : xbdPartitionsDetect env s device = (s', some n)) :
    n = (nonempty (List.ofFn table)).length ∧
      ∀ j e, (nonempty (List.ofFn table))[j]? = some e →
        IsDevice s' s.records.length j e.sector e.nSectors := by
  rw [xbdPartitionsDetect] at h
  split at h
  · simp at h
  · split at h
    · simp only [htable] at h
      split at h
      · simp at h
      · split at h
        · simp at h
        · rename_i s2 k hloop
          obtain ⟨rfl, rfl⟩ : s2 = s' ∧ k = n := by simpa using h
          obtain ⟨hlen, _, hnew⟩ := detectLoop_some (by simp) hloop
          exact ⟨by simpa using hlen, by simpa using hnew⟩
    · simp at h

end Vmx.Xbd
