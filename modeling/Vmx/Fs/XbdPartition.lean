import Vmx.Fs.XbdCalls

/-!
# Isolation and lifetime of partitions

A partition passes a request on to the disk after adding its first block, without comparing it
with its length; a detection that fails half-way frees the record while the partitions found so
far are attached; and an ejected partition asks to unregister a handler that was never registered.
`goodStep` is the condition that a step does none of this.  In a run of good steps a partition that
is attached is in a live record, and so is every partition that a handler was registered for.
-/

namespace Vmx.Xbd

open Lib

variable {env : Env} {s s' : State} {root name : DevName} {blkSize r i j k d : Nat}
  {e : PartitionEntry} {es : List PartitionEntry} {record : Partition}

/-! ## The condition on a step -/

/-- A request of so many bytes stays inside the partition of a device. -/
def requestOk (s : State) (device blkno bytes : Nat) : Bool :=
  match s.deviceAt device with
  | some (.part r i) =>
    match s.records[r]? with
    | none => true
    | some record =>
      match s.deviceAt record.subDevice with
      | none => true
      | some ptr => blkno + bytes / s.blkSizeAt ptr ≤ (record.xbdParts i).nBlocks
  | _ => true

/-- The check of `xbdPartitionDump` turns the block number down. -/
def dumpRefused (s : State) (device blkno : Nat) : Bool :=
  match s.deviceAt device with
  | some (.part r i) => (s.partAt r i).any fun p => p.nBlocks < blkno
  | _ => false

/-- The first `xbdAttach` of a detection fails, before anything refers to the record. -/
def firstFails (s : State) (root : DevName) : Bool :=
  32 ≤ (partName root 1).length + 1 || xbdDevFind s (partName root 1) ||
    s.xbdDeviceList.all (·.isSome)

/-- There is room for all partitions of a table: slots, names, memory and messages. -/
def roomForAll (env : Env) (s : State) (root : DevName) (table : PartTable) : Bool :=
  let n := (nonempty (List.ofFn table)).length
  (partName root 1).length + 1 < 32 && n ≤ s.xbdDeviceList.count none &&
    (List.range n).all (fun j => !xbdDevFind s (partName root (j + 1))) &&
    (List.range 4).all (fun i => env.mallocRemove i && env.mallocMediaChanged i) &&
    s.erfMsgQ.length + n ≤ maxMsgs

/-- A detection that does not fail once a partition is attached. -/
def detectOk (env : Env) (s : State) (device : Nat) : Bool :=
  match s.deviceAt device, env.sector0 with
  | some ptr, some table =>
    match rootName (s.nameAt ptr) with
    | some root => firstFails s root || roomForAll env s root table
    | none => true
  | _, _ => true

/-- The event is not one that ejects a partition: no partition with a handler has the device. -/
def keepsPartitions (s : State) (type : EventType) (device : Nat) : Bool :=
  (s.handlers type).all fun h =>
    !(h.func == .xbdPartitionEject && h.pUserData.any fun ri =>
      (s.partAt ri.1 ri.2).any (·.device == some device))

/-- The event ejects no partition, and the detection that it starts is all right. -/
def eventOk (env : Env) (s : State) (type : EventType) (device : Nat) : Bool :=
  keepsPartitions s type device && (type != .primaryInsert || detectOk env s device)

/-- The condition on a step. -/
def goodStep (s : State) : Label → Bool
  | .strategy device bios => bios.all fun bio => requestOk s device bio.bio_blkno bio.bio_bcount
  | .dump device lblkno nBytes => dumpRefused s device lblkno || requestOk s device lblkno nBytes
  | .raise _ _ => true
  | .raiseSync env type device => eventOk env s type device
  | .erfTask env =>
    match s.erfMsgQ with
    | .event type device :: rest => eventOk env { s with erfMsgQ := rest } type device
    | _ => true

/-! ## The invariant -/

/-- Partition `i` of record `r` is attached as device `d`, and its record is live. -/
structure Live (s : State) (d r i : Nat) (record : Partition) : Prop where
  found : s.records[r]? = some record
  notFreed : record.freed = false
  index : i < record.nPartitions
  device : (record.xbdParts i).device = some d
  name : rootName (record.xbdParts i).name = none
  start : (record.xbdParts i).startBlock < 2 ^ 32
  blocks : (record.xbdParts i).nBlocks < 2 ^ 32

/-- A transfer stays inside the partition it came through. -/
def Inside (s : State) (t : Transfer) : Prop :=
  ∀ r i, t.via = some (r, i) → ∃ record, s.records[r]? = some record ∧
    t.device = record.subDevice ∧ (record.xbdParts i).startBlock ≤ t.blkno ∧
    t.blkno + t.count ≤ (record.xbdParts i).startBlock + (record.xbdParts i).nBlocks

structure PartInv (s : State) : Prop where
  devices : ∀ d r i, s.deviceAt d = some (.part r i) → ∃ record, Live s d r i record
  disks : ∀ (r : Nat) (record : Partition), s.records[r]? = some record →
    ∃ b, s.deviceAt record.subDevice = some (.disk b)
  handlers : ∀ type h, h ∈ s.handlers type → h.func = .xbdPartitionEject →
    ∃ r i d, h.pUserData = some (r, i) ∧ s.deviceAt d = some (.part r i)
  primary : ∃ others : List Nat, s.handlers .primaryInsert =
    ⟨.xbdPartitionHandler, none⟩ :: others.map fun n => ⟨.other n, none⟩
  queue : ∀ m ∈ s.erfMsgQ, ∃ type device, m = .event type device
  inside : ∀ t ∈ s.transfers, Inside s t
  notCalled : s.calledFreed = false

/-- Nothing refers to a record yet. -/
structure Unused (s : State) (r : Nat) : Prop where
  transfers : ∀ t ∈ s.transfers, ∀ i, t.via ≠ some (r, i)

namespace PartInv

/-- A record may change where nothing refers to it. -/
theorem setRecord (h : PartInv s) (hu : Unused s r) (hrec : s.records[r]? = some record)
    {f : Partition → Partition} (hsub : (f record).subDevice = record.subDevice)
    (hkeep : ∀ d i, s.deviceAt d = some (.part r i) →
      (f record).freed = false ∧ i < (f record).nPartitions ∧
        (f record).xbdParts i = record.xbdParts i) : PartInv (s.setRecord r f) where
  devices d r' i hd := by
    obtain ⟨record', hlive⟩ := h.devices d r' i hd
    by_cases hr : r = r'
    · subst hr
      obtain rfl : record = record' := by simpa [hrec] using hlive.found
      obtain ⟨hfreed, hindex, hpart⟩ := hkeep d i hd
      exact ⟨f record, by simp [State.setRecord_get, hrec], hfreed, hindex,
        by rw [hpart]; exact hlive.device, by rw [hpart]; exact hlive.name,
        by rw [hpart]; exact hlive.start, by rw [hpart]; exact hlive.blocks⟩
    · exact ⟨record', by simp [State.setRecord_get, hr, hlive.found], hlive.notFreed,
        hlive.index, hlive.device, hlive.name, hlive.start, hlive.blocks⟩
  disks r' record' hr' := by
    rw [State.setRecord_get] at hr'
    split at hr'
    · subst_vars
      obtain rfl : f record = record' := by simpa [hrec] using hr'
      rw [hsub]
      exact h.disks _ record hrec
    · exact h.disks r' record' hr'
  handlers := h.handlers
  primary := h.primary
  queue := h.queue
  inside t ht r' i hvia := by
    obtain ⟨record', hr', hrest⟩ := h.inside t ht r' i hvia
    have hne : r ≠ r' := fun heq => hu.transfers t ht i (heq ▸ hvia)
    exact ⟨record', by simp [State.setRecord_get, hne, hr'], hrest⟩
  notCalled := h.notCalled

/-- A partition gets a device. -/
theorem setDevice (h : PartInv s) (hfree : s.xbdDeviceList[d]? = some none)
    (hlive : Live s d r i record) :
    PartInv { s with xbdDeviceList := s.xbdDeviceList.set d (some (.part r i)) } := by
  have hat : ∀ d', State.deviceAt
      { s with xbdDeviceList := s.xbdDeviceList.set d (some (.part r i)) } d' =
        if d = d' then some (.part r i) else s.deviceAt d' := by
    intro d'
    simp only [State.deviceAt, List.getElem?_set]
    split
    · subst_vars
      simp [List.getElem?_eq_some_iff.1 hfree |>.1]
    · rfl
  have hkeep : ∀ d' ptr, s.deviceAt d' = some ptr → State.deviceAt
      { s with xbdDeviceList := s.xbdDeviceList.set d (some (.part r i)) } d' = some ptr := by
    intro d' ptr hd'
    rw [hat, if_neg, hd']
    rintro rfl
    rw [deviceAt_eq_some, hfree] at hd'
    simp at hd'
  refine ⟨fun d' r' i' hd' => ?_, fun r' record' hr' => ?_, fun type h' hh' hfunc => ?_,
    h.primary, h.queue, h.inside, h.notCalled⟩
  · rw [hat] at hd'
    split at hd'
    · subst_vars
      obtain ⟨rfl, rfl⟩ : r = r' ∧ i = i' := by simpa using hd'
      exact ⟨record, hlive.found, hlive.notFreed, hlive.index, hlive.device, hlive.name,
        hlive.start, hlive.blocks⟩
    · obtain ⟨record', hl⟩ := h.devices d' r' i' hd'
      exact ⟨record', hl.found, hl.notFreed, hl.index, hl.device, hl.name, hl.start, hl.blocks⟩
  · obtain ⟨b, hb⟩ := h.disks r' record' hr'
    exact ⟨b, hkeep _ _ hb⟩
  · obtain ⟨r', i', d', hdata, hd'⟩ := h.handlers type h' hh' hfunc
    exact ⟨r', i', d', hdata, hkeep _ _ hd'⟩

/-- Handlers of an attached partition are registered. -/
theorem addHandlers (h : PartInv s) (hat : s.deviceAt d = some (.part r i)) :
    PartInv { s with handlers := fun type =>
      if type = .remove ∨ type = .mediaChanged then
        ⟨.xbdPartitionEject, some (r, i)⟩ :: s.handlers type
      else s.handlers type } where
  devices d r i hd := by
    obtain ⟨record, hl⟩ := h.devices d r i hd
    exact ⟨record, hl.found, hl.notFreed, hl.index, hl.device, hl.name, hl.start, hl.blocks⟩
  disks := h.disks
  handlers type h' hh' hfunc := by
    simp only at hh'
    split at hh'
    · obtain rfl | hh' := List.mem_cons.1 hh'
      · exact ⟨r, i, d, rfl, hat⟩
      · exact h.handlers type h' hh' hfunc
    · exact h.handlers type h' hh' hfunc
  primary := by simpa using h.primary
  queue := h.queue
  inside := h.inside
  notCalled := h.notCalled

/-- The queue may be any list of events. -/
theorem setQueue (h : PartInv s) {q : List Msg} (hq : ∀ m ∈ q, ∃ type device, m = .event type device) :
    PartInv { s with erfMsgQ := q } where
  devices d r i hd := by
    obtain ⟨record, hl⟩ := h.devices d r i hd
    exact ⟨record, hl.found, hl.notFreed, hl.index, hl.device, hl.name, hl.start, hl.blocks⟩
  disks := h.disks
  handlers := h.handlers
  primary := h.primary
  queue := hq
  inside := h.inside
  notCalled := h.notCalled

/-- A part that is not attached yet may change. -/
theorem setPart (h : PartInv s) (hu : Unused s r) (hrec : s.records[r]? = some record)
    (hk : record.nPartitions = k) (hfreed : record.freed = false) (f : Part → Part) :
    PartInv (s.setPart r k f) := by
  refine h.setRecord hu hrec rfl fun d i hd => ?_
  obtain ⟨record', hl⟩ := h.devices d r i hd
  obtain rfl : record = record' := by simpa [hrec] using hl.found
  have hindex := hl.index
  exact ⟨hfreed, hindex, Function.update_of_ne (by omega) _ _⟩

/-- One more partition is attached. -/
theorem attached (h : PartInv s) (hu : Unused s r) (hrec : s.records[r]? = some record)
    (hk : record.nPartitions = k) (hfreed : record.freed = false)
    (hfree : s.xbdDeviceList[d]? = some none) (hname : rootName name = none) :
    PartInv (attached s e name blkSize d r k) := by
  have hgrown : PartInv (s.setRecord r (grown e name blkSize d k)) := by
    refine h.setRecord hu hrec rfl fun d' i hd' => ?_
    obtain ⟨record', hl⟩ := h.devices d' r i hd'
    obtain rfl : record = record' := by simpa [hrec] using hl.found
    have hindex := hl.index
    exact ⟨hfreed, Nat.lt_succ_of_lt hindex, Function.update_of_ne (by omega) _ _⟩
  have hlive : Live (s.setRecord r (grown e name blkSize d k)) d r k
      (grown e name blkSize d k record) := by
    have hpart : (grown e name blkSize d k record).xbdParts k =
        attachedPart e name blkSize d (record.xbdParts k) := Function.update_self _ _ _
    refine ⟨by simp [State.setRecord_get, hrec], hfreed, ?_, ?_, ?_, ?_, ?_⟩
    · simp [grown, hk]
    · rw [hpart]
      rfl
    · rw [hpart]
      exact hname
    · rw [hpart]
      exact e.sector_lt
    · rw [hpart]
      exact e.nSectors_lt
  have hdevice := hgrown.setDevice hfree hlive
  have hat : State.deviceAt { s.setRecord r (grown e name blkSize d k) with
      xbdDeviceList := s.xbdDeviceList.set d (some (.part r k)) } d = some (.part r k) := by
    simp [State.deviceAt, List.getElem?_eq_some_iff.1 hfree |>.1]
  refine (hdevice.addHandlers hat).setQueue (q := s.erfMsgQ ++ [.event .secondaryInsert d])
    fun m hm => ?_
  obtain hm | hm := List.mem_append.1 hm
  · exact h.queue m hm
  · exact ⟨_, _, List.mem_singleton.1 hm⟩

end PartInv

/-! ## Names -/

theorem toDigits_ne {a b : Nat} (ha : a < 10) (hb : b < 10) (h : a ≠ b) :
    Nat.toDigits 10 a ≠ Nat.toDigits 10 b := by
  have hall : ∀ a < 10, ∀ b < 10, a ≠ b → Nat.toDigits 10 a ≠ Nat.toDigits 10 b := by decide
  exact hall a ha b hb h

theorem partName_ne {a b : Nat} (ha : a < 10) (hb : b < 10) (h : a ≠ b) :
    partName root a ≠ partName root b := by
  intro heq
  exact toDigits_ne ha hb h (List.cons.inj (List.append_cancel_left heq)).2

theorem partName_length {n : Nat} (hn : n < 10) : (partName root n).length = root.length + 2 := by
  have hone : (Nat.toDigits 10 n).length = 1 := by
    revert n
    decide
  simp [partName, hone]

/-- The name of a partition does not end like the name of a disk. -/
theorem rootName_partName {n : Nat} (h0 : n ≠ 0) (hn : n < 10) :
    rootName (partName root n) = none := by
  have hdigit : ∃ c, Nat.toDigits 10 n = [c] ∧ c ≠ '0' := by
    have hall : ∀ n < 10, n ≠ 0 → (Nat.toDigits 10 n).length = 1 ∧
        (Nat.toDigits 10 n).head? ≠ some '0' := by decide
    obtain ⟨hlen, hhead⟩ := hall n hn h0
    obtain ⟨c, hc⟩ := List.length_eq_one_iff.1 hlen
    exact ⟨c, hc, by simpa [hc] using hhead⟩
  obtain ⟨c, hc, hne⟩ := hdigit
  have hsuffix : [':', '0'].isSuffixOf (partName root n) = false := by
    simp [partName, hc, List.isSuffixOf, List.isPrefixOf, Ne.symm hne]
  simp [rootName, hsuffix]

/-- A name is found when a device has it. -/
theorem xbdDevFind_iff :
    xbdDevFind s name = true ↔ ∃ d ptr, s.deviceAt d = some ptr ∧ s.nameAt ptr = name := by
  simp only [xbdDevFind, List.any_eq_true, Option.any_eq_true, decide_eq_true_eq]
  constructor
  · rintro ⟨slot, hslot, ptr, rfl, hname⟩
    obtain ⟨d, hd⟩ := List.getElem?_of_mem hslot
    exact ⟨d, ptr, deviceAt_eq_some.2 hd, hname⟩
  · rintro ⟨d, ptr, hd, hname⟩
    exact ⟨some ptr, List.mem_of_getElem? (deviceAt_eq_some.1 hd), ptr, rfl, hname⟩

/-- Changing a part without its name changes no names. -/
theorem nameAt_setPart {f : Part → Part} (hf : ∀ p, (f p).name = p.name) (ptr : XbdPtr) :
    (s.setPart r k f).nameAt ptr = s.nameAt ptr := by
  cases ptr with
  | disk b => rfl
  | part r' k' =>
    simp only [State.nameAt, partAt_setPart]
    split
    · cases s.partAt r' k' with
      | none => rfl
      | some p => simp [hf]
    · rfl

theorem xbdDevFind_setPart {f : Part → Part} (hf : ∀ p, (f p).name = p.name) :
    xbdDevFind (s.setPart r k f) name = xbdDevFind s name := by
  simp only [xbdDevFind, nameAt_setPart hf]
  rfl

/-- After a partition is attached only its own name is new. -/
theorem xbdDevFind_attached {name' : DevName} (hfree : s.xbdDeviceList[d]? = some none)
    (hnot : ∀ d', s.deviceAt d' ≠ some (.part r k)) (hne : name ≠ name')
    (hfind : xbdDevFind s name' = false) (hr : r < s.records.length) :
    xbdDevFind (attached s e name blkSize d r k) name' = false := by
  rw [Bool.eq_false_iff, Ne, xbdDevFind_iff] at hfind ⊢
  rintro ⟨d', ptr, hd', hname⟩
  rw [attached_deviceAt hfree] at hd'
  split at hd'
  · obtain rfl : .part r k = ptr := by simpa using hd'
    simp only [State.nameAt, attached_partAt, and_self, if_true] at hname
    simp only [State.partAt, List.getElem?_eq_getElem hr, Option.map_some,
      Option.getD_some] at hname
    exact hne hname
  · refine hfind ⟨d', ptr, hd', ?_⟩
    rw [← hname]
    cases ptr with
    | disk b => rfl
    | part r' k' =>
      have hother : ¬ (r = r' ∧ k = k') := by
        rintro ⟨rfl, rfl⟩
        exact hnot d' hd'
      simp only [State.nameAt, attached_partAt, if_neg hother]

/-! ## A detection with room -/

/-- There is room for the partitions of the entries that are left. -/
structure RoomFrom (env : Env) (s : State) (root : DevName) (i k : Nat)
    (es : List PartitionEntry) : Prop where
  short : root.length + 3 < 32
  few : k + (nonempty es).length < 9
  slots : (nonempty es).length ≤ s.xbdDeviceList.count none
  names : ∀ j, k ≤ j → j < k + (nonempty es).length →
    xbdDevFind s (partName root (j + 1)) = false
  memory : ∀ j, i ≤ j → j < i + es.length →
    env.mallocRemove j = true ∧ env.mallocMediaChanged j = true
  queue : s.erfMsgQ.length + (nonempty es).length ≤ maxMsgs

theorem nonempty_cons (e : PartitionEntry) (es : List PartitionEntry) :
    nonempty (e :: es) = if e.nSectors = 0 then nonempty es else e :: nonempty es := by
  simp only [nonempty, List.filter_cons]
  split <;> simp_all

/-- The first entry has what it needs, and it leaves room for the others. -/
theorem RoomFrom.head {i : Nat} (blkSize : Nat) (h : RoomFrom env s root i k (e :: es)) (hne : e.nSectors ≠ 0)
    (hnot : ∀ d', s.deviceAt d' ≠ some (.part r k)) (hr : r < s.records.length) :
    Room env s root r i k e ∧ ∃ d, s.xbdDeviceList.findIdx? (· = none) = some d ∧
      RoomFrom env (attached s e (partName root (k + 1)) blkSize d r k) root (i + 1) (k + 1)
        es := by
  obtain ⟨hshort, hfew, hslots, hnames, hmem, hqueue⟩ := h
  rw [nonempty_cons, if_neg hne, List.length_cons] at hfew hslots hnames hqueue
  have hroom : Room env s root r i k e := by
    refine ⟨?_, ?_, (hmem i (by omega) (by simp)).1, (hmem i (by omega) (by simp)).2, by omega⟩
    · rw [partName_length (by omega)]
      omega
    · have hsame : ∀ p, (partOf e p).name = p.name := fun p => rfl
      rw [xbdDevFind_setPart hsame]
      exact hnames k (by omega) (by omega)
  have hmem_none : none ∈ s.xbdDeviceList := List.count_pos_iff.1 (by omega)
  obtain ⟨d, hd⟩ : ∃ d, s.xbdDeviceList.findIdx? (· = none) = some d := by
    rw [← Option.isSome_iff_exists, List.findIdx?_isSome, List.any_eq_true]
    exact ⟨none, hmem_none, by simp⟩
  have hfree := findIdx_free hd
  obtain ⟨hlt, hget⟩ := List.getElem?_eq_some_iff.1 hfree
  refine ⟨hroom, d, hd, hshort, by omega, ?_, fun j hkj hj => ?_, fun j hij hj => ?_, ?_⟩
  · simp only [attached, List.count_set hlt, hget]
    simp
    omega
  · exact xbdDevFind_attached hfree hnot (partName_ne (by omega) (by omega) (by omega))
      (hnames j (by omega) (by omega)) hr
  · exact hmem j (by omega) (by simp only [List.length_cons]; omega)
  · simp only [attached, List.length_append, List.length_cons, List.length_nil]
    omega

theorem setRecord_found (hrec : s.records[r]? = some record) (f : Partition → Partition) :
    (s.setRecord r f).records[r]? = some (f record) := by
  simp [State.setRecord_get, hrec]

/-- Skipping an empty entry changes nothing that matters. -/
theorem RoomFrom.skip {i : Nat} (h : RoomFrom env s root i k (e :: es)) (he : e.nSectors = 0)
    {f : Part → Part} (hf : ∀ p, (f p).name = p.name) :
    RoomFrom env (s.setPart r k f) root (i + 1) k es := by
  obtain ⟨hshort, hfew, hslots, hnames, hmem, hqueue⟩ := h
  rw [nonempty_cons, if_pos he] at hfew hslots hnames hqueue
  refine ⟨hshort, hfew, hslots, fun j hkj hj => ?_, fun j hij hj => ?_, hqueue⟩
  · rw [xbdDevFind_setPart hf]
    exact hnames j hkj hj
  · exact hmem j (by omega) (by simp only [List.length_cons]; omega)

/-- With room for all entries the loop goes through and keeps the invariant. -/
theorem detectLoop_room (blkSize : Nat) {i : Nat} (h : PartInv s) (hu : Unused s r)
    (hrec : s.records[r]? = some record) (hk : record.nPartitions = k)
    (hfreed : record.freed = false) (hroom : RoomFrom env s root i k es) :
    ∃ s' n, detectLoop env root blkSize r s i k es = (s', some n) ∧ PartInv s' := by
  induction es generalizing s i k record with
  | nil => exact ⟨s, k, rfl, h⟩
  | cons e es ih =>
    rw [detectLoop]
    by_cases he : e.nSectors = 0
    · rw [if_pos he]
      exact ih (h.setPart hu hrec hk hfreed _) ⟨hu.transfers⟩
        (setRecord_found hrec _) hk hfreed (hroom.skip he fun p => rfl)
    · rw [if_neg he]
      have hnot : ∀ d', s.deviceAt d' ≠ some (.part r k) := by
        intro d' hd'
        obtain ⟨record', hl⟩ := h.devices d' r k hd'
        obtain rfl : record = record' := by simpa [hrec] using hl.found
        have hindex := hl.index
        omega
      have hr : r < s.records.length := (List.getElem?_eq_some_iff.1 hrec).1
      obtain ⟨hentry, d, hd, hrest⟩ := hroom.head blkSize he hnot hr
      have hfew := hroom.few
      rw [nonempty_cons, if_neg he, List.length_cons] at hfew
      rw [detectEntry_of_room hentry hd]
      exact ih (h.attached hu hrec hk hfreed (findIdx_free hd)
        (rootName_partName (by omega) (by omega))) ⟨hu.transfers⟩
        (setRecord_found hrec (grown e (partName root (k + 1)) blkSize d k))
        (congrArg (· + 1) hk) hfreed hrest

/-! ## A detection whose first partition fails -/

/-- Nothing refers to record `r`, which is in the table of records. -/
structure Alone (s : State) (r : Nat) : Prop where
  inv : PartInv s
  unused : Unused s r
  found : r < s.records.length
  devices : ∀ d i, s.deviceAt d ≠ some (.part r i)

/-- Such a record may change in any way. -/
theorem Alone.setRecord (h : Alone s r) {f : Partition → Partition}
    (hf : ∀ record, (f record).subDevice = record.subDevice) : Alone (s.setRecord r f) r where
  inv := h.inv.setRecord h.unused (List.getElem?_eq_getElem h.found) (hf _)
    fun d i hd => absurd hd (h.devices d i)
  unused := ⟨h.unused.transfers⟩
  found := by simpa [State.setRecord] using h.found
  devices := h.devices

theorem firstFails_setPart {f : Part → Part} (hf : ∀ p, (f p).name = p.name) :
    firstFails (s.setPart r k f) root = firstFails s root := by
  simp only [firstFails, xbdDevFind_setPart hf]
  rfl

/-- The attach fails. -/
theorem xbdAttach_none {nBlks : Nat} (h : Alone s r) (hfail : firstFails s root = true) :
    ∃ s', xbdAttach s r k (partName root 1) blkSize nBlks = (s', none) ∧ Alone s' r := by
  rw [xbdAttach]
  split
  · exact ⟨s, rfl, h⟩
  · rename_i hlen
    split
    · exact ⟨s, rfl, h⟩
    · rename_i hfind
      have hfull : s.xbdDeviceList.findIdx? (· = none) = none := by
        simp only [firstFails, Bool.or_eq_true, decide_eq_true_eq, hlen, hfind, false_or,
          List.all_eq_true, Bool.false_eq_true] at hfail
        rw [List.findIdx?_eq_none_iff]
        intro slot hslot
        cases slot with
        | none => exact absurd (hfail none hslot) (by simp)
        | some ptr => simp
      simp only [hfull]
      exact ⟨_, rfl, h.setRecord fun record => rfl⟩

theorem detectLoop_fails (env : Env) (blkSize : Nat) {i : Nat} (es : List PartitionEntry)
    (h : Alone s r) (hfail : firstFails s root = true) :
    Alone (detectLoop env root blkSize r s i 0 es).1 r := by
  induction es generalizing s i with
  | nil => exact h
  | cons e es ih =>
    rw [detectLoop]
    split
    · exact ih (h.setRecord fun record => rfl)
        (Eq.trans (firstFails_setPart fun p => rfl) hfail)
    · have hpart : Alone (s.setPart r 0 (partOf e)) r := h.setRecord fun record => rfl
      have hfail' : firstFails (s.setPart r 0 (partOf e)) root = true :=
        Eq.trans (firstFails_setPart fun p => rfl) hfail
      obtain ⟨s', hattach, hs'⟩ := @xbdAttach_none _ root blkSize r 0 e.nSectors hpart hfail'
      have hentry : detectEntry env root blkSize r s i 0 e = (s', false) := by
        rw [detectEntry]
        simp only [Nat.zero_add, hattach]
      rw [hentry]
      exact hs'

/-! ## Events -/

/-- The state with a new record of a disk. -/
def pushed (s : State) (device : Nat) (freed : Bool) : State :=
  { s with records := s.records ++ [{ subDevice := device, freed := freed }] }

theorem pushed_found {device : Nat} {freed : Bool} (hr : s.records[r]? = some record) :
    (pushed s device freed).records[r]? = some record := by
  rw [pushed, List.getElem?_append_left (List.getElem?_eq_some_iff.1 hr).1]
  exact hr

theorem pushed_last {device : Nat} {freed : Bool} :
    (pushed s device freed).records[s.records.length]? =
      some { subDevice := device, freed := freed } := by
  simp [pushed]

namespace PartInv

theorem bound (h : PartInv s) (hd : s.deviceAt d = some (.part r i)) : r < s.records.length := by
  obtain ⟨record, hl⟩ := h.devices d r i hd
  exact (List.getElem?_eq_some_iff.1 hl.found).1

theorem pushed {device b : Nat} (h : PartInv s) (hdisk : s.deviceAt device = some (.disk b))
    (freed : Bool) : Alone (pushed s device freed) s.records.length := by
  refine ⟨⟨fun d r i hd => ?_, fun r record hr => ?_, h.handlers, h.primary, h.queue,
    fun t ht r i hvia => ?_, h.notCalled⟩, ⟨fun t ht i hvia => ?_⟩, by simp [Vmx.Xbd.pushed],
    fun d i hd => ?_⟩
  · obtain ⟨record, hl⟩ := h.devices d r i hd
    exact ⟨record, pushed_found hl.found, hl.notFreed, hl.index, hl.device, hl.name, hl.start,
      hl.blocks⟩
  · by_cases hlt : r < s.records.length
    · rw [Vmx.Xbd.pushed, List.getElem?_append_left hlt] at hr
      exact h.disks r record hr
    · have hlast : r = s.records.length := by
        have := (List.getElem?_eq_some_iff.1 hr).1
        simp only [Vmx.Xbd.pushed, List.length_append, List.length_singleton] at this
        omega
      subst hlast
      rw [pushed_last, Option.some.injEq] at hr
      subst hr
      exact ⟨b, hdisk⟩
  · obtain ⟨record, hr, hrest⟩ := h.inside t ht r i hvia
    exact ⟨record, pushed_found hr, hrest⟩
  · obtain ⟨record, hr, _⟩ := h.inside t ht _ i hvia
    have := (List.getElem?_eq_some_iff.1 hr).1
    omega
  · have := h.bound hd
    omega

/-- A new record has no names yet. -/
theorem xbdDevFind_pushed (h : PartInv s) (device : Nat) (freed : Bool) :
    xbdDevFind (Vmx.Xbd.pushed s device freed) name = xbdDevFind s name := by
  have hname : ∀ d ptr, s.deviceAt d = some ptr →
      (Vmx.Xbd.pushed s device freed).nameAt ptr = s.nameAt ptr := by
    intro d ptr hd
    cases ptr with
    | disk b => rfl
    | part r i =>
      obtain ⟨record, hl⟩ := h.devices d r i hd
      simp only [State.nameAt, State.partAt, pushed_found hl.found, hl.found]
  rw [Bool.eq_iff_iff, xbdDevFind_iff, xbdDevFind_iff]
  constructor
  · rintro ⟨d, ptr, hd, hn⟩
    exact ⟨d, ptr, hd, by rw [← hname d ptr hd, hn]⟩
  · rintro ⟨d, ptr, hd, hn⟩
    exact ⟨d, ptr, hd, by rw [hname d ptr hd, hn]⟩

end PartInv

/-- What `roomForAll` checks is room for the whole table. -/
theorem roomFrom_of_roomForAll {device : Nat} {table : PartTable} (h : PartInv s)
    (hroom : roomForAll env s root table = true) :
    RoomFrom env (pushed s device false) root 0 0 (List.ofFn table) := by
  simp only [roomForAll, Bool.and_eq_true, decide_eq_true_eq, List.all_eq_true, List.mem_range,
    Bool.not_eq_true'] at hroom
  obtain ⟨⟨⟨⟨hshort, hslots⟩, hnames⟩, hmem⟩, hqueue⟩ := hroom
  rw [partName_length (by decide)] at hshort
  have hfew : (nonempty (List.ofFn table)).length ≤ 4 := by
    have := List.length_filter_le (fun e : PartitionEntry => decide (e.nSectors ≠ 0))
      (List.ofFn table)
    rw [List.length_ofFn] at this
    exact this
  refine ⟨by omega, by omega, hslots, fun j _ hj => ?_, fun j _ hj => ?_, hqueue⟩
  · rw [h.xbdDevFind_pushed]
    exact hnames j (by omega)
  · rw [List.length_ofFn] at hj
    exact hmem j (by omega)

/-- A detection that is all right keeps the invariant. -/
theorem xbdPartitionsDetect_inv {device : Nat} (h : PartInv s) {ptr : XbdPtr}
    (hptr : s.deviceAt device = some ptr) (hroot : (rootName (s.nameAt ptr)).isSome = true)
    (hok : detectOk env s device = true) : PartInv (xbdPartitionsDetect env s device).1 := by
  obtain ⟨root, hroot⟩ := Option.isSome_iff_exists.1 hroot
  -- the device is a disk: a partition has no name of that form
  obtain ⟨b, rfl⟩ : ∃ b, ptr = .disk b := by
    cases ptr with
    | disk b => exact ⟨b, rfl⟩
    | part r i =>
      obtain ⟨record, hl⟩ := h.devices device r i hptr
      simp [State.nameAt, State.partAt, hl.found, hl.name] at hroot
  rw [xbdPartitionsDetect]
  simp only [hptr]
  split
  · split
    · exact (h.pushed hptr true).inv
    · rename_i table htable
      have hpush := h.pushed hptr false
      simp only [hroot]
      simp only [detectOk, hptr, htable, hroot, Bool.or_eq_true] at hok
      by_cases hfail : firstFails s root = true
      · have hfail' : firstFails (pushed s device false) root = true := by
          simp only [firstFails, h.xbdDevFind_pushed]
          exact hfail
        have halone := detectLoop_fails env (s.blkSizeAt (.disk b)) (i := 0) (List.ofFn table)
          hpush hfail'
        rw [pushed] at halone
        generalize detectLoop env root (s.blkSizeAt (.disk b)) s.records.length
          { s with records := s.records ++ [{ subDevice := device }] } 0 0
          (List.ofFn table) = res at halone ⊢
        obtain ⟨s2, _ | n⟩ := res
        · exact (halone.setRecord (f := fun record => { record with freed := true })
            fun record => rfl).inv
        · exact halone.inv
      · obtain ⟨s2, n, hloop, hinv⟩ := detectLoop_room (s.blkSizeAt (.disk b))
          hpush.inv hpush.unused pushed_last rfl rfl
          (roomFrom_of_roomForAll h (hok.resolve_left hfail))
        rw [pushed] at hloop
        rw [hloop]
        exact hinv
  · exact h

/-- Raising an event keeps the invariant. -/
theorem msgQSend_inv (h : PartInv s) (type : EventType) (device : Nat) :
    PartInv ((msgQSend s (.event type device)).getD s) := by
  rw [msgQSend]
  split
  · refine h.setQueue fun m hm => ?_
    obtain hm | hm := List.mem_append.1 hm
    · exact h.queue m hm
    · exact ⟨type, device, List.mem_singleton.1 hm⟩
  · exact h

theorem xbdPartitionHandler_inv (h : PartInv s) {type : EventType} {device : Nat}
    (hok : type = .primaryInsert → detectOk env s device = true) :
    PartInv (xbdPartitionHandler env s type device) := by
  rw [xbdPartitionHandler]
  split
  · rename_i htype
    split
    · exact h
    · rename_i ptr hptr
      split
      · rename_i hroot
        have hinv := xbdPartitionsDetect_inv h hptr hroot (hok htype)
        generalize xbdPartitionsDetect env s device = res at hinv ⊢
        obtain ⟨s2, _ | _ | n⟩ := res
        · exact msgQSend_inv hinv _ _
        · exact msgQSend_inv hinv _ _
        · exact hinv
      · exact h
  · exact h

theorem foldl_fixed {α : Type} {f : State → α → State} {l : List α} (h : ∀ a ∈ l, f s a = s) :
    l.foldl f s = s := by
  induction l with
  | nil => rfl
  | cons a l ih =>
    rw [List.foldl_cons, h a List.mem_cons_self]
    exact ih fun b hb => h b (List.mem_cons_of_mem a hb)

/-- A handler that is not meant does nothing. -/
theorem xbdPartitionEject_other {device : Nat} (hrec : s.records[r]? = some record)
    (hfreed : record.freed = false) (hne : (record.xbdParts i).device ≠ some device) :
    xbdPartitionEject env s device r i = s := by
  rw [xbdPartitionEject]
  simp only [hrec, hfreed, Bool.or_false, if_pos hne]

/-- An event that is all right calls no handler that changes anything, but for a detection. -/
theorem callHandler_fixed {type : EventType} {device : Nat} {h' : Handler} (h : PartInv s)
    (hmem : h' ∈ s.handlers type) (hkeeps : keepsPartitions s type device = true)
    (htype : type ≠ .primaryInsert ∨ h'.func ≠ .xbdPartitionHandler) :
    callHandler env type device s h' = s := by
  obtain ⟨func, data⟩ := h'
  cases func with
  | xbdPartitionHandler =>
    simp only [ne_eq, not_true_eq_false, or_false] at htype
    simp [callHandler, xbdPartitionHandler, htype]
  | xbdPartitionEject =>
    obtain ⟨r, i, d, hdata, hd⟩ := h.handlers type _ hmem rfl
    simp only at hdata
    subst hdata
    obtain ⟨record, hl⟩ := h.devices d r i hd
    have hother := List.all_eq_true.1 hkeeps _ hmem
    simp only [Option.any_some, State.partAt, hl.found, Option.map_some] at hother
    refine xbdPartitionEject_other hl.found hl.notFreed fun heq => ?_
    simp [heq] at hother
  | device d => rfl
  | other n => rfl

theorem erfProcess_inv (h : PartInv s) {type : EventType} {device : Nat}
    (hok : eventOk env s type device = true) : PartInv (erfProcess env type device s) := by
  simp only [eventOk, Bool.and_eq_true, Bool.or_eq_true] at hok
  obtain ⟨hkeeps, hdetect⟩ := hok
  rw [erfProcess]
  by_cases htype : type = .primaryInsert
  · obtain ⟨others, hlist⟩ := h.primary
    subst htype
    rw [hlist, List.foldl_cons, foldl_fixed]
    · exact xbdPartitionHandler_inv h fun _ => hdetect.resolve_left (by simp)
    · intro a ha
      obtain ⟨n, _, rfl⟩ := List.mem_map.1 ha
      rfl
  · rw [foldl_fixed fun h' hh' => callHandler_fixed h hh' hkeeps (.inl htype)]
    exact h

/-! ## Requests -/

/-- New transfers keep the invariant when they are inside their partition. -/
theorem PartInv.logTransfers {device : Nat} {ts : List (Nat × Nat × Nat)} (h : PartInv s)
    (hts : ∀ r i record, s.deviceAt device = some (.part r i) → s.records[r]? = some record →
      ∀ t ∈ ts, t.1 = record.subDevice ∧ (record.xbdParts i).startBlock ≤ t.2.1 ∧
        t.2.1 + t.2.2 ≤ (record.xbdParts i).startBlock + (record.xbdParts i).nBlocks) :
    PartInv (logTransfers s device ts) where
  devices d r i hd := by
    obtain ⟨record, hl⟩ := h.devices d r i hd
    exact ⟨record, hl.found, hl.notFreed, hl.index, hl.device, hl.name, hl.start, hl.blocks⟩
  disks := h.disks
  handlers := h.handlers
  primary := h.primary
  queue := h.queue
  inside t ht := by
    obtain ht | ht := List.mem_append.1 ht
    · exact h.inside t ht
    · obtain ⟨t', ht', rfl⟩ := List.mem_map.1 ht
      intro r i hvia
      simp only [State.viaOf] at hvia
      split at hvia
      · rename_i r' i' hd
        obtain ⟨rfl, rfl⟩ : r' = r ∧ i' = i := by simpa using hvia
        obtain ⟨record, hl⟩ := h.devices device r' i' hd
        exact ⟨record, hl.found, hts r' i' record hd hl.found t' ht'⟩
      · simp at hvia
  notCalled := h.notCalled

/-- The blocks of a request that is all right are inside the partition. -/
theorem requestOk_inside {device blkno bytes b : Nat} (hl : Live s device r i record)
    (hd : s.deviceAt device = some (.part r i))
    (hdisk : s.deviceAt record.subDevice = some (.disk b))
    (hok : requestOk s device blkno bytes = true) :
    (record.xbdParts i).startBlock ≤ u64 (blkno + (record.xbdParts i).startBlock) ∧
      u64 (blkno + (record.xbdParts i).startBlock) + bytes / s.blkSizeAt (.disk b) ≤
        (record.xbdParts i).startBlock + (record.xbdParts i).nBlocks := by
  simp only [requestOk, hd, hl.found, hdisk, decide_eq_true_eq] at hok
  have hstart := hl.start
  have hblocks := hl.blocks
  generalize bytes / s.blkSizeAt (.disk b) = count at hok ⊢
  have hsum : u64 (blkno + (record.xbdParts i).startBlock) =
      blkno + (record.xbdParts i).startBlock := Nat.mod_eq_of_lt (by omega)
  rw [hsum]
  omega

/-- What a request through a partition asks the disk for. -/
theorem xbdStrategy_part {device b fuel : Nat} {bios : List Bio}
    (hd : s.deviceAt device = some (.part r i)) (hrec : s.records[r]? = some record)
    (hdisk : s.deviceAt record.subDevice = some (.disk b)) {t : Nat × Nat × Nat}
    (ht : t ∈ (xbdStrategy s fuel device bios).getD []) :
    ∃ bio ∈ bios, t = (record.subDevice, u64 (bio.bio_blkno + (record.xbdParts i).startBlock),
      bio.bio_bcount / s.blkSizeAt (.disk b)) := by
  match fuel with
  | 0 => simp [xbdStrategy] at ht
  | 1 => simp [xbdStrategy, hd, hrec] at ht
  | n + 2 =>
    simp only [xbdStrategy, hd, hrec, hdisk, Option.getD_some, List.map_map] at ht
    obtain ⟨bio, hbio, rfl⟩ := List.mem_map.1 ht
    exact ⟨bio, hbio, rfl⟩

theorem xbdDump_part {device b fuel lblkno nBytes : Nat}
    (hd : s.deviceAt device = some (.part r i)) (hrec : s.records[r]? = some record)
    (hdisk : s.deviceAt record.subDevice = some (.disk b)) {t : Nat × Nat × Nat}
    (ht : t ∈ (xbdDump s fuel device lblkno nBytes).toList) :
    ¬ (record.xbdParts i).nBlocks < lblkno ∧
      t = (record.subDevice, u64 (lblkno + (record.xbdParts i).startBlock),
        nBytes / s.blkSizeAt (.disk b)) := by
  match fuel with
  | 0 => simp [xbdDump] at ht
  | 1 =>
    simp only [xbdDump, hd, hrec] at ht
    split at ht
    · simp at ht
    · simp at ht
  | n + 2 =>
    simp only [xbdDump, hd, hrec, hdisk] at ht
    split at ht
    · simp at ht
    · rename_i hlt
      exact ⟨hlt, by simpa using ht⟩

/-! ## Runs -/

/-- A good step keeps the invariant. -/
theorem step_inv {l : Label} (h : PartInv s) (hgood : goodStep s l = true)
    (hstep : step s l = some s') : PartInv s' := by
  cases l with
  | strategy device bios =>
    cases hstep
    refine h.logTransfers fun r i record hd hrec t ht => ?_
    obtain ⟨record', hl⟩ := h.devices device r i hd
    obtain rfl : record = record' := by simpa [hrec] using hl.found
    obtain ⟨b, hdisk⟩ := h.disks r record hrec
    obtain ⟨bio, hbio, rfl⟩ := xbdStrategy_part hd hrec hdisk ht
    exact ⟨rfl, requestOk_inside hl hd hdisk (List.all_eq_true.1 hgood bio hbio)⟩
  | dump device lblkno nBytes =>
    cases hstep
    refine h.logTransfers fun r i record hd hrec t ht => ?_
    obtain ⟨record', hl⟩ := h.devices device r i hd
    obtain rfl : record = record' := by simpa [hrec] using hl.found
    obtain ⟨b, hdisk⟩ := h.disks r record hrec
    obtain ⟨hlt, rfl⟩ := xbdDump_part hd hrec hdisk ht
    refine ⟨rfl, requestOk_inside hl hd hdisk ?_⟩
    simp only [goodStep, Bool.or_eq_true] at hgood
    refine hgood.resolve_left fun hrefused => hlt ?_
    simpa [dumpRefused, hd, State.partAt, hrec] using hrefused
  | raise type device =>
    cases hstep
    exact msgQSend_inv h type device
  | raiseSync env type device =>
    cases hstep
    exact erfProcess_inv h hgood
  | erfTask env =>
    simp only [step] at hstep
    split at hstep
    · simp at hstep
    · rename_i type device rest hq
      cases hstep
      simp only [goodStep, hq] at hgood
      exact erfProcess_inv (h.setQueue fun m hm => h.queue m (by
        rw [hq]
        exact List.mem_cons_of_mem _ hm)) hgood
    · rename_i type h' rest hq
      obtain ⟨type', device', heq⟩ := h.queue (.unregister type h') (by simp [hq])
      simp at heq

theorem init_deviceAt {maxXbds : Nat} {disks : List Disk} {others : EventType → List Nat}
    {ptr : XbdPtr} (h : (init maxXbds disks others).deviceAt d = some ptr) : ptr = .disk d := by
  rw [deviceAt_eq_some, init, List.getElem?_map] at h
  obtain ⟨d', hd', heq⟩ := Option.map_eq_some_iff.1 h
  obtain ⟨hlt, rfl⟩ := List.getElem?_eq_some_iff.1 hd'
  split at heq
  · simpa using heq.symm
  · simp at heq

theorem init_inv (maxXbds : Nat) (disks : List Disk) (others : EventType → List Nat) :
    PartInv (init maxXbds disks others) where
  devices d r i hd := by
    have := init_deviceAt hd
    simp at this
  disks r record hr := by
    simp [init] at hr
  handlers type h hh hfunc := by
    simp only [init, List.mem_append, List.mem_map] at hh
    obtain hh | ⟨n, _, rfl⟩ := hh
    · split at hh
      · obtain rfl := List.mem_singleton.1 hh
        simp at hfunc
      · simp at hh
    · simp at hfunc
  primary := ⟨others .primaryInsert, by simp [init]⟩
  queue m hm := by simp [init] at hm
  inside t ht := by simp [init] at ht
  notCalled := rfl

/-- What is asked of every state: transfers stay in their partition, what is attached is in live
memory, an ejected partition has no handlers but for those that are asked to be unregistered, and
no handler has been called with a freed record. -/
structure Safe (s : State) : Prop where
  inside : ∀ t ∈ s.transfers, Inside s t
  attached : ∀ d r i, s.deviceAt d = some (.part r i) →
    ∃ record, s.records[r]? = some record ∧ record.freed = false
  unregistered : ∀ type r i, ⟨.xbdPartitionEject, some (r, i)⟩ ∈ s.handlers type →
    ∀ p, s.partAt r i = some p → p.device = none →
      .unregister type ⟨.xbdPartitionEject, some (r, i)⟩ ∈ s.erfMsgQ
  notCalled : s.calledFreed = false

theorem PartInv.safe (h : PartInv s) : Safe s where
  inside := h.inside
  attached d r i hd := by
    obtain ⟨record, hl⟩ := h.devices d r i hd
    exact ⟨record, hl.found, hl.notFreed⟩
  unregistered type r i hh p hp hnone := by
    obtain ⟨r', i', d, hdata, hd⟩ := h.handlers type _ hh rfl
    obtain ⟨rfl, rfl⟩ : r = r' ∧ i = i' := by simpa using hdata
    obtain ⟨record, hl⟩ := h.devices d r i hd
    simp only [State.partAt, hl.found, Option.map_some, Option.some.injEq] at hp
    subst hp
    have hdevice := hl.device
    rw [hnone] at hdevice
    simp at hdevice
  notCalled := h.notCalled

/-- Partitions are isolated, and outlived by nothing that refers to them, in every run in which
requests stay within their partition, no detection fails once a partition is attached, and no
partition is ejected. -/
theorem partitions_safe {maxXbds : Nat} {disks : List Disk} {others : EventType → List Nat}
    {ls : List Label} (hgood : AllSteps step (fun s l => goodStep s l = true)
      (init maxXbds disks others) ls)
    (hrun : exec step (init maxXbds disks others) ls = some s) : Safe s :=
  (exec_invariant_of (fun _ _ _ h hgood hstep => step_inv h hgood hstep)
    (init_inv maxXbds disks others) hgood hrun).safe

/-! ## Runs that are not safe -/

/-- A disk of 1000 blocks whose name admits partitions. -/
def disk0 : Disk := ⟨"/ata:0".toList, 512, 1000, by decide⟩

/-- A table with partitions of 100 and of 200 blocks. -/
def table0 : PartTable := fun i =>
  if i = 0 then ⟨0, 0, 0, 0, 0, 0, 0, 0, 1, 100, by decide, by decide⟩
  else if i = 1 then ⟨0, 0, 0, 0, 0, 0, 0, 0, 102, 200, by decide, by decide⟩
  else ⟨0, 0, 0, 0, 0, 0, 0, 0, 0, 0, by decide, by decide⟩

/-- Nothing fails from outside. -/
def env0 : Env := ⟨true, true, some table0, fun _ => true, fun _ => true, fun _ _ => true⟩

/-- The partitions are found, and blocks of both are read. -/
def goodRun : List Label :=
  [.raise .primaryInsert 0, .erfTask env0, .strategy 1 [⟨10, 1024⟩, ⟨98, 1024⟩],
    .dump 2 199 512]

theorem partitions_safe_run : ∃ s, exec step (init 4 [disk0] fun _ => []) goodRun = some s ∧
    s.transfers.length = 3 ∧ Safe s := by
  have hrun : ∃ s, exec step (init 4 [disk0] fun _ => []) goodRun = some s ∧
      s.transfers.length = 3 := ⟨_, rfl, by decide⟩
  obtain ⟨s, hrun, hlen⟩ := hrun
  exact ⟨s, hrun, hlen, partitions_safe (by decide) hrun⟩

/-- A request for block 100 of a partition of 100 blocks reaches a block behind it; a detection
whose second handler finds no memory leaves the first partition attached in a freed record; and
after the only partition was ejected, the next event calls its handler with a freed record. -/
theorem partitions_not_safe :
    (∃ s, exec step (init 4 [disk0] fun _ => [])
      [.raise .primaryInsert 0, .erfTask env0, .strategy 1 [⟨100, 512⟩]] = some s ∧
      ¬ ∀ t ∈ s.transfers, Inside s t) ∧
    (∃ s, exec step (init 4 [disk0] fun _ => [])
      [.raise .primaryInsert 0, .erfTask { env0 with mallocRemove := (· ≠ 1) }] = some s ∧
      s.deviceAt 1 = some (.part 0 0) ∧ (s.records[0]?.map (·.freed)) = some true) ∧
    ∃ s, exec step (init 4 [disk0] fun _ => [])
      [.raise .primaryInsert 0, .erfTask env0, .raise .remove 1, .raise .remove 2,
        .raise .mediaChanged 0, .erfTask env0, .erfTask env0, .erfTask env0, .erfTask env0,
        .erfTask env0] = some s ∧ s.calledFreed = true := by
  refine ⟨?_, ⟨_, rfl, by decide, by decide⟩, ⟨_, rfl, by decide⟩⟩
  obtain ⟨s, hrun, ht, hpart⟩ : ∃ s, exec step (init 4 [disk0] fun _ => [])
      [.raise .primaryInsert 0, .erfTask env0, .strategy 1 [⟨100, 512⟩]] = some s ∧
      ⟨some (0, 0), 0, 101, 1⟩ ∈ s.transfers ∧
      (s.partAt 0 0).map (fun p => (p.startBlock, p.nBlocks)) = some (1, 100) :=
    ⟨_, rfl, by decide, by decide⟩
  refine ⟨s, hrun, fun h => ?_⟩
  obtain ⟨record, hrec, _, _, hle⟩ := h _ ht 0 0 rfl
  simp only [State.partAt, hrec, Option.map_some, Option.some.injEq, Prod.mk.injEq] at hpart
  have hsum : 101 + 1 ≤ _ := hle
  omega

end Vmx.Xbd
