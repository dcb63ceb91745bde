import Vmx.Net.SbLib

/-!
# Runs of a socket buffer

`Intact` says what the counters are, and `effect` what a call does to the bytes of the records.
-/

namespace Vmx.Sb

open Lib

/-! ## Bytes and storage -/

/-- The bytes of a chain. -/
def bytes (r : List Mbuf) : List UInt8 := r.flatMap Mbuf.data

/-- The sum of `m_len`. -/
def total (r : List Mbuf) : Nat := (r.map Mbuf.len).sum

/-- The storage of a chain. -/
def stored (r : List Mbuf) : Nat := (r.map fun m => 36 + m.extSize).sum

/-- An mbuf with a cluster around its bytes. -/
def Mbuf.Ok (m : Mbuf) : Prop := m.ext = true ∧ m.lead + m.len ≤ m.extSize

instance (m : Mbuf) : Decidable m.Ok := inferInstanceAs (Decidable (_ ∧ _))

section Chains

variable {r r' : List Mbuf} {m : Mbuf}

@[simp] theorem bytes_nil : bytes [] = [] := rfl
@[simp] theorem total_nil : total [] = 0 := rfl
@[simp] theorem stored_nil : stored [] = 0 := rfl

@[simp] theorem bytes_cons : bytes (m :: r) = m.data ++ bytes r := rfl
@[simp] theorem total_cons : total (m :: r) = m.len + total r := rfl
@[simp] theorem stored_cons : stored (m :: r) = 36 + m.extSize + stored r := rfl

@[simp] theorem bytes_append : bytes (r ++ r') = bytes r ++ bytes r' := List.flatMap_append

@[simp] theorem total_append : total (r ++ r') = total r + total r' := by
  simp [total]

@[simp] theorem stored_append : stored (r ++ r') = stored r + stored r' := by
  simp [stored]

theorem bytes_length (r : List Mbuf) : (bytes r).length = total r := by
  induction r with
  | nil => rfl
  | cons m r ih => simp [ih, Mbuf.len]

theorem total_le_stored (h : ∀ m ∈ r, m.Ok) : total r ≤ stored r := by
  induction r with
  | nil => simp
  | cons m r ih =>
    have hm := (h m List.mem_cons_self).2
    have hr := ih fun m hm => h m (List.mem_cons_of_mem _ hm)
    simp only [total_cons, stored_cons]
    omega

theorem storage_eq (h : m.ext = true) : storage m = UInt32.ofNat (36 + m.extSize) := by
  rw [storage, if_pos h, UInt32.ofNat_add, MSIZE]
  rfl

end Chains

/-! ## `sbcompress` -/

/-- What the loop of `sbcompress` makes of a chain. -/
structure Compressed (sb : Sockbuf) (chain : List Mbuf) (eor : Bool) (ms : List Mbuf)
    (r : Sockbuf × List Mbuf × Bool) : Prop where
  same : r.1.records = sb.records ∧ r.1.hiwat = sb.hiwat ∧ r.1.mbmax = sb.mbmax
  cc : r.1.cc = sb.cc + UInt32.ofNat (total ms)
  mbcnt : r.1.mbcnt + UInt32.ofNat (stored chain) = sb.mbcnt + UInt32.ofNat (stored r.2.1)
  bytes : bytes r.2.1 = bytes chain ++ Sb.bytes ms
  stored : stored r.2.1 ≤ stored chain + Sb.stored ms
  ok : (∀ m ∈ chain, m.Ok) → ∀ m ∈ r.2.1, m.Ok
  noEor : (∀ m ∈ chain, m.eor = false) → ∀ m ∈ r.2.1, m.eor = false
  eor : r.2.2 = (eor || ms.any Mbuf.eor)
  kept : chain ≠ [] → r.2.1 ≠ []
  needed : ms ≠ [] → r.2.2 = true → r.2.1 ≠ []
  needless : chain = [] → Sb.bytes ms = [] → r.2.2 = false → r.2.1 = []

section Compress

variable {sb : Sockbuf} {chain rest : List Mbuf} {eor : Bool} {m : Mbuf}

theorem addBytes_concat (chain : List Mbuf) (n : Mbuf) (data : List UInt8) :
    addBytes (chain ++ [n]) data = chain ++ [{ n with data := n.data ++ data }] := by
  simp [addBytes]

theorem markEor_concat (chain : List Mbuf) (n : Mbuf) :
    markEor (chain ++ [n]) = chain ++ [{ n with eor := true }] := by
  simp [markEor]

theorem compressLoop_spec (hms : ∀ m ∈ rest, m.Ok) :
    Compressed sb chain eor rest (compressLoop sb chain eor rest) := by
  induction rest generalizing sb chain eor with
  | nil =>
    exact ⟨⟨rfl, rfl, rfl⟩, by simp [compressLoop], by simp [compressLoop], by simp [compressLoop],
      by simp [compressLoop], id, id, by simp [compressLoop], id, fun h => absurd rfl h,
      fun h _ _ => h⟩
  | cons m rest ih =>
    have hm := hms m List.mem_cons_self
    have hrest := fun m hm => hms m (List.mem_cons_of_mem _ hm)
    have hlen : m.len = m.data.length := rfl
    rw [compressLoop]
    split
    next hneedless =>
      rw [Sb.needless, Bool.and_eq_true, List.isEmpty_iff] at hneedless
      obtain ⟨hempty, hmark⟩ := hneedless
      have h := @ih sb chain (eor || m.eor) hrest
      generalize compressLoop sb chain (eor || m.eor) rest = r at h
      refine ⟨h.same, ?_, h.mbcnt, ?_, ?_, h.ok, h.noEor, ?_, h.kept, fun _ heor => ?_, ?_⟩
      · rw [h.cc, total_cons, hlen, hempty, List.length_nil, Nat.zero_add]
      · rw [h.bytes, bytes_cons, hempty, List.nil_append]
      · have := h.stored
        rw [stored_cons]
        omega
      · rw [h.eor, List.any_cons, Bool.or_assoc]
      · cases rest with
        | cons o rest => exact h.needed (List.cons_ne_nil _ _) heor
        | nil =>
          cases chain with
          | cons c chain => exact h.kept (List.cons_ne_nil _ _)
          | nil =>
            have hfalse : (eor || m.eor) = false := by simpa using hmark
            rw [h.eor, hfalse] at heor
            exact nomatch heor
      · intro hchain hbytes heor
        rw [bytes_cons, hempty, List.nil_append] at hbytes
        exact h.needless hchain hbytes heor
    next hneeded =>
      split
      next hcopies =>
        rcases List.eq_nil_or_concat chain with rfl | ⟨chain, n, rfl⟩
        · exact nomatch hcopies
        rw [List.concat_eq_append] at *
        rw [List.getLast?_concat, copies, Option.any_some] at hcopies
        simp only [Bool.and_eq_true, Bool.not_eq_true', decide_eq_true_iff, beq_iff_eq] at hcopies
        obtain ⟨⟨⟨hn, hsmall⟩, hroom⟩, _⟩ := hcopies
        rw [addBytes_concat]
        obtain ⟨n', hn'⟩ : ∃ n', n' = { n with data := n.data ++ m.data } := ⟨_, rfl⟩
        have hnlen : n'.len = n.len + m.len := by
          rw [hn', Mbuf.len, List.length_append]
          rfl
        have hnsize : n'.extSize = n.extSize := by rw [hn']
        rw [← hn']
        have h := @ih { sb with cc := sb.cc + UInt32.ofNat m.len } (chain ++ [n']) (eor || m.eor) hrest
        generalize compressLoop _ (chain ++ [n']) (eor || m.eor) rest = r at h
        refine ⟨h.same, ?_, ?_, ?_, ?_, fun hok => h.ok fun c hc => ?_,
          fun hno => h.noEor fun c hc => ?_, ?_, fun _ => h.kept (by simp),
          fun _ _ => h.kept (by simp), fun hchain => absurd hchain (by simp)⟩
        · rw [h.cc, total_cons, UInt32.ofNat_add, UInt32.add_assoc]
        · have hmbcnt := h.mbcnt
          simp only [stored_append, stored_cons, hnsize] at hmbcnt ⊢
          exact hmbcnt
        · rw [h.bytes, hn']
          simp
        · have := h.stored
          simp only [stored_append, stored_cons, hnsize] at this ⊢
          omega
        · rcases List.mem_append.1 hc with hc | hc
          · exact hok c (List.mem_append_left _ hc)
          · obtain rfl := List.mem_singleton.1 hc
            have hnok := hok n (by simp)
            refine ⟨by rw [hn']; exact hnok.1, ?_⟩
            rw [hnlen, hnsize, show c.lead = n.lead by rw [hn']]
            omega
        · rcases List.mem_append.1 hc with hc | hc
          · exact hno c (List.mem_append_left _ hc)
          · obtain rfl := List.mem_singleton.1 hc
            rw [hn']
            exact hn
        · rw [h.eor, List.any_cons, Bool.or_assoc]
      next =>
        obtain ⟨m', hm'⟩ : ∃ m', m' = { m with eor := false } := ⟨_, rfl⟩
        have hmlen : m'.len = m.len := by rw [hm', Mbuf.len, Mbuf.len]
        have hmsize : m'.extSize = m.extSize := by rw [hm']
        rw [← hm']
        have h := @ih (sballoc sb m) (chain ++ [m']) (eor || m.eor) hrest
        generalize compressLoop _ (chain ++ [m']) (eor || m.eor) rest = r at h
        refine ⟨h.same, ?_, ?_, ?_, ?_, fun hok => h.ok fun c hc => ?_,
          fun hno => h.noEor fun c hc => ?_, ?_, fun _ => h.kept (by simp),
          fun _ _ => h.kept (by simp), fun hchain hbytes heor => ?_⟩
        · rw [h.cc, total_cons, UInt32.ofNat_add, ← UInt32.add_assoc]
          rfl
        · have hmbcnt := h.mbcnt
          have halloc : (sballoc sb m).mbcnt = sb.mbcnt + UInt32.ofNat (36 + m.extSize) := by
            rw [← storage_eq hm.1]
            rfl
          simp only [stored_append, stored_cons, stored_nil, hmsize, halloc, Nat.add_zero,
            UInt32.ofNat_add (stored chain)] at hmbcnt
          grind
        · rw [h.bytes, hm']
          simp
        · have := h.stored
          simp only [stored_append, stored_cons, stored_nil, hmsize] at this ⊢
          omega
        · rcases List.mem_append.1 hc with hc | hc
          · exact hok c hc
          · obtain rfl := List.mem_singleton.1 hc
            refine ⟨by rw [hm']; exact hm.1, ?_⟩
            rw [hmlen, hmsize, show c.lead = m.lead by rw [hm']]
            exact hm.2
        · rcases List.mem_append.1 hc with hc | hc
          · exact hno c hc
          · obtain rfl := List.mem_singleton.1 hc
            rw [hm']
        · rw [h.eor, List.any_cons, Bool.or_assoc]
        · rw [bytes_cons, List.append_eq_nil_iff] at hbytes
          have hfalse : (eor || m.eor) = false := by
            have hr := h.eor
            rw [heor] at hr
            exact (Bool.or_eq_false_iff.1 hr.symm).1
          refine absurd ?_ hneeded
          rw [Sb.needless, hbytes.1, hfalse]
          rfl

theorem markEor_spec (chain : List Mbuf) :
    bytes (markEor chain) = bytes chain ∧ stored (markEor chain) = stored chain ∧
      ((∀ m ∈ chain, m.Ok) → ∀ m ∈ markEor chain, m.Ok) ∧ (markEor chain = [] ↔ chain = []) ∧
      (chain ≠ [] → (markEor chain).any Mbuf.eor = true) := by
  rcases List.eq_nil_or_concat chain with rfl | ⟨chain, n, rfl⟩
  · exact ⟨rfl, rfl, id, Iff.rfl, fun h => absurd rfl h⟩
  · rw [List.concat_eq_append, markEor_concat]
    refine ⟨by simp, by simp, fun hok m hm => ?_, by simp, fun _ => by simp⟩
    rcases List.mem_append.1 hm with hm | hm
    · exact hok m (List.mem_append_left _ hm)
    · obtain rfl := List.mem_singleton.1 hm
      exact hok n (by simp)

end Compress

/-! ## Records -/

/-- The bytes of each record, and whether it is ended. -/
def view (records : List (List Mbuf)) : List (List UInt8 × Bool) :=
  records.map fun r => (bytes r, r.any Mbuf.eor)

/-- The bytes go to the last record, or make a record when it is ended. -/
def extend (v : List (List UInt8 × Bool)) (bytes : List UInt8) (eor : Bool) :
    List (List UInt8 × Bool) :=
  match v.getLast? with
  | none => if bytes = [] ∧ eor = false then [] else [(bytes, eor)]
  | some (last, false) => v.dropLast ++ [(last ++ bytes, eor)]
  | some (_, true) => v ++ [(bytes, eor)]

/-- The counters count the mbufs of all records. -/
structure Intact (sb : Sockbuf) : Prop where
  cc : sb.cc.toNat = total sb.records.flatten
  mbcnt : sb.mbcnt.toNat = stored sb.records.flatten
  nonempty : ∀ r ∈ sb.records, r ≠ []

structure Ok (sb : Sockbuf) : Prop where
  cc : sb.cc = UInt32.ofNat (total sb.records.flatten)
  mbcnt : sb.mbcnt = UInt32.ofNat (stored sb.records.flatten)
  nonempty : ∀ r ∈ sb.records, r ≠ []
  mbufs : ∀ m ∈ sb.records.flatten, m.Ok
  bound : stored sb.records.flatten < 2147483648

theorem Ok.intact {sb : Sockbuf} (h : Ok sb) : Intact sb where
  cc := by
    have := total_le_stored h.mbufs
    have := h.bound
    rw [h.cc, UInt32.toNat_ofNat_of_lt' (by rw [UInt32.size]; omega)]
  mbcnt := by
    have := h.bound
    rw [h.mbcnt, UInt32.toNat_ofNat_of_lt' (by rw [UInt32.size]; omega)]
  nonempty := h.nonempty

section Records

variable {sb : Sockbuf} {ms : List Mbuf}

/-- The records are the last one and those before. -/
theorem records_eq (h : ∀ r ∈ sb.records, r ≠ []) :
    sb.records = [] ∧ sb.lastRecord = [] ∨
      ∃ last, sb.lastRecord = last ∧ last ≠ [] ∧ sb.records = sb.records.dropLast ++ [last] := by
  rcases List.eq_nil_or_concat sb.records with hnil | ⟨front, last, hrec⟩
  · left
    rw [Sockbuf.lastRecord, hnil]
    exact ⟨rfl, rfl⟩
  · right
    rw [List.concat_eq_append] at hrec
    refine ⟨last, ?_, h last (by rw [hrec]; simp), ?_⟩
    · rw [Sockbuf.lastRecord, hrec, List.getLast?_concat]
      rfl
    · rw [hrec, List.dropLast_concat]

theorem flatten_eq (h : ∀ r ∈ sb.records, r ≠ []) :
    sb.records.flatten = sb.records.dropLast.flatten ++ sb.lastRecord := by
  rcases records_eq h with ⟨hnil, hlast⟩ | ⟨last, hlast, _, hrec⟩
  · rw [hnil, hlast]
    rfl
  · rw [hlast]
    nth_rewrite 1 [hrec]
    simp

theorem flatten_setLastRecord (sb : Sockbuf) (chain : List Mbuf) :
    (sb.setLastRecord chain).records.flatten = sb.records.dropLast.flatten ++ chain := by
  unfold Sockbuf.setLastRecord
  by_cases h : chain = []
  · simp [h]
  · simp [h]

/-- `sbcompress` of a chain, when the last record is not ended. -/
theorem sbcompress_spec (h : Ok sb) (hms : ∀ m ∈ ms, m.Ok) (hne : ms ≠ [])
    (hbound : stored sb.records.flatten + stored ms < 2147483648)
    (heor : ∀ m ∈ sb.lastRecord, m.eor = false) :
    Ok (sbcompress sb ms) ∧
      view (sbcompress sb ms).records = extend (view sb.records) (bytes ms) (ms.any Mbuf.eor) := by
  have hc : Compressed sb sb.lastRecord false ms (compressLoop sb sb.lastRecord false ms) :=
    compressLoop_spec hms
  unfold sbcompress
  generalize compressLoop sb sb.lastRecord false ms = r at hc
  obtain ⟨sb1, chain, eor⟩ := r
  dsimp only
  obtain ⟨hrecords, _, _⟩ := hc.same
  dsimp only at hrecords
  have heor1 : eor = ms.any Mbuf.eor := hc.eor
  obtain ⟨hmbytes, hmstored, hmok, hmnil, hmeor⟩ := markEor_spec chain
  obtain ⟨chain1, hchain1⟩ : ∃ c, c = if eor = true then markEor chain else chain := ⟨_, rfl⟩
  rw [← hchain1]
  have hflat := flatten_eq h.nonempty
  have hbytes : bytes chain1 = bytes sb.lastRecord ++ bytes ms := by
    have := hc.bytes
    rw [hchain1]
    split
    · exact hmbytes.trans this
    · exact this
  have hstored : stored chain1 = stored chain := by
    rw [hchain1]
    split
    · exact hmstored
    · rfl
  have hany : chain1 ≠ [] → chain1.any Mbuf.eor = eor := by
    rw [hchain1]
    split
    next htrue =>
      intro hne
      rw [htrue]
      exact hmeor fun hnil => hne (hmnil.2 hnil)
    next hfalse =>
      intro _
      rw [Bool.eq_false_iff.2 hfalse, List.any_eq_false]
      intro m hm
      rw [hc.noEor heor m hm]
      exact Bool.false_ne_true
  have hnil : chain1 = [] ↔ chain = [] := by
    rw [hchain1]
    split
    · exact hmnil
    · exact Iff.rfl
  have htotal : total chain1 = total sb.lastRecord + total ms := by
    rw [← bytes_length, hbytes, List.length_append, bytes_length, bytes_length]
  have hflat1 := flatten_setLastRecord sb1 chain1
  rw [hrecords] at hflat1
  refine ⟨?_, ?_⟩
  · constructor
    case cc =>
      rw [hflat1, total_append, htotal, ← Nat.add_assoc, ← total_append, ← hflat, UInt32.ofNat_add,
        ← h.cc]
      exact hc.cc
    case mbcnt =>
      have hm := hc.mbcnt
      have hsb := h.mbcnt
      rw [hflat, stored_append, UInt32.ofNat_add] at hsb
      rw [hflat1, stored_append, hstored, UInt32.ofNat_add]
      dsimp only at hm
      show sb1.mbcnt = _
      grind
    case nonempty =>
      intro r hr
      unfold Sockbuf.setLastRecord at hr
      rcases List.mem_append.1 hr with hr | hr
      · rw [hrecords] at hr
        exact h.nonempty r ((List.dropLast_sublist _).subset hr)
      · split at hr
        · exact nomatch hr
        · obtain rfl := List.mem_singleton.1 hr
          assumption
    case mbufs =>
      intro m hm
      rw [hflat1] at hm
      have hold := h.mbufs
      rw [hflat] at hold
      rcases List.mem_append.1 hm with hm | hm
      · exact hold m (List.mem_append_left _ hm)
      · have hok := hc.ok fun m hm => hold m (List.mem_append_right _ hm)
        rw [hchain1] at hm
        split at hm
        · exact hmok hok m hm
        · exact hok m hm
    case bound =>
      have := hc.stored
      rw [hflat, stored_append] at hbound
      rw [hflat1, stored_append, hstored]
      dsimp only at this
      omega
  · unfold Sockbuf.setLastRecord
    rw [hrecords]
    rcases records_eq h.nonempty with ⟨hrnil, hlast⟩ | ⟨last, hlast, hlne, hrec⟩
    · rw [hlast, bytes_nil, List.nil_append] at hbytes
      rw [hrnil]
      unfold extend view
      simp only [List.dropLast_nil, List.nil_append, List.map_nil, List.getLast?_nil]
      rw [← heor1]
      by_cases hcnil : chain1 = []
      · have hbnil : bytes ms = [] := by
          rw [← hbytes, hcnil]
          rfl
        have hefalse : eor = false := by
          by_contra htrue
          exact hc.needed hne (Bool.not_eq_false _ ▸ htrue) (hnil.1 hcnil)
        rw [if_pos hcnil, if_pos ⟨hbnil, hefalse⟩]
        rfl
      · rw [if_neg hcnil, if_neg fun hempty => hcnil (hnil.2 (hc.needless hlast hempty.1 hempty.2)),
          List.map_singleton, hbytes, hany hcnil]
    · have hcne : chain1 ≠ [] := fun h => hc.kept (hlast ▸ hlne) (hnil.1 h)
      have hview : view sb.records = view sb.records.dropLast ++ [(bytes last, false)] := by
        nth_rewrite 1 [hrec]
        rw [view, List.map_append, List.map_singleton]
        congr 3
        rw [List.any_eq_false]
        intro m hm
        rw [heor m (hlast ▸ hm)]
        exact Bool.false_ne_true
      rw [if_neg hcne, hview, extend, List.getLast?_concat]
      dsimp only
      rw [List.dropLast_concat, view, List.map_append, List.map_singleton, hbytes, hany hcne, hlast,
        heor1]
      rfl

/-! ## Whole records -/

theorem foldl_sballoc (sb : Sockbuf) (hms : ∀ m ∈ ms, m.Ok) :
    (ms.foldl sballoc sb).records = sb.records ∧
      (ms.foldl sballoc sb).cc = sb.cc + UInt32.ofNat (total ms) ∧
      (ms.foldl sballoc sb).mbcnt = sb.mbcnt + UInt32.ofNat (stored ms) := by
  induction ms generalizing sb with
  | nil => simp
  | cons m ms ih =>
    have hm := hms m List.mem_cons_self
    obtain ⟨hrecords, hcc, hmbcnt⟩ := ih (sballoc sb m) fun m hm => hms m (List.mem_cons_of_mem _ hm)
    refine ⟨hrecords, ?_, ?_⟩
    · rw [List.foldl_cons, hcc, total_cons, UInt32.ofNat_add, ← UInt32.add_assoc]
      rfl
    · rw [List.foldl_cons, hmbcnt, stored_cons, UInt32.ofNat_add (36 + m.extSize), ← UInt32.add_assoc,
        ← storage_eq hm.1]
      rfl

/-- A record is put behind the others. -/
theorem Ok.concat {sb' : Sockbuf} (h : Ok sb) (chain : List Mbuf) (hne : chain ≠ [])
    (hms : ∀ m ∈ chain, m.Ok) (hbound : stored sb.records.flatten + stored chain < 2147483648)
    (hrecords : sb'.records = sb.records ++ [chain])
    (hcc : sb'.cc = sb.cc + UInt32.ofNat (total chain))
    (hmbcnt : sb'.mbcnt = sb.mbcnt + UInt32.ofNat (stored chain)) : Ok sb' := by
  have hflat : sb'.records.flatten = sb.records.flatten ++ chain := by
    rw [hrecords, List.flatten_concat]
  constructor
  case cc => rw [hcc, hflat, total_append, UInt32.ofNat_add, h.cc]
  case mbcnt => rw [hmbcnt, hflat, stored_append, UInt32.ofNat_add, h.mbcnt]
  case nonempty =>
    intro r hr
    rw [hrecords] at hr
    rcases List.mem_append.1 hr with hr | hr
    · exact h.nonempty r hr
    · obtain rfl := List.mem_singleton.1 hr
      exact hne
  case mbufs =>
    intro m hm
    rw [hflat] at hm
    rcases List.mem_append.1 hm with hm | hm
    · exact h.mbufs m hm
    · exact hms m hm
  case bound =>
    rw [hflat, stored_append]
    exact hbound

theorem view_concat (records : List (List Mbuf)) (chain : List Mbuf) :
    view (records ++ [chain]) = view records ++ [(bytes chain, chain.any Mbuf.eor)] := by
  rw [view, List.map_append, List.map_singleton]
  rfl

/-- `sbappendrecord` makes one record of a chain. -/
theorem sbappendrecord_spec (h : Ok sb) (hms : ∀ m ∈ ms, m.Ok) (hne : ms ≠ [])
    (hbound : stored sb.records.flatten + stored ms < 2147483648) :
    Ok (sbappendrecord sb ms) ∧
      view (sbappendrecord sb ms).records = view sb.records ++ [(bytes ms, ms.any Mbuf.eor)] := by
  -- the first mbuf makes a record that is not ended, and the others are compressed into it
  have hrest (m0 m0' m m' : Mbuf) (rest : List Mbuf) (hm0 : m0.Ok) (hm0' : m0'.Ok)
      (hsame : m0'.data = m0.data ∧ m0'.extSize = m0.extSize ∧ m0'.ext = m0.ext)
      (hno : m0'.eor = false) (hrest : ∀ m ∈ m' :: rest, m.Ok)
      (hsame' : m'.data = m.data ∧ m'.extSize = m.extSize ∧ m'.eor = (m0.eor || m.eor))
      (hbound : stored sb.records.flatten + stored (m0 :: m :: rest) < 2147483648) :
      Ok (sbcompress { sballoc sb m0 with records := sb.records ++ [[m0']] } (m' :: rest)) ∧
        view (sbcompress { sballoc sb m0 with records := sb.records ++ [[m0']] }
          (m' :: rest)).records =
          view sb.records ++ [(bytes (m0 :: m :: rest), (m0 :: m :: rest).any Mbuf.eor)] := by
    obtain ⟨hdata, hsize, hext⟩ := hsame
    obtain ⟨hdata', hsize', heor'⟩ := hsame'
    obtain ⟨sb1, hsb1⟩ : ∃ sb1 : Sockbuf,
      sb1 = { sballoc sb m0 with records := sb.records ++ [[m0']] } := ⟨_, rfl⟩
    rw [← hsb1]
    have hrecords : sb1.records = sb.records ++ [[m0']] := by rw [hsb1]
    have hstore : stored [m0'] = 36 + m0.extSize := by rw [← hsize]; rfl
    have hcount : total [m0'] = m0.len := by
      rw [Mbuf.len, ← hdata]
      rfl
    simp only [stored_cons] at hbound
    have hok : Ok sb1 := by
      refine h.concat [m0'] (by simp) (by simpa using hm0') (by omega) hrecords ?_ ?_
      · rw [hsb1, hcount]
        rfl
      · rw [hsb1, hstore, ← storage_eq hm0.1]
        rfl
    have hlast : sb1.lastRecord = [m0'] := by
      rw [Sockbuf.lastRecord, hrecords, List.getLast?_concat]
      rfl
    have hspec := sbcompress_spec hok hrest (List.cons_ne_nil _ _)
      (by
        rw [hrecords, List.flatten_concat, stored_append, hstore, stored_cons, hsize']
        omega)
      (by
        rw [hlast]
        simpa using hno)
    refine ⟨hspec.1, hspec.2.trans ?_⟩
    rw [hrecords, view_concat, extend, List.getLast?_concat]
    simp [hno, hdata, hdata', heor', Bool.or_assoc]
  cases ms with
  | nil => exact absurd rfl hne
  | cons m0 rest =>
    have hm0 := hms m0 List.mem_cons_self
    cases rest with
    | nil =>
      refine ⟨h.concat _ hne hms hbound rfl ?_ ?_, view_concat _ _⟩
      · rw [total_cons, total_nil, Nat.add_zero]
        rfl
      · rw [stored_cons, stored_nil, Nat.add_zero, ← storage_eq hm0.1]
        rfl
    | cons m rest =>
      have hm := hms m (by simp)
      have hothers := fun x hx => hms x (List.mem_cons_of_mem _ (List.mem_cons_of_mem _ hx))
      unfold sbappendrecord
      dsimp only
      split
      next heor =>
        refine hrest m0 _ m _ rest hm0 hm0 ⟨rfl, rfl, rfl⟩ rfl ?_ ⟨rfl, rfl, ?_⟩ hbound
        · intro x hx
          rcases List.mem_cons.1 hx with rfl | hx
          · exact hm
          · exact hothers x hx
        · rw [heor]
          rfl
      next heor =>
        have heor : m0.eor = false := Bool.not_eq_true _ ▸ heor
        refine hrest m0 m0 m m rest hm0 hm0 ⟨rfl, rfl, rfl⟩ heor ?_ ⟨rfl, rfl, ?_⟩ hbound
        · exact fun x hx => hms x (List.mem_cons_of_mem _ hx)
        · rw [heor]
          rfl

/-- `sbappend` adds to the last record, or makes a new one when that is ended. -/
theorem sbappend_spec (h : Ok sb) (hms : ∀ m ∈ ms, m.Ok) (hne : ms ≠ [])
    (hbound : stored sb.records.flatten + stored ms < 2147483648) :
    Ok (sbappend sb ms) ∧
      view (sbappend sb ms).records = extend (view sb.records) (bytes ms) (ms.any Mbuf.eor) := by
  unfold sbappend
  rw [if_neg hne]
  split
  next heor =>
    obtain ⟨hok, hview⟩ := sbappendrecord_spec h hms hne hbound
    refine ⟨hok, hview.trans ?_⟩
    rcases records_eq h.nonempty with ⟨_, hlast⟩ | ⟨last, hlast, _, hrec⟩
    · rw [hlast] at heor
      exact nomatch heor
    · rw [hlast] at heor
      rw [hrec, view_concat, heor, extend, List.getLast?_concat]
  next heor =>
    rw [Bool.not_eq_true, List.any_eq_false] at heor
    exact sbcompress_spec h hms hne hbound fun m hm => Bool.eq_false_iff.2 (heor m hm)

end Records

/-! ## Dropping records -/

section Drop

variable {sb : Sockbuf} {ms : List Mbuf} {n : Nat}

theorem foldl_sbfree (sb : Sockbuf) (hms : ∀ m ∈ ms, m.Ok) :
    (ms.foldl sbfree sb).records = sb.records ∧
      (ms.foldl sbfree sb).cc + UInt32.ofNat (total ms) = sb.cc ∧
      (ms.foldl sbfree sb).mbcnt + UInt32.ofNat (stored ms) = sb.mbcnt := by
  induction ms generalizing sb with
  | nil => simp
  | cons m ms ih =>
    have hm := hms m List.mem_cons_self
    obtain ⟨hrecords, hcc, hmbcnt⟩ := ih (sbfree sb m) fun m hm => hms m (List.mem_cons_of_mem _ hm)
    have hfreecc : (sbfree sb m).cc = sb.cc - UInt32.ofNat m.len := rfl
    have hfreemb : (sbfree sb m).mbcnt = sb.mbcnt - UInt32.ofNat (36 + m.extSize) := by
      rw [← storage_eq hm.1]
      rfl
    rw [List.foldl_cons, total_cons, stored_cons, UInt32.ofNat_add m.len,
      UInt32.ofNat_add (36 + m.extSize)]
    exact ⟨hrecords, by grind, by grind⟩

/-- The records behind some that are gone. -/
theorem Ok.suffix {sb' : Sockbuf} (h : Ok sb) (gone : List (List Mbuf))
    (hrecords : sb.records = gone ++ sb'.records)
    (hcc : sb'.cc + UInt32.ofNat (total gone.flatten) = sb.cc)
    (hmbcnt : sb'.mbcnt + UInt32.ofNat (stored gone.flatten) = sb.mbcnt) : Ok sb' := by
  have hflat : sb.records.flatten = gone.flatten ++ sb'.records.flatten := by
    rw [hrecords, List.flatten_append]
  constructor
  case cc =>
    have := h.cc
    rw [hflat, total_append, UInt32.ofNat_add] at this
    grind
  case mbcnt =>
    have := h.mbcnt
    rw [hflat, stored_append, UInt32.ofNat_add] at this
    grind
  case nonempty =>
    intro r hr
    exact h.nonempty r (by rw [hrecords]; exact List.mem_append_right _ hr)
  case mbufs =>
    intro m hm
    exact h.mbufs m (by rw [hflat]; exact List.mem_append_right _ hm)
  case bound =>
    have := h.bound
    rw [hflat, stored_append] at this
    omega

theorem sbdroprecord_spec (h : Ok sb) :
    Ok (sbdroprecord sb) ∧ view (sbdroprecord sb).records = (view sb.records).tail := by
  unfold sbdroprecord
  split
  next hnil =>
    refine ⟨h, ?_⟩
    rw [hnil]
    rfl
  next m next hrec =>
    have hms : ∀ x ∈ m, x.Ok := fun x hx => h.mbufs x (by
      rw [hrec]
      exact List.mem_append_left _ hx)
    obtain ⟨_, hcc, hmbcnt⟩ := foldl_sbfree sb hms
    refine ⟨h.suffix [m] hrec ?_ ?_, ?_⟩
    · simpa using hcc
    · simpa using hmbcnt
    · rw [hrec]
      rfl

/-- The last mbuf of a chain has bytes. -/
def endsFull (r : List Mbuf) : Bool := r.getLast?.any fun m => decide (m.len ≠ 0)

/-- The bytes end where a record does, and its last mbuf has some of them. -/
def endsAt : Nat → List (List Mbuf) → Bool
  | n, [] => n == 0
  | n, r :: rs => if total r < n then endsAt (n - total r) rs else n == total r && endsFull r

/-- The records behind the one in which the bytes end. -/
def afterDrop : Nat → List (List Mbuf) → List (List Mbuf)
  | _, [] => []
  | n, r :: rs => if total r < n then afterDrop (n - total r) rs else rs

/-- Without the first bytes, and without the records that have no others. -/
def dropBytes (n : Nat) : List (List UInt8 × Bool) → List (List UInt8 × Bool)
  | [] => []
  | (b, e) :: v =>
    if n = 0 ∨ n < b.length then (b.drop n, e) :: v else dropBytes (n - b.length) v

theorem dropBytes_zero (v : List (List UInt8 × Bool)) : dropBytes 0 v = v := by
  cases v with
  | nil => rfl
  | cons r v => simp [dropBytes]

theorem endsFull_pos {r : List Mbuf} (h : endsFull r = true) : 0 < total r := by
  rcases List.eq_nil_or_concat r with rfl | ⟨r, m, rfl⟩
  · exact nomatch h
  · rw [List.concat_eq_append] at h ⊢
    rw [endsFull, List.getLast?_concat, Option.any_some, decide_eq_true_iff] at h
    rw [total_append, total_cons]
    omega

/-- A record that ends before the length does. -/
theorem dropRecord_all (sb : Sockbuf) (h : total ms < n) :
    dropRecord sb n ms = (ms.foldl sbfree sb, ((n - total ms : Nat) : Int), []) := by
  induction ms generalizing sb n with
  | nil => rfl
  | cons m ms ih =>
    rw [total_cons] at h
    rw [dropRecord, if_neg (by omega), if_neg (by omega),
      show ((n : Int) - m.len) = ((n - m.len : Nat) : Int) by omega,
      ih (sbfree sb m) (by omega), List.foldl_cons, total_cons, Nat.sub_sub]

/-- A record in which the length ends: what is left of it is empty only when the length ends with
its last byte, in its last mbuf. -/
theorem dropRecord_stop (sb : Sockbuf) (hms : ∀ m ∈ ms, m.Ok) (hne : ms ≠ []) (h : n ≤ total ms) :
    ∃ sb' len ms', dropRecord sb n ms = (sb', len, ms') ∧ len ≤ 0 ∧ sb'.records = sb.records ∧
      sb'.cc + UInt32.ofNat n = sb.cc ∧
      sb'.mbcnt + UInt32.ofNat (stored ms) = sb.mbcnt + UInt32.ofNat (stored ms') ∧
      total ms' + n = total ms ∧ (ms' = [] ↔ (n == total ms && endsFull ms) = true) := by
  induction ms generalizing sb n with
  | nil => exact absurd rfl hne
  | cons m ms ih =>
    have hm := hms m List.mem_cons_self
    have hrest := fun m hm => hms m (List.mem_cons_of_mem _ hm)
    rw [total_cons] at h
    rw [dropRecord, Bool.and_eq_true, beq_iff_eq]
    split
    next hzero =>
      obtain rfl : n = 0 := by omega
      refine ⟨sb, (0 : Nat), m :: ms, rfl, by omega, rfl, by simp, rfl, by simp, ?_⟩
      refine iff_of_false (List.cons_ne_nil _ _) ?_
      rintro ⟨hsum, hfull⟩
      have := endsFull_pos hfull
      omega
    next hpos =>
      split
      next hlarge =>
        refine ⟨_, 0, _, rfl, Int.le_refl 0, rfl, ?_, ?_, ?_, ?_⟩
        · rw [Int.toNat_natCast]
          show sb.cc - _ + _ = _
          grind
        · rfl
        · rw [total_cons, total_cons, Mbuf.len, List.length_drop, Int.toNat_natCast]
          have : m.data.length = m.len := rfl
          omega
        · refine iff_of_false (List.cons_ne_nil _ _) ?_
          rintro ⟨hsum, _⟩
          rw [total_cons] at hsum
          omega
      next hsmall =>
        have hcast : ((n : Int) - m.len) = ((n - m.len : Nat) : Int) := by omega
        have hfreecc : (sbfree sb m).cc = sb.cc - UInt32.ofNat m.len := rfl
        have hfreemb : (sbfree sb m).mbcnt = sb.mbcnt - UInt32.ofNat (36 + m.extSize) := by
          rw [← storage_eq hm.1]
          rfl
        have hn : UInt32.ofNat n = UInt32.ofNat m.len + UInt32.ofNat (n - m.len) := by
          rw [← UInt32.ofNat_add]
          congr 1
          omega
        rw [hcast]
        cases ms with
        | nil =>
          simp only [total_nil] at h
          obtain rfl : n = m.len := by omega
          refine ⟨sbfree sb m, _, [], rfl, by omega, rfl, ?_, ?_, by simp, ?_⟩
          · rw [hfreecc]
            grind
          · rw [stored_cons, stored_nil, Nat.add_zero, hfreemb]
            grind
          · refine iff_of_true rfl ⟨by simp, ?_⟩
            rw [endsFull, List.getLast?_singleton, Option.any_some, decide_eq_true_iff]
            omega
        | cons o ms =>
          obtain ⟨sb', len, ms', heq, hlen, hrecords, hcc, hmbcnt, htotal, hnil⟩ :=
            ih (sbfree sb m) hrest (List.cons_ne_nil _ _) (show n - m.len ≤ _ by omega)
          refine ⟨sb', len, ms', heq, hlen, hrecords, ?_, ?_, ?_, hnil.trans ?_⟩
          · rw [hn]
            grind
          · rw [stored_cons, UInt32.ofNat_add (36 + m.extSize)]
            grind
          · rw [total_cons]
            omega
          · rw [Bool.and_eq_true, beq_iff_eq, endsFull, endsFull, List.getLast?_cons_cons,
              total_cons (m := m)]
            refine and_congr_left fun _ => ?_
            omega

/-- The first loop of `sbdrop`. -/
theorem dropLoop_spec (sb : Sockbuf) {next : List (List Mbuf)} (hms : ∀ m ∈ ms, m.Ok) (hne : ms ≠ [])
    (hnext : ∀ r ∈ next, r ≠ [] ∧ ∀ m ∈ r, m.Ok) (h : n ≤ total ms + total next.flatten) :
    ∃ sb' ms' gone, dropLoop sb n ms next = some (sb', ms', afterDrop n (ms :: next)) ∧
      ms :: next = gone ++ afterDrop n (ms :: next) ∧ sb'.records = sb.records ∧
      sb'.cc + UInt32.ofNat n = sb.cc ∧
      sb'.mbcnt + UInt32.ofNat (stored gone.flatten) = sb.mbcnt + UInt32.ofNat (stored ms') ∧
      total ms' + n = total gone.flatten ∧ (ms' = [] ↔ endsAt n (ms :: next) = true) := by
  induction next generalizing sb ms n with
  | nil =>
    simp only [List.flatten_nil, total_nil, Nat.add_zero] at h
    obtain ⟨sb', len, ms', heq, hlen, hrecords, hcc, hmbcnt, htotal, hnil⟩ :=
      dropRecord_stop sb hms hne h
    refine ⟨sb', ms', [ms], ?_, ?_, hrecords, hcc, by simpa using hmbcnt, by simpa using htotal, ?_⟩
    · rw [dropLoop, heq]
      dsimp only
      rw [if_pos hlen, afterDrop, if_neg (by omega)]
    · rw [afterDrop, if_neg (by omega)]
      rfl
    · rw [endsAt, if_neg (by omega)]
      exact hnil
  | cons next nexts ih =>
    rw [List.flatten_cons, total_append] at h
    by_cases hlt : total ms < n
    · obtain ⟨hnextNe, hnextOk⟩ := hnext next List.mem_cons_self
      obtain ⟨hrecords, hcc, hmbcnt⟩ := foldl_sbfree sb hms
      obtain ⟨sb', ms', gone, heq, hgone, hrecords', hcc', hmbcnt', htotal, hnil⟩ :=
        ih (ms.foldl sbfree sb) hnextOk hnextNe
          (fun r hr => hnext r (List.mem_cons_of_mem _ hr)) (show n - total ms ≤ _ by omega)
      have hn : UInt32.ofNat n = UInt32.ofNat (total ms) + UInt32.ofNat (n - total ms) := by
        rw [← UInt32.ofNat_add]
        congr 1
        omega
      refine ⟨sb', ms', ms :: gone, ?_, ?_, hrecords'.trans hrecords, ?_, ?_, ?_, ?_⟩
      · rw [dropLoop, dropRecord_all sb hlt]
        dsimp only
        rw [if_neg (by omega), afterDrop, if_pos hlt]
        exact heq
      · rw [afterDrop, if_pos hlt, List.cons_append, ← hgone]
      · rw [hn]
        grind
      · rw [List.flatten_cons, stored_append, UInt32.ofNat_add]
        grind
      · rw [List.flatten_cons, total_append]
        omega
      · rw [endsAt, if_pos hlt]
        exact hnil
    · obtain ⟨sb', len, ms', heq, hlen, hrecords, hcc, hmbcnt, htotal, hnil⟩ :=
        dropRecord_stop sb hms hne (Nat.not_lt.1 hlt)
      refine ⟨sb', ms', [ms], ?_, ?_, hrecords, hcc, by simpa using hmbcnt, by simpa using htotal,
        ?_⟩
      · rw [dropLoop, heq]
        dsimp only
        rw [if_pos hlen, afterDrop, if_neg hlt]
      · rw [afterDrop, if_neg hlt]
        rfl
      · rw [endsAt, if_neg hlt]
        exact hnil

theorem view_afterDrop {rs : List (List Mbuf)} (hends : endsAt n rs = true) :
    view (afterDrop n rs) = dropBytes n (view rs) := by
  induction rs generalizing n with
  | nil => rfl
  | cons r rs ih =>
    have hlen := bytes_length r
    have hview : view (r :: rs) = (bytes r, r.any Mbuf.eor) :: view rs := rfl
    rw [endsAt] at hends
    rw [afterDrop, hview, dropBytes]
    split at hends
    next hlt =>
      rw [if_pos hlt, if_neg (by omega), hlen]
      exact ih hends
    next hge =>
      rw [Bool.and_eq_true, beq_iff_eq] at hends
      have := endsFull_pos hends.2
      rw [if_neg hge, if_neg (by omega), hlen, hends.1, Nat.sub_self]
      exact (dropBytes_zero _).symm

theorem total_afterDrop {rs : List (List Mbuf)} (hends : endsAt n rs = true) :
    total (afterDrop n rs).flatten + n = total rs.flatten := by
  induction rs generalizing n with
  | nil =>
    rw [endsAt, beq_iff_eq] at hends
    rw [hends]
    rfl
  | cons r rs ih =>
    rw [endsAt] at hends
    rw [afterDrop, List.flatten_cons, total_append]
    split at hends
    next hlt =>
      rw [if_pos hlt]
      have := ih hends
      omega
    next hge =>
      rw [Bool.and_eq_true, beq_iff_eq] at hends
      rw [if_neg hge]
      omega

/-- When `sbdrop` is right, and what happens otherwise. -/
theorem sbdrop_spec (h : Ok sb) (hn : n ≤ total sb.records.flatten) :
    endsAt n sb.records = true ∧ (∃ sb', sbdrop sb n = some sb' ∧ Ok sb' ∧
        sb'.records = afterDrop n sb.records) ∨
      endsAt n sb.records = false ∧ (sbdrop sb n = none ∨
        n ≠ total sb.records.flatten ∧ ∀ sb', sbdrop sb n = some sb' → ¬Intact sb') := by
  unfold sbdrop
  cases hrec : sb.records with
  | nil =>
    rw [hrec] at hn
    obtain rfl : n = 0 := Nat.le_zero.1 hn
    refine Or.inl ⟨rfl, sb, ?_, h, hrec⟩
    obtain ⟨cc, mbcnt, hiwat, mbmax, records⟩ := sb
    obtain rfl : records = [] := hrec
    rfl
  | cons r rs =>
    rw [hrec, List.flatten_cons, total_append] at hn
    have hmbufs := h.mbufs
    have hnonempty := h.nonempty
    rw [hrec] at hmbufs hnonempty
    obtain ⟨sb1, ms, gone, heq, hgone, hrecords, hcc, hmbcnt, htotal, hnil⟩ :=
      dropLoop_spec sb
        (fun m hm => hmbufs m (by
          rw [List.flatten_cons]
          exact List.mem_append_left _ hm))
        (hnonempty r List.mem_cons_self)
        (fun r hr => ⟨hnonempty r (List.mem_cons_of_mem _ hr), fun m hm => hmbufs m (by
          rw [List.flatten_cons]
          exact List.mem_append_right _ (List.mem_flatten_of_mem hr hm))⟩) hn
    rw [List.headD_cons, List.tail_cons, heq]
    cases ms with
    | nil =>
      refine Or.inl ⟨hnil.1 rfl, _, rfl, ?_, rfl⟩
      refine h.suffix gone (hrec.trans hgone) ?_ ?_
      · show sb1.cc + _ = _
        rw [← htotal, total_nil, Nat.zero_add]
        exact hcc
      · simpa using hmbcnt
    | cons m ms =>
      have hends : endsAt n (r :: rs) = false := by
        rw [← Bool.not_eq_true]
        exact fun heq => nomatch hnil.2 heq
      refine Or.inr ⟨hends, ?_⟩
      dsimp only
      by_cases hzero : m.len = 0
      · left
        rw [if_pos hzero]
      · right
        obtain ⟨rest, hrest⟩ : ∃ rest, rest = afterDrop n (r :: rs) := ⟨_, rfl⟩
        rw [← hrest] at hgone ⊢
        have hflat : total (r :: rs).flatten = total gone.flatten + total rest.flatten := by
          rw [hgone, List.flatten_append, total_append]
        rw [total_cons] at htotal
        refine ⟨by omega, fun sb' hsb' hintact => ?_⟩
        rw [if_neg hzero] at hsb'
        cases hsb'
        -- the counter still has the bytes of the mbuf that is freed behind the loop
        have hbound : total sb.records.flatten < 4294967296 := by
          have := total_le_stored h.mbufs
          have := h.bound
          omega
        have hcount : sb1.cc.toNat = total (if ms = [] then rest else ms :: rest).flatten :=
          hintact.cc
        have hleft : total (if ms = [] then rest else ms :: rest).flatten =
            total ms + total rest.flatten := by
          split
          next hms => simp [hms]
          next => simp
        rw [hleft] at hcount
        have hold := h.cc
        rw [hrec] at hbound hold
        have hcc1 : sb1.cc = UInt32.ofNat (total (r :: rs).flatten - n) := by
          have hsum : UInt32.ofNat (total (r :: rs).flatten) =
              UInt32.ofNat (total (r :: rs).flatten - n) + UInt32.ofNat n := by
            rw [← UInt32.ofNat_add]
            congr 1
            omega
          rw [hsum] at hold
          grind
        rw [hcc1, UInt32.toNat_ofNat_of_lt' (by rw [UInt32.size]; omega)] at hcount
        omega

/-! ## Flushing -/

/-- The last mbuf, if there is one, has bytes. -/
def flushable (sb : Sockbuf) : Bool := sb.records.getLast?.all endsFull

theorem endsAt_total {rs : List (List Mbuf)} (hne : rs ≠ []) :
    (endsAt (total rs.flatten) rs = true ∧ afterDrop (total rs.flatten) rs = []) ↔
      rs.getLast?.all endsFull = true := by
  induction rs with
  | nil => exact absurd rfl hne
  | cons r rs ih =>
    rw [endsAt, afterDrop, List.flatten_cons, total_append]
    cases rs with
    | nil => simp
    | cons o rs =>
      rw [List.getLast?_cons_cons, ← ih (List.cons_ne_nil _ _)]
      split
      next hlt => rw [Nat.add_sub_cancel_left]
      next hge =>
        have hzero : total (o :: rs).flatten = 0 := by omega
        refine iff_of_false (fun hc => nomatch hc.2) ?_
        rw [ih (List.cons_ne_nil _ _)]
        intro hall
        rcases List.eq_nil_or_concat (o :: rs) with hnil | ⟨front, last, hlast⟩
        · exact nomatch hnil
        · rw [List.concat_eq_append] at hlast
          rw [hlast, List.getLast?_concat, Option.all_some] at hall
          have := endsFull_pos hall
          rw [hlast, List.flatten_concat, total_append] at hzero
          omega

theorem toInt_of_lt {x : UInt32} (h : x.toNat < 2147483648) : toInt x = x.toNat := by
  unfold toInt
  rw [← Int32.toInt_toBitVec, BitVec.toInt_eq_toNat_of_lt]
  · rfl
  · show 2 * x.toNat < _
    omega

theorem Ok.mbcnt_eq_zero (h : Ok sb) : sb.mbcnt = 0 ↔ sb.records = [] := by
  have hcount := h.intact.mbcnt
  constructor
  · intro hzero
    rw [hzero] at hcount
    cases hrec : sb.records with
    | nil => rfl
    | cons r rs =>
      cases r with
      | nil => exact absurd rfl (h.nonempty [] (by rw [hrec]; exact List.mem_cons_self))
      | cons m r =>
        rw [hrec, List.flatten_cons, stored_append, stored_cons, UInt32.toNat_zero] at hcount
        omega
  · intro hnil
    rw [hnil] at hcount
    exact UInt32.toNat.inj hcount

/-- `sbflush` ends with an empty buffer when the last mbuf has bytes, and does not end
otherwise. -/
theorem sbflush_spec (h : Ok sb) :
    flushable sb = true ∧ (∃ sb', sbflush sb = some sb' ∧ Ok sb' ∧ sb'.records = []) ∨
      flushable sb = false ∧ sbflush sb = none := by
  unfold sbflush
  rw [flushLoop]
  by_cases hnil : sb.records = []
  · have hcc : sb.cc = 0 := by
      rw [h.cc, hnil]
      rfl
    left
    refine ⟨by rw [flushable, hnil]; rfl, sb, ?_, h, hnil⟩
    rw [if_pos (h.mbcnt_eq_zero.2 hnil)]
    dsimp only
    rw [if_neg (by simp [hcc, hnil])]
  · rw [if_neg fun hzero => hnil (h.mbcnt_eq_zero.1 hzero)]
    have hlt : sb.cc.toNat < 2147483648 := by
      have := h.intact.cc
      have := total_le_stored h.mbufs
      have := h.bound
      omega
    rw [toInt_of_lt hlt, h.intact.cc]
    have hends := endsAt_total hnil
    rcases sbdrop_spec (n := total sb.records.flatten) h (Nat.le_refl _) with
      ⟨htrue, sb1, hdrop, hok, hrecords⟩ | ⟨hfalse, hnone | ⟨habs, _⟩⟩
    · rw [hdrop]
      dsimp only
      rw [flushLoop]
      by_cases hempty : sb1.records = []
      · left
        have hcc : sb1.cc = 0 := by
          rw [hok.cc, hempty]
          rfl
        refine ⟨hends.1 ⟨htrue, hrecords ▸ hempty⟩, sb1, ?_, hok, hempty⟩
        rw [if_pos (hok.mbcnt_eq_zero.2 hempty)]
        dsimp only
        rw [if_neg (by simp [hcc, hempty])]
      · right
        have hnot : flushable sb = false := by
          rw [← Bool.not_eq_true]
          exact fun hall => hempty (hrecords.trans (hends.2 hall).2)
        have hzero : total sb1.records.flatten = 0 := by
          have := total_afterDrop htrue
          rw [hrecords]
          omega
        have hcc : toInt sb1.cc = (0 : Nat) := by
          rw [hok.cc, hzero]
          rfl
        refine ⟨hnot, ?_⟩
        rw [if_neg fun hzero => hempty (hok.mbcnt_eq_zero.1 hzero), hcc]
        rcases sbdrop_spec (n := 0) hok (Nat.zero_le _) with ⟨hends0, _⟩ | ⟨_, hnone | ⟨habs, _⟩⟩
        · cases hrec : sb1.records with
          | nil => exact absurd hrec hempty
          | cons r rs =>
            rw [hrec, endsAt, if_neg (Nat.not_lt_zero _), Bool.and_eq_true, beq_iff_eq] at hends0
            have := endsFull_pos hends0.2
            omega
        · rw [hnone]
        · exact absurd hzero.symm habs
    · right
      rw [hnone]
      refine ⟨?_, rfl⟩
      rw [← Bool.not_eq_true]
      exact fun hall => nomatch (hends.2 hall).1.symm.trans hfalse
    · exact absurd rfl habs

end Drop

/-! ## Runs -/

/-- There is memory for the chain beside those of the buffer, and each mbuf has its cluster. -/
def Room (sb : Sockbuf) (ms : List Mbuf) : Prop :=
  (∀ m ∈ ms, m.Ok) ∧ stored sb.records.flatten + stored ms < 2147483648

instance (sb : Sockbuf) (ms : List Mbuf) : Decidable (Room sb ms) :=
  inferInstanceAs (Decidable (_ ∧ _))

/-- What the callers of the routines promise: chains that lie in memory, a packet header where
one is read, a cluster of the size that is asked for, and no more bytes dropped than there are. -/
def Allowed (sb : Sockbuf) : Call → Prop
  | .append m => Room sb m
  | .appendrecord m => Room sb m
  | .appendaddr _ m0 ctrl got =>
    (∀ m ∈ m0.head?, m.pkthdr.isSome) ∧
      ∀ m ∈ got, m.ext = true ∧ m.lead = 0 ∧ CL_SIZE_128 ≤ m.extSize ∧ m.eor = false ∧
        Room sb (ctrl ++ m0) ∧
        stored sb.records.flatten + stored (m :: (ctrl ++ m0)) < 2147483648
  | .drop len => len ≤ total sb.records.flatten
  | .droprecord => True
  | .flush => True

/-- A drop ends with the last mbuf of a record, which has bytes; so does the buffer that is
flushed. -/
def Ends (sb : Sockbuf) : Call → Prop
  | .drop len => endsAt len sb.records = true
  | .flush => flushable sb = true
  | _ => True

/-- What a call does to the bytes of the records. -/
def effect (sb : Sockbuf) (v : List (List UInt8 × Bool)) : Call → List (List UInt8 × Bool)
  | .append m => if m = [] then v else extend v (bytes m) (m.any Mbuf.eor)
  | .appendrecord m => if m = [] then v else v ++ [(bytes m, m.any Mbuf.eor)]
  | .appendaddr asa m0 ctrl got =>
    if accepts sb asa m0 ctrl got then
      v ++ [(asa ++ bytes ctrl ++ bytes m0, (ctrl ++ m0).any Mbuf.eor)]
    else v
  | .drop len => dropBytes len v
  | .droprecord => v.tail
  | .flush => []

/-- The call ends, the counters are right, and the bytes are those they should be. -/
def StepOk (sb : Sockbuf) (call : Call) : Prop :=
  ∃ sb', step sb call = some sb' ∧ Intact sb' ∧
    view sb'.records = effect sb (view sb.records) call

section Runs

variable {sb : Sockbuf}

theorem sbappendaddr_spec (h : Ok sb) {asa : List UInt8} {m0 ctrl : List Mbuf} {got : Option Mbuf}
    (hallowed : Allowed sb (.appendaddr asa m0 ctrl got)) :
    ∃ sb', step sb (.appendaddr asa m0 ctrl got) = some sb' ∧ Ok sb' ∧
      view sb'.records = effect sb (view sb.records) (.appendaddr asa m0 ctrl got) := by
  obtain ⟨hhead, hgot⟩ := hallowed
  have hpkthdr : ¬(m0.head?.any fun m => m.pkthdr.isNone) = true := by
    cases hm0 : m0.head? with
    | none => exact Bool.false_ne_true
    | some m =>
      have := hhead m hm0
      rw [Option.any_some, Option.isNone_iff_eq_none]
      intro hnone
      rw [hnone] at this
      exact nomatch this
  rw [step, sbappendaddr, if_neg hpkthdr, effect]
  by_cases haccepts : accepts sb asa m0 ctrl got = true
  · rw [if_pos haccepts, if_pos haccepts]
    rw [accepts, Bool.and_eq_true, Bool.and_eq_true, decide_eq_true_iff] at haccepts
    obtain ⟨⟨_, hlen⟩, hsome⟩ := haccepts
    obtain ⟨m, rfl⟩ := Option.isSome_iff_exists.1 hsome
    obtain ⟨hext, hlead, hsize, heor, ⟨hms, _⟩, hbound⟩ := hgot m rfl
    obtain ⟨m', hm'⟩ : ∃ m', m' = { m with data := asa } := ⟨_, rfl⟩
    have hdata : m'.data = asa := by rw [hm']
    have hm'size : m'.extSize = m.extSize := by rw [hm']
    have hchain : ∀ x ∈ m' :: (ctrl ++ m0), x.Ok := by
      intro x hx
      rcases List.mem_cons.1 hx with rfl | hx
      · refine ⟨by rw [hm']; exact hext, ?_⟩
        rw [Mbuf.len, hdata, hm'size, show x.lead = m.lead by rw [hm'], hlead]
        omega
      · exact hms x hx
    obtain ⟨hrecords, hcc, hmbcnt⟩ := foldl_sballoc sb hchain
    rw [Option.map_some, Option.map_some]
    dsimp only
    rw [← hm']
    refine ⟨_, rfl, h.concat (m' :: (ctrl ++ m0)) (List.cons_ne_nil _ _) hchain ?_
      (by rw [hrecords]) hcc hmbcnt, ?_⟩
    · simpa only [stored_cons, hm'size] using hbound
    · dsimp only
      rw [hrecords, view_concat, bytes_cons, hdata, bytes_append, List.append_assoc, List.any_cons,
        show m'.eor = m.eor by rw [hm'], heor, Bool.false_or]
  · rw [if_neg haccepts, if_neg haccepts]
    exact ⟨sb, rfl, h, rfl⟩

/-- A call does what it should when, and only when, it meets the condition. -/
theorem step_spec {call : Call} (h : Ok sb) (hallowed : Allowed sb call) :
    Ends sb call ∧ (∃ sb', step sb call = some sb' ∧ Ok sb' ∧
        view sb'.records = effect sb (view sb.records) call) ∨
      ¬Ends sb call ∧ ¬StepOk sb call := by
  cases call with
  | append m =>
    refine Or.inl ⟨trivial, _, rfl, ?_⟩
    rw [effect]
    split
    next hnil =>
      rw [hnil]
      exact ⟨h, rfl⟩
    next hne => exact sbappend_spec h hallowed.1 hne hallowed.2
  | appendrecord m =>
    refine Or.inl ⟨trivial, _, rfl, ?_⟩
    rw [effect]
    split
    next hnil =>
      rw [hnil]
      exact ⟨h, rfl⟩
    next hne => exact sbappendrecord_spec h hallowed.1 hne hallowed.2
  | appendaddr asa m0 ctrl got => exact Or.inl ⟨trivial, sbappendaddr_spec h hallowed⟩
  | drop len =>
    rcases sbdrop_spec h hallowed with ⟨hends, sb', hdrop, hok, hrecords⟩ | ⟨hends, hwrong⟩
    · exact Or.inl ⟨hends, sb', hdrop, hok, hrecords ▸ view_afterDrop hends⟩
    · refine Or.inr ⟨fun htrue => Bool.eq_false_iff.1 hends htrue, ?_⟩
      rintro ⟨sb', hdrop, hintact, _⟩
      rcases hwrong with hnone | ⟨_, hwrong⟩
      · exact nomatch hnone.symm.trans (show sbdrop sb len = some sb' from hdrop)
      · exact hwrong sb' hdrop hintact
  | droprecord => exact Or.inl ⟨trivial, _, rfl, sbdroprecord_spec h⟩
  | flush =>
    rcases sbflush_spec h with ⟨hends, sb', hflush, hok, hrecords⟩ | ⟨hends, hnone⟩
    · refine Or.inl ⟨hends, sb', hflush, hok, ?_⟩
      rw [hrecords]
      rfl
    · refine Or.inr ⟨fun htrue => Bool.eq_false_iff.1 hends htrue, ?_⟩
      rintro ⟨sb', hflush, _⟩
      exact nomatch hnone.symm.trans (show sbflush sb = some sb' from hflush)

end Runs

instance (sb : Sockbuf) : ∀ call, Decidable (Allowed sb call)
  | .append m => inferInstanceAs (Decidable (Room sb m))
  | .appendrecord m => inferInstanceAs (Decidable (Room sb m))
  | .appendaddr _ m0 ctrl got => inferInstanceAs (Decidable
      ((∀ m ∈ m0.head?, m.pkthdr.isSome) ∧
        ∀ m ∈ got, m.ext = true ∧ m.lead = 0 ∧ CL_SIZE_128 ≤ m.extSize ∧ m.eor = false ∧
          Room sb (ctrl ++ m0) ∧
          stored sb.records.flatten + stored (m :: (ctrl ++ m0)) < 2147483648))
  | .drop len => inferInstanceAs (Decidable (len ≤ total sb.records.flatten))
  | .droprecord => inferInstanceAs (Decidable True)
  | .flush => inferInstanceAs (Decidable True)

instance (sb : Sockbuf) : ∀ call, Decidable (Ends sb call)
  | .append _ => inferInstanceAs (Decidable True)
  | .appendrecord _ => inferInstanceAs (Decidable True)
  | .appendaddr _ _ _ _ => inferInstanceAs (Decidable True)
  | .drop len => inferInstanceAs (Decidable (endsAt len sb.records = true))
  | .droprecord => inferInstanceAs (Decidable True)
  | .flush => inferInstanceAs (Decidable (flushable sb = true))

end Vmx.Sb
