import Vmx.Net.MbufLib

/-!
# What the operations do to the bytes

The operations on chains are operations on the string of their bytes, which `bytes` is: `m_adj`
cuts it, `m_cat` and `m_prepend` make it longer, and `m_pullup` leaves it as it is.  An operation
that gets no mbuf frees the chain.
-/

namespace Vmx.MbufLib

/-- The bytes of a chain. -/
def bytes (chain : List Mbuf) : List UInt8 := chain.flatMap Mbuf.data

/-- The length in the packet header of a chain that has one. -/
def header (chain : List Mbuf) : Option Int := chain.head?.bind Mbuf.pkthdr

/-- The packet header counts the bytes, or will when its owner adds `extra`. -/
def Counted (chain : List Mbuf) (extra : Int) : Prop :=
  ∀ len ∈ header chain, len + extra = (bytes chain).length

/-- The bytes that `m_adj` is to leave. -/
def cut (n : Int) (s : List UInt8) : List UInt8 :=
  if 0 ≤ n then s.drop (min n.toNat s.length) else s.rdrop (min (-n).toNat s.length)

/-- Every mbuf of the chain is freed as often as it is there, and `NULL` is returned. -/
structure Freed (chain : List Mbuf) (r : Left) : Prop where
  null : r.chain = none
  once : ∀ a ∈ chain.map Mbuf.addr, r.freed.count a = (chain.map Mbuf.addr).count a

theorem freed_all (chain : List Mbuf) : Freed chain ⟨none, chain.map Mbuf.addr⟩ where
  null := rfl
  once _ _ := rfl

variable {m : Mbuf} {ms chain : List Mbuf} {n : Nat}

theorem bytes_cons (m : Mbuf) (ms : List Mbuf) : bytes (m :: ms) = m.data ++ bytes ms := rfl

theorem length_bytes_cons (m : Mbuf) (ms : List Mbuf) :
    (bytes (m :: ms)).length = m.len + (bytes ms).length := List.length_append

theorem total_eq (chain : List Mbuf) : total chain = (bytes chain).length := by
  induction chain with
  | nil => rfl
  | cons m ms ih =>
    rw [length_bytes_cons, ← ih]
    rfl

theorem bytes_setHeader (f : Int → Int) (chain : List Mbuf) :
    bytes (setHeader f chain) = bytes chain := by
  cases chain <;> rfl

theorem header_setHeader (f : Int → Int) (chain : List Mbuf) :
    header (setHeader f chain) = (header chain).map f := by
  cases chain <;> rfl

/-- The header is counted again when it is set to what has changed. -/
theorem Counted.setHeader {chain' : List Mbuf} {f : Int → Int} (h : Counted chain 0)
    (hheader : header chain' = header chain)
    (hf : f (bytes chain).length = (bytes chain').length) : Counted (setHeader f chain') 0 := by
  intro len hlen
  rw [header_setHeader, hheader] at hlen
  obtain ⟨len', hlen', heq⟩ := Option.mem_map.1 hlen
  have hcount := h len' hlen'
  rw [bytes_setHeader, ← hf, ← heq, ← hcount]
  simp only [Int.add_zero]

/-! ## `m_cat` and `m_prepend` -/

theorem m_cat_eq (hne : chain ≠ []) (n : List Mbuf) : m_cat chain n = some (chain ++ n) := by
  induction chain with
  | nil => exact absurd rfl hne
  | cons m ms ih =>
    cases ms with
    | nil => rfl
    | cons m' ms =>
      rw [m_cat, ih (List.cons_ne_nil m' ms)]
      · rfl
      · exact List.cons_ne_nil m' ms

theorem bytes_append (c d : List Mbuf) : bytes (c ++ d) = bytes c ++ bytes d :=
  List.flatMap_append

theorem header_append (hne : chain ≠ []) (d : List Mbuf) :
    header (chain ++ d) = header chain := by
  cases chain with
  | nil => exact absurd rfl hne
  | cons m ms => rfl

theorem Counted.append (h : Counted chain 0) (hne : chain ≠ []) (d : List Mbuf) :
    Counted (chain ++ d) (bytes d).length := by
  intro len hlen
  rw [header_append hne] at hlen
  have hcount := h len hlen
  rw [bytes_append, List.length_append]
  omega

theorem Got.len_front (got : Got chain (n : Int)) (m : Mbuf) : (got.front m).len = n := by
  have hfits := got.fits
  simp only [Mbuf.len, Got.front, List.length_take, List.length_drop, M_ALIGN]
  split <;> omega

/-- `m_prepend` puts `len` bytes in front, or it frees the chain. -/
theorem m_prepend_spec (hne : chain ≠ []) (len : Nat) (got : Option (Got chain len)) :
    ∃ r, m_prepend chain len got = some r ∧
      ((∃ chain' s, r.chain = some chain' ∧ s.length = len ∧ bytes chain' = s ++ bytes chain ∧
          (Counted chain 0 → Counted chain' len)) ∨
        got = none ∧ Freed chain r) := by
  cases chain with
  | nil => exact absurd rfl hne
  | cons m ms =>
    cases got with
    | none => exact ⟨_, rfl, Or.inr ⟨rfl, freed_all _⟩⟩
    | some mn =>
      refine ⟨_, rfl, Or.inl ⟨_, (mn.front m).data, rfl, mn.len_front m, rfl, ?_⟩⟩
      intro hcount l hl
      have hold := hcount l hl
      have hfront := mn.len_front m
      rw [length_bytes_cons, hfront, length_bytes_cons]
      rw [length_bytes_cons] at hold
      show l + (len : Int) = ((len + (m.len + (bytes ms).length) : Nat) : Int)
      omega

/-! ## `m_adj` -/

theorem adjFront_bytes (chain : List Mbuf) (len : Nat) :
    bytes (adjFront chain len).1 = (bytes chain).drop len ∧
      (adjFront chain len).2 = len - (bytes chain).length := by
  induction chain generalizing len with
  | nil => exact ⟨List.drop_nil.symm, rfl⟩
  | cons m ms ih =>
    rw [adjFront]
    split_ifs with hzero hle
    · rw [hzero]
      exact ⟨rfl, (Nat.zero_sub _).symm⟩
    · obtain ⟨hbytes, hleft⟩ := ih (len - m.len)
      constructor
      · have hdrop : m.data.drop len = [] := List.drop_of_length_le hle
        rw [bytes_cons, bytes_cons, List.drop_append, hdrop, hbytes]
        rfl
      · rw [hleft, length_bytes_cons]
        omega
    · have hlt : len < m.data.length := Nat.lt_of_not_le hle
      constructor
      · rw [bytes_cons, bytes_cons, List.drop_append_of_le_length (Nat.le_of_lt hlt)]
        rfl
      · rw [length_bytes_cons, Mbuf.len]
        omega

theorem adjFront_header (chain : List Mbuf) (len : Nat) :
    header (adjFront chain len).1 = header chain := by
  cases chain with
  | nil => rfl
  | cons m ms =>
    rw [adjFront]
    split_ifs <;> rfl

theorem adjLast_bytes {chain' : List Mbuf} {len : Nat} (h : adjLast chain len = some chain') :
    bytes chain' = (bytes chain).take ((bytes chain).length - len) ∧
      header chain' = header chain ∧ len ≤ (bytes chain).length := by
  induction chain generalizing chain' with
  | nil => exact absurd h (by simp [adjLast])
  | cons m ms ih =>
    cases ms with
    | nil =>
      rw [adjLast] at h
      split at h
      · rename_i hle
        rw [← Option.some.inj h]
        have hbytes : bytes [m] = m.data := List.append_nil _
        rw [hbytes]
        exact ⟨List.append_nil _, rfl, hle⟩
      · exact absurd h (by simp)
    | cons m' ms =>
      rw [adjLast] at h
      · obtain ⟨rest, hrest, heq⟩ := Option.map_eq_some_iff.1 h
        obtain ⟨hbytes, -, hle⟩ := ih hrest
        rw [← heq, bytes_cons, bytes_cons m, hbytes, List.length_append]
        refine ⟨?_, rfl, by omega⟩
        have htake : m.data.length + (bytes (m' :: ms)).length - len =
            m.data.length + ((bytes (m' :: ms)).length - len) := by omega
        rw [htake, List.take_length_add_append]
      · exact List.cons_ne_nil m' ms

theorem bytes_keep_zero (ms : List Mbuf) : bytes (ms.map fun m => m.keep 0) = [] := by
  induction ms with
  | nil => rfl
  | cons m ms ih =>
    rw [List.map_cons, bytes_cons, ih]
    rfl

theorem adjBack_bytes (hne : chain ≠ []) {i : Nat} (hi : i ≤ (bytes chain).length) :
    ∃ chain', adjBack chain i = some chain' ∧ bytes chain' = (bytes chain).take i ∧
      header chain' = header chain := by
  induction chain generalizing i with
  | nil => exact absurd rfl hne
  | cons m ms ih =>
    rw [adjBack]
    split
    · rename_i hle
      refine ⟨_, rfl, ?_, rfl⟩
      rw [bytes_cons, bytes_cons, bytes_keep_zero, List.append_nil, List.take_append_of_le_length]
      · rfl
      · exact hle
    · rename_i hgt
      rw [length_bytes_cons] at hi
      have hms : ms ≠ [] := by
        intro hnil
        rw [hnil] at hi
        exact hgt hi
      obtain ⟨rest, hrest, hbytes, -⟩ := @ih hms (i - m.len) (by omega)
      rw [hrest]
      refine ⟨m :: rest, rfl, ?_, rfl⟩
      have htake : i = m.data.length + (i - m.len) := by
        rw [Mbuf.len] at hgt ⊢
        omega
      rw [bytes_cons, bytes_cons, hbytes]
      nth_rewrite 2 [htake]
      rw [List.take_length_add_append]

theorem cut_front {n : Int} (h : 0 ≤ n) (s : List UInt8) : cut n s = s.drop n.toNat := by
  rw [cut, if_pos h]
  rcases Nat.le_total n.toNat s.length with hle | hle
  · rw [Nat.min_eq_left hle]
  · rw [Nat.min_eq_right hle, List.drop_length, List.drop_of_length_le hle]

theorem cut_back {n : Int} (h : ¬ 0 ≤ n) (s : List UInt8) :
    cut n s = s.take (s.length - (-n).toNat) := by
  have hlen : s.length - min (-n).toNat s.length = s.length - (-n).toNat := by omega
  rw [cut, if_neg h, List.rdrop, hlen]

/-- `m_adj` cuts the bytes, and the header counts them as before. -/
theorem m_adj_spec (hlen : (bytes chain).length < 2 ^ 31) {n : Int} (hn : -2 ^ 31 < n) :
    ∃ chain', m_adj chain n = some chain' ∧ bytes chain' = cut n (bytes chain) ∧
      (Counted chain 0 → Counted chain' 0) := by
  rw [m_adj]
  by_cases hnil : chain = []
  · rw [if_pos hnil, hnil]
    refine ⟨[], rfl, ?_, id⟩
    rw [cut]
    split
    · exact List.drop_nil.symm
    · exact (List.rdrop_nil _).symm
  rw [if_neg hnil]
  by_cases hpos : 0 ≤ n
  · obtain ⟨hbytes, hleft⟩ := adjFront_bytes chain n.toNat
    rw [if_pos hpos]
    refine ⟨_, rfl, ?_, fun h => h.setHeader (adjFront_header chain n.toNat) ?_⟩
    · rw [bytes_setHeader, hbytes, cut_front hpos]
    · rw [hleft, hbytes, List.length_drop]
      omega
  · have hint : ¬ (n = -2 ^ 31 ∨ 2 ^ 31 ≤ total chain) := by
      rw [total_eq]
      omega
    rw [if_neg hpos, if_neg hint, cut_back hpos]
    dsimp only
    cases hlast : adjLast chain (-n).toNat with
    | some chain' =>
      obtain ⟨hbytes, hheader, hle⟩ := adjLast_bytes hlast
      refine ⟨_, rfl, ?_, fun h => h.setHeader hheader ?_⟩
      · rw [bytes_setHeader, hbytes]
      · rw [hbytes, List.length_take]
        omega
    | none =>
      have hi : total chain - (-n).toNat ≤ (bytes chain).length := by
        rw [total_eq]
        omega
      obtain ⟨chain', hback, hbytes, hheader⟩ := adjBack_bytes hnil hi
      rw [hback]
      refine ⟨_, rfl, ?_, fun h => h.setHeader hheader ?_⟩
      · rw [bytes_setHeader, hbytes, total_eq]
      · rw [hbytes, List.length_take, Nat.min_eq_left hi]

/-! ## `m_pullup` -/

/-- What the loop does: `m` gets the bytes that the chain loses, and mbufs without bytes are
freed. -/
structure PullsUp (m : Mbuf) (n : List Mbuf) (len : Int) (r : Pulled) : Prop where
  addr : r.m.addr = m.addr
  pkthdr : r.m.pkthdr = m.pkthdr
  bytes_eq : r.m.data ++ bytes r.n = m.data ++ bytes n
  len_eq : r.len = len + m.len - r.m.len
  freed : r.freed ++ r.n.map Mbuf.addr = n.map Mbuf.addr
  ends : 0 < r.len → r.n = []

/-- A turn takes a whole mbuf or all that is wanted. -/
theorem copied_spec (max_protohdr : Nat) {m n : Mbuf} {len : Int} (hspace : len ≤ m.space) :
    copied max_protohdr m n len ≤ m.space ∧
      (copied max_protohdr m n len = n.len ∨
        copied max_protohdr m n len < n.len ∧ len ≤ copied max_protohdr m n len) := by
  rw [copied]
  omega

theorem len_fill (m : Mbuf) (bytes : List UInt8) (h : bytes.length ≤ m.space) :
    (m.fill bytes h).len = m.len + bytes.length := List.length_append

theorem space_fill (m : Mbuf) (bytes : List UInt8) (h : bytes.length ≤ m.space) :
    (m.fill bytes h).space = m.space - bytes.length := by
  rw [Mbuf.space, Mbuf.space, len_fill]
  show m.extSize - (m.lead + (m.len + bytes.length)) = _
  omega

theorem pullupLoop_spec (max_protohdr : Nat) (ms : List Mbuf) {m : Mbuf} {len : Int}
    (hne : ms ≠ []) (hspace : len ≤ m.space) :
    ∃ r, pullupLoop max_protohdr m ms len = some r ∧ PullsUp m ms len r := by
  induction ms generalizing m len with
  | nil => exact absurd rfl hne
  | cons n ns ih =>
    rw [pullupLoop]
    have hlen := len_fill m _ (length_take_copied max_protohdr m n len)
    have hfill := space_fill m _ (length_take_copied max_protohdr m n len)
    rw [List.length_take_of_le (copied_le_len max_protohdr m n len)] at hlen hfill
    obtain ⟨hroom, hall | ⟨hpart, hwanted⟩⟩ := @copied_spec max_protohdr m n len hspace
    · have htake : n.data.take (copied max_protohdr m n len) = n.data := by
        rw [hall]
        exact List.take_length
      have hm : (m.fill _ (length_take_copied max_protohdr m n len)).data = m.data ++ n.data :=
        congrArg (m.data ++ ·) htake
      rw [if_pos (by omega)]
      split
      · rename_i hmore
        obtain ⟨r, hr, hpulls⟩ := @ih (m.fill _ (length_take_copied max_protohdr m n len))
          (len - copied max_protohdr m n len) hmore.2 (by omega)
        rw [hr]
        refine ⟨_, rfl, hpulls.addr, hpulls.pkthdr, ?_, ?_, ?_, hpulls.ends⟩
        · rw [bytes_cons, ← List.append_assoc, ← hm]
          exact hpulls.bytes_eq
        · have hend := hpulls.len_eq
          show r.len = len + m.len - r.m.len
          omega
        · exact congrArg (n.addr :: ·) hpulls.freed
      · rename_i hlast
        refine ⟨_, rfl, rfl, rfl, ?_, ?_, rfl, ?_⟩
        · rw [bytes_cons, ← List.append_assoc, ← hm]
        · dsimp only
          omega
        · intro hmore
          by_contra hns
          exact hlast ⟨hmore, hns⟩
    · rw [if_neg (by omega), if_neg (by omega)]
      refine ⟨_, rfl, rfl, rfl, ?_, ?_, rfl, ?_⟩
      · show (m.data ++ n.data.take _) ++ (n.data.drop _ ++ bytes ns) = m.data ++ (n.data ++ bytes ns)
        rw [List.append_assoc, ← List.append_assoc (n.data.take _), List.take_append_drop]
      · dsimp only
        omega
      · intro hmore
        dsimp only at hmore
        omega

section

variable {len : Int} {r : Pulled}

theorem PullsUp.left_some (h : PullsUp m ms len r)
    (hle : len + m.len ≤ (m.data ++ bytes ms).length) :
    r.left = ⟨some (r.m :: r.n), r.freed⟩ ∧ len + m.len ≤ r.m.len := by
  have hend : ¬ 0 < r.len := by
    intro hmore
    have hlen := h.len_eq
    have hbytes := congrArg List.length h.bytes_eq
    rw [h.ends hmore, List.length_append] at hbytes
    have hall : (bytes ([] : List Mbuf)).length = 0 := rfl
    have hm : r.m.data.length = r.m.len := rfl
    omega
  refine ⟨if_neg hend, ?_⟩
  have hlen := h.len_eq
  omega

theorem PullsUp.left_none (h : PullsUp m ms len r)
    (hlt : (m.data ++ bytes ms).length < len + m.len) :
    r.left = ⟨none, ms.map Mbuf.addr ++ [m.addr]⟩ := by
  have hmore : 0 < r.len := by
    have hlen := h.len_eq
    have hbytes := congrArg List.length h.bytes_eq
    rw [List.length_append] at hbytes
    have hm : r.m.data.length = r.m.len := rfl
    omega
  have hfreed := h.freed
  rw [h.ends hmore, List.map_nil, List.append_nil] at hfreed
  rw [Pulled.left, if_pos hmore, h.ends hmore, hfreed, h.addr]
  rfl

/-- The bytes are the same, the header still counts them and the first mbuf has `len` of them. -/
structure PulledUp (chain : List Mbuf) (len : Int) (chain' : List Mbuf) : Prop where
  bytes_eq : bytes chain' = bytes chain
  first : ∃ m ms, chain' = m :: ms ∧ len ≤ m.len
  counted : Counted chain 0 → Counted chain' 0

/-- What comes out of the loop when `m` and `ms` have the bytes of the chain. -/
theorem PullsUp.pulledUp {n : Mbuf} {ns : List Mbuf} (h : PullsUp m ms len r)
    (hbytes : m.data ++ bytes ms = bytes (n :: ns)) (hpkthdr : m.pkthdr = n.pkthdr)
    (hle : len + m.len ≤ (bytes (n :: ns)).length) :
    ∃ chain', r.left.chain = some chain' ∧ PulledUp (n :: ns) (len + m.len) chain' := by
  rw [← hbytes] at hle
  obtain ⟨hleft, hfirst⟩ := h.left_some hle
  have hsame : bytes (r.m :: r.n) = bytes (n :: ns) := h.bytes_eq.trans hbytes
  refine ⟨r.m :: r.n, by rw [hleft], hsame, ⟨r.m, r.n, rfl, hfirst⟩, ?_⟩
  intro hcount l hl
  rw [hsame]
  refine hcount l ?_
  show n.pkthdr = some l
  rw [← hpkthdr, ← h.pkthdr]
  exact hl

/-- `m_pullup` leaves the bytes in place, or it frees the chain. -/
theorem m_pullup_spec (max_protohdr : Nat) (hne : chain ≠ []) (len : Int)
    (got : Option (Got chain len)) :
    ∃ r, m_pullup max_protohdr chain len got = some r ∧
      (len ≤ (bytes chain).length →
        (∃ chain', r.chain = some chain' ∧ PulledUp chain len chain') ∨
          got = none ∧ Freed chain r) ∧
      ((bytes chain).length < len → Freed chain r) := by
  cases chain with
  | nil => exact absurd rfl hne
  | cons n ns =>
    have hlength := length_bytes_cons n ns
    have hwindow := n.window
    have hn : n.data.length = n.len := rfl
    unfold m_pullup
    dsimp only
    split
    · rename_i hroom
      split
      · rename_i hthere
        refine ⟨_, rfl, fun _ => Or.inl ⟨n :: ns, rfl, rfl, ⟨n, ns, rfl, hthere⟩, id⟩, ?_⟩
        intro hlt
        omega
      · have hspace : len - n.len ≤ n.space := by
          rw [Mbuf.space]
          omega
        obtain ⟨r, hr, hpulls⟩ := pullupLoop_spec max_protohdr ns hroom.2 hspace
        have hlen : len - n.len + n.len = len := by omega
        rw [hr]
        refine ⟨_, rfl, fun hle => Or.inl ?_, fun hlt => ?_⟩
        · have hpulled := @PullsUp.pulledUp _ _ _ _ n ns hpulls rfl rfl (by omega)
          rw [hlen] at hpulled
          exact hpulled
        · have hleft := hpulls.left_none (by rw [← bytes_cons]; omega)
          rw [hleft]
          refine ⟨rfl, fun a _ => List.Perm.count_eq ?_ a⟩
          exact List.perm_append_singleton n.addr (ns.map Mbuf.addr)
    · cases got with
      | none => exact ⟨_, rfl, fun _ => Or.inr ⟨rfl, freed_all _⟩, fun _ => freed_all _⟩
      | some g =>
        have hfits := g.fits
        have hspace : len ≤ (g.empty n).space := hfits
        obtain ⟨r, hr, hpulls⟩ := pullupLoop_spec max_protohdr
          ({ n with pkthdr := none } :: ns) (List.cons_ne_nil _ _) hspace
        have hempty : (g.empty n).len = 0 := rfl
        have hlen : len + (g.empty n).len = len := by omega
        dsimp only
        rw [hr]
        refine ⟨_, rfl, fun hle => Or.inl ?_, fun hlt => ?_⟩
        · have hpulled := @PullsUp.pulledUp _ _ _ _ n ns hpulls rfl rfl (by omega)
          rw [hlen] at hpulled
          exact hpulled
        · have hleft := hpulls.left_none (by rw [hlen]; exact hlt)
          rw [hleft]
          refine ⟨rfl, fun a ha => ?_⟩
          have hother : a ≠ g.addr := by
            intro heq
            rw [heq] at ha
            exact g.fresh ha
          have hlast : List.count a [(g.empty n).addr] = 0 :=
            List.count_eq_zero.2 (fun hmem => hother (List.mem_singleton.1 hmem))
          rw [List.count_append, hlast]
          rfl

end

/-! ## The operations -/

/-- `m_adj` drops bytes, at the front or at the end. -/
def Adjusts (chain : List Mbuf) (n : Int) : Prop :=
  ∃ chain', m_adj chain n = some chain' ∧ bytes chain' = cut n (bytes chain) ∧
    (Counted chain 0 → Counted chain' 0)

/-- `m_cat` concatenates. -/
def Concatenates (chain n : List Mbuf) : Prop :=
  ∃ chain', m_cat chain n = some chain' ∧ bytes chain' = bytes chain ++ bytes n ∧
    (Counted chain 0 → Counted chain' (bytes n).length)

/-- `m_prepend` adds bytes in front, or it gets no mbuf and frees the chain. -/
def Prepends (chain : List Mbuf) (len : Nat) (got : Option (Got chain len)) : Prop :=
  ∃ r, m_prepend chain len got = some r ∧
    ((∃ chain' s, r.chain = some chain' ∧ s.length = len ∧ bytes chain' = s ++ bytes chain ∧
        (Counted chain 0 → Counted chain' len)) ∨
      got = none ∧ Freed chain r)

/-- `m_pullup` gets `len` bytes into the first mbuf, or it frees the chain: when there are not so
many, or when `exhausted` and it gets no mbuf. -/
def PullsTogether (max_protohdr : Nat) (chain : List Mbuf) (len : Int)
    (got : Option (Got chain len)) (exhausted : Prop) : Prop :=
  ∃ r, m_pullup max_protohdr chain len got = some r ∧
    (len ≤ (bytes chain).length →
      (∃ chain', r.chain = some chain' ∧ PulledUp chain len chain') ∨
        exhausted ∧ got = none ∧ Freed chain r) ∧
    ((bytes chain).length < len → Freed chain r)

/-- An mbuf with one byte, in a cluster of 64. -/
def oneByte : Mbuf :=
  { addr := 0, data := [7], lead := 0, type := 1, eor := false, extSize := 64, pkthdr := some 1
    window := by decide }

end Vmx.MbufLib
