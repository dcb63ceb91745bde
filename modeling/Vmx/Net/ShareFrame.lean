import Mathlib.Data.List.Basic
import Vmx.Net.ShareLib

/-!
# Which bytes a call leaves alone

`m_pullup` and `sbappend` copy bytes behind the window of an mbuf, whether or not another chain has
a window there.  A call changes no byte of a chain that is not one of its operands when its copies
hit no window of such a chain (`calls_frame`).
-/

namespace Vmx.Share

open Lib

variable {k : Nat}

/-- The bytes of an mbuf. -/
def Mbuf.read (mem : Nat → Nat → UInt8) (m : Mbuf) : List UInt8 :=
  (List.range m.len).map fun i => mem m.cluster (m.lead + i)

/-- The bytes of a chain. -/
def State.bytes (s : State k) (i : Fin k) : List UInt8 := (s.chains i).flatMap (Mbuf.read s.mem)

/-- A copy writes a byte of a window. -/
def Copy.Hits (c : Copy) (m : Mbuf) : Prop :=
  c.dst = m.cluster ∧ ∃ o, c.dstOff ≤ o ∧ o < c.dstOff + c.n ∧ m.lead ≤ o ∧ o < m.lead + m.len

/-- The copies of a call hit no window of a chain that is not an operand. -/
def Clear (s : State k) (c : Call k) : Prop :=
  ∀ r, plan s.chains c = some r → ∀ copy ∈ r.1, ∀ i ∉ c.operands, ∀ m ∈ s.chains i, ¬ copy.Hits m

/-- A call leaves the bytes of the other chains as they are. -/
def Frames (s : State k) (c : Call k) : Prop :=
  ∀ s', step s c = some s' → ∀ i ∉ c.operands, s'.bytes i = s.bytes i

theorem Copy.read_run {c : Copy} {m : Mbuf} (h : ¬ c.Hits m) (mem : Nat → Nat → UInt8) :
    m.read (c.run mem) = m.read mem := by
  refine List.map_congr_left fun i hi => ?_
  rw [List.mem_range] at hi
  refine if_neg fun hwrite => h ⟨hwrite.1.symm, m.lead + i, hwrite.2.1, hwrite.2.2, ?_, ?_⟩
  · omega
  · omega

theorem read_foldl {copies : List Copy} {m : Mbuf} (h : ∀ c ∈ copies, ¬ c.Hits m)
    (mem : Nat → Nat → UInt8) : m.read (copies.foldl Copy.run mem) = m.read mem := by
  induction copies generalizing mem with
  | nil => rfl
  | cons c cs ih =>
    rw [List.foldl_cons, ih fun c' hc' => h c' (List.mem_cons_of_mem c hc')]
    exact Copy.read_run (h c List.mem_cons_self) mem

/-- A plan for one chain. -/
theorem mapped_other {α : Type} {chains : Fin k → List Mbuf} {o : Option α} {n i : Fin k}
    {f : α → List Copy × List Mbuf} {r : List Copy × (Fin k → List Mbuf)}
    (h : (o.map fun x => ((f x).1, Function.update chains n (f x).2)) = some r) (hi : i ≠ n) :
    r.2 i = chains i := by
  obtain ⟨x, -, hr⟩ := Option.map_eq_some_iff.1 h
  rw [← hr]
  exact Function.update_of_ne hi _ _

/-- A plan for two chains. -/
theorem updated_other {chains : Fin k → List Mbuf} {n n' i : Fin k} {c c' : List Mbuf}
    (hi : i ≠ n) (hi' : i ≠ n') :
    Function.update (Function.update chains n c) n' c' i = chains i := by
  rw [Function.update_of_ne hi', Function.update_of_ne hi]

theorem plan_other {chains : Fin k → List Mbuf} {c : Call k}
    {r : List Copy × (Fin k → List Mbuf)} (h : plan chains c = some r) {i : Fin k}
    (hi : i ∉ c.operands) : r.2 i = chains i := by
  cases c with
  | netMblkChainDup old new offset len short =>
    rw [Call.operands, List.mem_cons, List.mem_singleton, not_or] at hi
    exact @mapped_other _ _ _ _ _ _ (fun x => ([], x)) _ h hi.2
  | m_pullup n max_protohdr len got =>
    rw [Call.operands, List.mem_singleton] at hi
    rw [plan] at h
    split at h
    · exact @mapped_other _ _ _ _ _ _ id _ h hi
    · exact absurd h (by simp)
  | m_prepend m len got =>
    rw [Call.operands, List.mem_singleton] at hi
    rw [plan] at h
    split at h
    · exact @mapped_other _ _ _ _ _ _ (fun x => ([], x)) _ h hi
    · exact absurd h (by simp)
  | m_adj mp req_len =>
    rw [Call.operands, List.mem_singleton] at hi
    exact @mapped_other _ _ _ _ _ _ (fun x => ([], x)) _ h hi
  | m_cat m n =>
    rw [Call.operands, List.mem_cons, List.mem_singleton, not_or] at hi
    rw [plan] at h
    split at h
    · exact absurd h (by simp)
    · rw [← Option.some.inj h]
      exact updated_other hi.2 hi.1
  | m_freem m =>
    rw [Call.operands, List.mem_singleton] at hi
    rw [← Option.some.inj h]
    exact Function.update_of_ne hi _ _
  | sbappend record m =>
    rw [Call.operands, List.mem_cons, List.mem_singleton, not_or] at hi
    rw [plan] at h
    split at h
    · exact absurd h (by simp)
    · rw [← Option.some.inj h]
      exact updated_other hi.2 hi.1

/-- A call whose copies hit no other window changes no other chain. -/
theorem Clear.frames {s : State k} {c : Call k} (h : Clear s c) : Frames s c := by
  intro s' hstep i hi
  obtain ⟨r, hplan, hs'⟩ := Option.map_eq_some_iff.1 hstep
  have hchain : s'.chains i = s.chains i := by
    rw [← hs']
    exact plan_other hplan hi
  rw [State.bytes, State.bytes, hchain, ← hs']
  refine List.flatMap_congr fun m hm => read_foldl (fun copy hcopy => ?_) s.mem
  exact h r hplan copy hcopy i hi m hm

/-! ## Clusters that are not shared -/

theorem pullupLoop_dst (max_protohdr : Nat) {m : Mbuf} {ns : List Mbuf} {len : Int}
    {r : List Copy × Mbuf × List Mbuf × Int} (h : pullupLoop max_protohdr m ns len = some r) :
    ∀ c ∈ r.1, c.dst = m.cluster := by
  induction ns generalizing m len r with
  | nil => exact absurd h (by simp [pullupLoop])
  | cons n ns ih =>
    rw [pullupLoop] at h
    split_ifs at h
    · obtain ⟨r', hr', hr⟩ := Option.map_eq_some_iff.1 h
      intro c hc
      rw [← hr, List.mem_cons] at hc
      rcases hc with hfirst | hrest
      · rw [hfirst]
        rfl
      · exact ih hr' c hrest
    · intro c hc
      rw [← Option.some.inj h, List.mem_singleton] at hc
      rw [hc]
      rfl
    · intro c hc
      rw [← Option.some.inj h, List.mem_singleton] at hc
      rw [hc]
      rfl

/-- `m_pullup` copies to the first mbuf of the chain, or to the one that it gets. -/
theorem m_pullup_dst {max_protohdr : Nat} {chain : List Mbuf} {len : Int}
    {got : Option (Nat × Nat)} {r : List Copy × List Mbuf}
    (h : m_pullup max_protohdr chain len got = some r) :
    ∀ c ∈ r.1, (∃ m ∈ chain, c.dst = m.cluster) ∨ ∃ g ∈ got, c.dst = g.1 := by
  cases chain with
  | nil => exact absurd h (by simp [m_pullup])
  | cons n ns =>
    have hloop : ∀ {m : Mbuf} {ms : List Mbuf} {l : Int},
        (pullupLoop max_protohdr m ms l).map pulled = some r → ∀ c ∈ r.1, c.dst = m.cluster := by
      intro m ms l hr c hc
      obtain ⟨r', hr', heq⟩ := Option.map_eq_some_iff.1 hr
      rw [← heq] at hc
      exact pullupLoop_dst max_protohdr hr' c hc
    intro c hc
    unfold m_pullup at h
    dsimp only at h
    split at h
    · split at h
      · rw [← Option.some.inj h] at hc
        exact absurd hc (by simp)
      · exact Or.inl ⟨n, List.mem_cons_self, hloop h c hc⟩
    · cases got with
      | none =>
        rw [← Option.some.inj h] at hc
        exact absurd hc (by simp)
      | some g => exact Or.inr ⟨g, rfl, hloop h c hc⟩

/-- `sbcompress` copies to an mbuf of the record or of what is appended. -/
theorem compressLoop_dst (before : List Mbuf) (n : Option Mbuf) (eor : Bool) (ms : List Mbuf) :
    ∀ c ∈ (compressLoop before n eor ms).1,
      (∃ m ∈ n, c.dst = m.cluster) ∨ ∃ m ∈ ms, c.dst = m.cluster := by
  induction ms generalizing before n eor with
  | nil => exact fun c hc => absurd hc (by simp [compressLoop])
  | cons m ms ih =>
    have hlater : ∀ {c : Copy}, (∃ m' ∈ ms, c.dst = m'.cluster) →
        ∃ m' ∈ m :: ms, c.dst = m'.cluster := by
      intro c h
      obtain ⟨m', hm', hdst⟩ := h
      exact ⟨m', List.mem_cons_of_mem m hm', hdst⟩
    -- The mbuf becomes the last one of the record.
    have hnext : ∀ (b : List Mbuf) (e : Bool),
        ∀ c ∈ (compressLoop b (some { m with eor := false }) e ms).1,
          ∃ m' ∈ m :: ms, c.dst = m'.cluster := by
      intro b e c hc
      rcases ih b _ e c hc with ⟨m', hm', hdst⟩ | hms
      · rw [← Option.some.inj hm'] at hdst
        exact ⟨m, List.mem_cons_self, hdst⟩
      · exact hlater hms
    intro c hc
    unfold compressLoop at hc
    dsimp only at hc
    split at hc
    · exact (ih _ _ _ c hc).imp id hlater
    · split at hc
      · rename_i n hneeded
        split at hc
        · rw [List.mem_cons] at hc
          rcases hc with hfirst | hrest
          · rw [hfirst]
            exact Or.inl ⟨n, rfl, rfl⟩
          · rcases ih _ _ _ c hrest with ⟨n', hn', hdst⟩ | hms
            · rw [← Option.some.inj hn'] at hdst
              exact Or.inl ⟨n, rfl, hdst⟩
            · exact Or.inr (hlater hms)
        · exact Or.inr (hnext _ _ c hc)
      · exact Or.inr (hnext _ _ c hc)

theorem sbcompress_dst (record ms : List Mbuf) : ∀ c ∈ (sbcompress record ms).1,
    (∃ m ∈ record, c.dst = m.cluster) ∨ ∃ m ∈ ms, c.dst = m.cluster := by
  intro c hc
  rcases compressLoop_dst _ _ _ ms c hc with ⟨m, hm, hdst⟩ | hms
  · exact Or.inl ⟨m, List.mem_of_getLast? hm, hdst⟩
  · exact Or.inr hms

theorem sbappend_dst (record ms : List Mbuf) : ∀ c ∈ (sbappend record ms).1,
    (∃ m ∈ record, c.dst = m.cluster) ∨ ∃ m ∈ ms, c.dst = m.cluster := by
  intro c hc
  cases ms with
  | nil => exact absurd hc (by simp [sbappend])
  | cons m0 rest =>
    unfold sbappend at hc
    dsimp only at hc
    split at hc
    · right
      cases rest with
      | nil => exact absurd hc (by simp [sbcompress, compressLoop])
      | cons m ms =>
        dsimp only at hc
        split at hc
        · rcases sbcompress_dst _ _ c hc with ⟨n, hn, hdst⟩ | ⟨n, hn, hdst⟩
          · rw [List.mem_singleton] at hn
            rw [hn] at hdst
            exact ⟨m0, List.mem_cons_self, hdst⟩
          · rw [List.mem_cons] at hn
            rcases hn with hfirst | hrest
            · rw [hfirst] at hdst
              exact ⟨m, List.mem_cons_of_mem m0 List.mem_cons_self, hdst⟩
            · exact ⟨n, List.mem_cons_of_mem m0 (List.mem_cons_of_mem m hrest), hdst⟩
        · rcases sbcompress_dst _ _ c hc with ⟨n, hn, hdst⟩ | ⟨n, hn, hdst⟩
          · rw [List.mem_singleton] at hn
            exact ⟨m0, List.mem_cons_self, by rw [hdst, hn]⟩
          · exact ⟨n, List.mem_cons_of_mem m0 hn, hdst⟩
    · exact sbcompress_dst _ _ c hc

/-- The clusters of the operands are in no other chain. -/
def Private (s : State k) (c : Call k) : Prop :=
  ∀ j ∈ c.operands, ∀ n ∈ s.chains j, ∀ i ∉ c.operands, ∀ m ∈ s.chains i, m.cluster ≠ n.cluster

instance (s : State k) (c : Call k) : Decidable (Private s c) :=
  inferInstanceAs (Decidable (∀ j ∈ c.operands, ∀ n ∈ s.chains j, ∀ i, i ∉ c.operands →
    ∀ m ∈ s.chains i, m.cluster ≠ n.cluster))

/-- It is enough for a call that its operands share no cluster with another chain. -/
theorem Private.clear {s : State k} {c : Call k} (h : Private s c) : Clear s c := by
  intro r hplan copy hcopy i hi m hm hits
  have hnone : ∀ j ∈ c.operands, ¬ ∃ n ∈ s.chains j, copy.dst = n.cluster := by
    intro j hj hn
    obtain ⟨n, hn, hdst⟩ := hn
    exact h j hj n hn i hi m hm (hits.1.symm.trans hdst)
  cases c with
  | netMblkChainDup old new offset len short =>
    obtain ⟨c, -, hr⟩ := Option.map_eq_some_iff.1 hplan
    rw [← hr] at hcopy
    exact absurd hcopy (by simp)
  | m_pullup n max_protohdr len got =>
    rw [plan] at hplan
    split at hplan
    · rename_i hfresh
      obtain ⟨r', hr', hr⟩ := Option.map_eq_some_iff.1 hplan
      rw [← hr] at hcopy
      rcases m_pullup_dst hr' copy hcopy with hold | ⟨g, hg, hdst⟩
      · exact hnone n List.mem_cons_self hold
      · exact hfresh g hg i m hm (hits.1.symm.trans hdst)
    · exact absurd hplan (by simp)
  | m_prepend n len got =>
    rw [plan] at hplan
    split at hplan
    · obtain ⟨c, -, hr⟩ := Option.map_eq_some_iff.1 hplan
      rw [← hr] at hcopy
      exact absurd hcopy (by simp)
    · exact absurd hplan (by simp)
  | m_adj mp req_len =>
    obtain ⟨c, -, hr⟩ := Option.map_eq_some_iff.1 hplan
    rw [← hr] at hcopy
    exact absurd hcopy (by simp)
  | m_cat n n' =>
    rw [plan] at hplan
    split at hplan
    · exact absurd hplan (by simp)
    · rw [← Option.some.inj hplan] at hcopy
      exact absurd hcopy (by simp)
  | m_freem n =>
    rw [← Option.some.inj hplan] at hcopy
    exact absurd hcopy (by simp)
  | sbappend record n =>
    rw [plan] at hplan
    split at hplan
    · exact absurd hplan (by simp)
    · rw [← Option.some.inj hplan] at hcopy
      rcases sbappend_dst _ _ copy hcopy with hrecord | hms
      · exact hnone record List.mem_cons_self hrecord
      · exact hnone n (List.mem_cons_of_mem record List.mem_cons_self) hms

/-! ## Runs -/

/-- Twenty bytes in the cluster 0, and five in the cluster 1. -/
def twoChains : State 3 where
  mem cluster o := UInt8.ofNat (100 * cluster + o)
  chains i :=
    if i = 0 then [⟨0, 0, 20, 64, 1, false, false⟩]
    else if i = 1 then [⟨1, 0, 5, 64, 1, false, false⟩]
    else []

/-- Ten bytes from the middle of a chain are shared and cut from it, and it is pulled up after
another chain has been put behind it. -/
def sharedRun : List (Call 3) :=
  [.netMblkChainDup 0 2 10 10 false, .m_adj 0 (-10), .m_cat 0 1, .m_pullup 0 0 12 none]

end Vmx.Share
