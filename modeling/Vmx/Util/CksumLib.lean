import Mathlib.Data.List.Perm.Basic
import Vmx.Lib.OnesComplement

/-!
# `cksumLib`: the Internet checksum

The buffer is read as words of 16 bits in the byte order of the machine; a last odd byte goes where
a zero byte behind it would complete the word.  The carries stay in an `int` and are folded at the
end.  An `int` that overflows has no value in the model (`none`).
-/

namespace Vmx.Cksum

open Lib

/-- Addition of two `int`s. -/
def intAdd (a b : Int) : Option Int :=
  if -2147483648 ≤ a + b ∧ a + b ≤ 2147483647 then some (a + b) else none

/-- Two bytes read as an `unsigned short`. -/
def wordOf (bigEndian : Bool) (first second : UInt8) : Nat :=
  if bigEndian then 256 * first.toNat + second.toNat else first.toNat + 256 * second.toNat

/-- What is added for a last byte alone. -/
def lastOf (bigEndian : Bool) (last : UInt8) : Nat :=
  if bigEndian then 256 * last.toNat else last.toNat

/-- The loop over the words and the test for a last byte. -/
def sumLoop (bigEndian : Bool) : List UInt8 → Int → Option Int
  | first :: second :: w, sum =>
    (intAdd sum (wordOf bigEndian first second)).bind (sumLoop bigEndian w)
  | [last], sum => intAdd sum (lastOf bigEndian last)
  | [], sum => some sum

/-- `checksum`. -/
def checksum (bigEndian : Bool) (addr : List UInt8) : Option Int := do
  let sum ← sumLoop bigEndian addr 0
  let sum ← intAdd (sum / 65536) (sum % 65536)
  let sum ← intAdd sum (sum / 65536)
  let result := sum % 65536
  return (-result - 1) % 65536

/-! ## The words of a buffer -/

/-- The words of the buffer, a last byte alone with a zero byte behind it. -/
def words (bigEndian : Bool) : List UInt8 → List Nat
  | first :: second :: w => wordOf bigEndian first second :: words bigEndian w
  | [last] => [wordOf bigEndian last 0]
  | [] => []

/-- A word is stored at an index of the buffer. -/
def store (bigEndian : Bool) (value : Nat) : Nat → List UInt8 → List UInt8
  | 0, _ :: _ :: w =>
    if bigEndian then UInt8.ofNat (value / 256) :: UInt8.ofNat (value % 256) :: w
    else UInt8.ofNat (value % 256) :: UInt8.ofNat (value / 256) :: w
  | i + 1, first :: second :: w => first :: second :: store bigEndian value i w
  | _, w => w

section

variable {bigEndian : Bool} {addr : List UInt8}

theorem wordOf_le (first second : UInt8) : wordOf bigEndian first second ≤ 65535 := by
  have h1 := first.toNat_lt
  have h2 := second.toNat_lt
  unfold wordOf
  split <;> omega

theorem lastOf_eq (last : UInt8) : lastOf bigEndian last = wordOf bigEndian last 0 := rfl

theorem words_le : ∀ w ∈ words bigEndian addr, w ≤ 65535 := by
  fun_induction words bigEndian addr with
  | case1 first second rest ih =>
    intro w hw
    rcases List.mem_cons.1 hw with h | h
    · exact h ▸ wordOf_le first second
    · exact ih w h
  | case2 last =>
    intro w hw
    rw [List.mem_singleton.1 hw]
    exact wordOf_le last 0
  | case3 => exact fun w hw => absurd hw List.not_mem_nil

theorem words_length : 2 * (words bigEndian addr).length ≤ addr.length + 1 := by
  fun_induction words bigEndian addr with
  | case1 first second rest ih =>
    rw [List.length_cons, List.length_cons, List.length_cons]
    omega
  | case2 last => exact Nat.le_refl 2
  | case3 => exact Nat.zero_le 1

/-- The words of a buffer of `65535` bytes do not overflow an `int`. -/
theorem words_sum_le : (words bigEndian addr).sum ≤ 65535 * (words bigEndian addr).length := by
  have hall := @words_le bigEndian addr
  generalize words bigEndian addr = ws at hall ⊢
  induction ws with
  | nil => exact Nat.zero_le _
  | cons w ws ih =>
    have hw := hall w List.mem_cons_self
    have hws := ih fun v hv => hall v (List.mem_cons_of_mem w hv)
    rw [List.sum_cons, List.length_cons]
    omega

theorem intAdd_nat {a b : Nat} (h : a + b ≤ 2147483647) :
    intAdd (a : Int) (b : Int) = some ((a + b : Nat) : Int) := by
  rw [intAdd, if_pos (by omega)]
  rfl

theorem sumLoop_eq {sum : Nat} (h : sum + (words bigEndian addr).sum ≤ 2147483647) :
    sumLoop bigEndian addr sum = some ((sum + (words bigEndian addr).sum : Nat) : Int) := by
  fun_induction words bigEndian addr generalizing sum with
  | case1 first second rest ih =>
    rw [List.sum_cons] at h ⊢
    rw [sumLoop, intAdd_nat (by omega), Option.bind_some, ih (by omega), Nat.add_assoc]
  | case2 last =>
    rw [List.sum_singleton] at h ⊢
    rw [sumLoop, lastOf_eq, intAdd_nat h]
  | case3 => rfl

/-! ## The folds -/

/-- Two folds leave the residue in the lower half of the `int`. -/
theorem fold_eq {n : Nat} (h : n ≤ 2147483647) :
    (n / 65536 + n % 65536 + (n / 65536 + n % 65536) / 65536) % 65536 =
      onesResidue 65535 n := by
  obtain ⟨high, hhigh⟩ : ∃ high, high = n / 65536 := ⟨_, rfl⟩
  obtain ⟨low, hlow⟩ : ∃ low, low = n % 65536 := ⟨_, rfl⟩
  have hn : n = 65536 * high + low := by omega
  rw [← hhigh, ← hlow]
  by_cases hcarry : high + low ≤ 65535
  · rw [Nat.div_eq_of_lt (by omega), Nat.add_zero, Nat.mod_eq_of_lt (by omega)]
    rcases Nat.eq_zero_or_pos (high + low) with hzero | hpos
    · have hn' : n = 0 := by omega
      rw [hzero, hn']
      rfl
    · have hunique := @onesResidue_unique 65535 high _ hpos hcarry
      have htotal : 65535 * high + (high + low) = n := by omega
      rw [htotal] at hunique
      exact hunique.symm
  · have hunique := @onesResidue_unique 65535 (high + 1) (high + low - 65535) (by omega) (by omega)
    have htotal : 65535 * (high + 1) + (high + low - 65535) = n := by omega
    have hdiv : (high + low) / 65536 = 1 := by omega
    rw [htotal] at hunique
    rw [hunique, hdiv]
    omega

/-- The complement of the sum of the words. -/
theorem checksum_eq (h : addr.length ≤ 65535) :
    checksum bigEndian addr =
      some ((65535 - onesSum 65535 (words bigEndian addr) : Nat) : Int) := by
  have hlength := @words_length bigEndian addr
  have hsum := @words_sum_le bigEndian addr
  -- 32767 full words and the last byte
  have hbound : (words bigEndian addr).sum ≤ 2147483647 := by omega
  have hloop : sumLoop bigEndian addr 0 = some (((words bigEndian addr).sum : Nat) : Int) := by
    have hzero := @sumLoop_eq bigEndian addr 0 (by omega)
    rwa [Nat.zero_add] at hzero
  have hfold := fold_eq hbound
  have hle := @onesResidue_le 65535 (words bigEndian addr).sum (Nat.succ_pos 65534)
  rw [onesSum_eq words_le, ← hfold, checksum, hloop]
  generalize (words bigEndian addr).sum = n at *
  have hhigh : (n : Int) / 65536 = ((n / 65536 : Nat) : Int) := by omega
  have hlow : (n : Int) % 65536 = ((n % 65536 : Nat) : Int) := by omega
  have hcarry : ((n / 65536 + n % 65536 : Nat) : Int) / 65536 =
      (((n / 65536 + n % 65536) / 65536 : Nat) : Int) := by omega
  have hfirst : intAdd ((n : Int) / 65536) ((n : Int) % 65536) =
      some ((n / 65536 + n % 65536 : Nat) : Int) := by
    rw [hhigh, hlow, intAdd_nat (by omega)]
  have hsecond : intAdd ((n / 65536 + n % 65536 : Nat) : Int)
      (((n / 65536 + n % 65536 : Nat) : Int) / 65536) =
        some ((n / 65536 + n % 65536 + (n / 65536 + n % 65536) / 65536 : Nat) : Int) := by
    rw [hcarry, intAdd_nat (by omega)]
  show (intAdd ((n : Int) / 65536) ((n : Int) % 65536)).bind _ = _
  rw [hfirst]
  show (intAdd _ _).bind _ = _
  rw [hsecond]
  refine congrArg some ?_
  rw [← hfold] at hle
  omega

/-! ## Storing the result -/

theorem store_length (value i : Nat) : (store bigEndian value i addr).length = addr.length := by
  fun_induction store bigEndian value i addr with
  | case1 => rfl
  | case2 => rfl
  | case3 i first second w ih =>
    rw [List.length_cons, List.length_cons, ih, List.length_cons, List.length_cons]
  | case4 => rfl

theorem wordOf_bytes {value : Nat} (h : value ≤ 65535) :
    wordOf true (UInt8.ofNat (value / 256)) (UInt8.ofNat (value % 256)) = value ∧
      wordOf false (UInt8.ofNat (value % 256)) (UInt8.ofNat (value / 256)) = value := by
  unfold wordOf
  rw [if_pos rfl, if_neg Bool.false_ne_true, UInt8.toNat_ofNat', UInt8.toNat_ofNat']
  omega

/-- The word at the index is the value that has been stored. -/
theorem words_store {value i : Nat} (hvalue : value ≤ 65535) (hi : 2 * i + 1 < addr.length) :
    words bigEndian (store bigEndian value i addr) = (words bigEndian addr).set i value := by
  obtain ⟨hbig, hlittle⟩ := wordOf_bytes hvalue
  induction i generalizing addr with
  | zero =>
    rcases addr with _ | ⟨first, _ | ⟨second, w⟩⟩
    · exact absurd hi (Nat.not_lt_zero _)
    · exact absurd hi (Nat.lt_irrefl _)
    · cases bigEndian with
      | true =>
        rw [store, if_pos rfl, words, words, hbig]
        rfl
      | false =>
        rw [store, if_neg Bool.false_ne_true, words, words, hlittle]
        rfl
  | succ i ih =>
    rcases addr with _ | ⟨first, _ | ⟨second, w⟩⟩
    · exact absurd hi (Nat.not_lt_zero _)
    · rw [List.length_singleton] at hi
      omega
    · rw [List.length_cons, List.length_cons] at hi
      rw [store, words, words, List.set_cons_succ, ih (by omega)]

theorem index_lt {i : Nat} (hi : 2 * i + 1 < addr.length) : i < (words bigEndian addr).length := by
  fun_induction words bigEndian addr generalizing i with
  | case1 first second w ih =>
    rw [List.length_cons, List.length_cons] at hi
    rw [List.length_cons]
    cases i with
    | zero => exact Nat.succ_pos _
    | succ i => exact Nat.succ_lt_succ (ih (by omega))
  | case2 last =>
    rw [List.length_singleton] at hi
    omega
  | case3 => exact absurd hi (Nat.not_lt_zero _)

/-- A word that was zero adds the value to the total. -/
theorem sum_set {ws : List Nat} {i value : Nat} (hi : i < ws.length) (hzero : ws[i] = 0) :
    (ws.set i value).sum = ws.sum + value := by
  induction ws generalizing i with
  | nil => exact absurd hi (Nat.not_lt_zero i)
  | cons w ws ih =>
    cases i with
    | zero =>
      have hw : w = 0 := hzero
      rw [List.set_cons_zero, List.sum_cons, List.sum_cons, hw]
      omega
    | succ i =>
      have htail := ih (Nat.lt_of_succ_lt_succ hi) hzero
      rw [List.set_cons_succ, List.sum_cons, List.sum_cons, htail, Nat.add_assoc]

/-- `checksum` has a value for the buffer, the complement of the sum of its words; a result that is
stored in a zeroed word makes it zero; and the order of the words does not matter. -/
structure ChecksumRight (bigEndian : Bool) (addr : List UInt8) : Prop where
  value : checksum bigEndian addr =
    some ((65535 - onesSum 65535 (words bigEndian addr) : Nat) : Int)
  stored : ∀ i, 2 * i + 1 < addr.length → (words bigEndian addr)[i]? = some 0 →
    ∀ result : Nat, checksum bigEndian addr = some (result : Int) →
      checksum bigEndian (store bigEndian result i addr) = some 0
  order : ∀ addr', addr'.length ≤ 65535 → (words bigEndian addr').Perm (words bigEndian addr) →
    checksum bigEndian addr' = checksum bigEndian addr

/-- `checksum` is the Internet checksum of every buffer of up to `65535` bytes. -/
theorem internet_checksum (bigEndian : Bool) (addr : List UInt8) (h : addr.length ≤ 65535) :
    ChecksumRight bigEndian addr := by
  have hvalue := @checksum_eq bigEndian addr h
  refine ⟨hvalue, fun i hi hzero result hresult => ?_, fun addr' h' hperm => ?_⟩
  · rw [hvalue] at hresult
    have hresult' : result = 65535 - onesSum 65535 (words bigEndian addr) :=
      (Int.ofNat.inj (Option.some.inj hresult)).symm
    have hlt := @index_lt bigEndian addr i hi
    have hzero' : (words bigEndian addr)[i] = 0 := by
      rw [List.getElem?_eq_getElem hlt] at hzero
      exact Option.some.inj hzero
    rw [checksum_eq (by rwa [store_length]), onesSum_eq words_le,
      words_store (by omega) hi, sum_set hlt hzero', hresult', onesSum_eq words_le,
      onesResidue_complement (Nat.succ_pos 65534)]
    rfl
  · rw [checksum_eq h', hvalue, onesSum_perm hperm words_le]

/-- Two words and a last byte on a big-endian machine: the sum has a carry. -/
theorem internet_checksum_odd :
    ([0xff, 0xff, 0x00, 0x02, 0x80] : List UInt8).length ≤ 65535 ∧
      ChecksumRight true [0xff, 0xff, 0x00, 0x02, 0x80] :=
  ⟨by decide, internet_checksum true _ (by decide)⟩

end

end Vmx.Cksum
