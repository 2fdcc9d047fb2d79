import SpendScript.Proofs.DerIntegers
import SpendScript.Signature.ByteChecks

/-!
# Comparing numbers by their bytes

Without its leading zeros a number uses every byte it has: the first one already makes it larger
than any number of fewer bytes. So the lengths decide where they differ, and where they do not, the
first byte that differs outweighs all bytes behind it.
-/
set_option autoImplicit false

namespace SpendScript.Bytes

theorem toNatBE_dropZeros (bs : Bytes) : toNatBE (dropZeros bs) = toNatBE bs := by
  induction bs with
  | nil => rfl
  | cons b bs ih =>
    unfold dropZeros at ih ⊢
    by_cases zero : b = 0
    · subst zero
      rw [List.dropWhile_cons_of_pos (by decide), ih, toNatBE_cons]
      simp
    · rw [List.dropWhile_cons_of_neg (by simpa using zero)]

/-- What is left begins with a byte that counts. -/
theorem dropZeros_eq_cons {bs rest : Bytes} {first : UInt8} (h : dropZeros bs = first :: rest) :
    first ≠ 0 := by
  have stopped := List.head?_dropWhile_not (· == (0 : UInt8)) bs
  unfold dropZeros at h
  rw [h] at stopped
  simpa using stopped

theorem capacity_le_toNatBE {first : UInt8} (counts : first ≠ 0) (rest : Bytes) :
    capacity rest.length ≤ toNatBE (first :: rest) := by
  have positive : first.toNat ≠ 0 := fun zero => counts (UInt8.toNat_inj.1 zero)
  have once := Nat.le_mul_of_pos_left (capacity rest.length) (Nat.pos_of_ne_zero positive)
  rw [toNatBE_cons]
  omega

/-- The more bytes there are without leading zeros, the larger is the number. -/
theorem toNatBE_lt_of_length_lt {a b : Bytes}
    (shorter : (dropZeros a).length < (dropZeros b).length) : toNatBE a < toNatBE b := by
  rw [← toNatBE_dropZeros a, ← toNatBE_dropZeros b]
  cases digits : dropZeros b with
  | nil =>
    rw [digits] at shorter
    exact absurd shorter (Nat.not_lt_zero _)
  | cons first rest =>
    rw [digits, List.length_cons] at shorter
    calc toNatBE (dropZeros a)
      _ < capacity (dropZeros a).length := toNatBE_lt _
      _ ≤ capacity rest.length := capacity_le (Nat.le_of_lt_succ shorter)
      _ ≤ toNatBE (first :: rest) := capacity_le_toNatBE (dropZeros_eq_cons digits) rest

/-- A first byte that is smaller outweighs all bytes behind it. -/
theorem toNatBE_cons_lt {first first' : UInt8} {rest rest' : Bytes}
    (smaller : first.toNat < first'.toNat) (length : rest.length = rest'.length) :
    toNatBE (first :: rest) < toNatBE (first' :: rest') := by
  have below := toNatBE_lt rest
  have step := Nat.mul_le_mul_right (capacity rest.length) (Nat.succ_le_of_lt smaller)
  rw [Nat.succ_mul] at step
  rw [toNatBE_cons, toNatBE_cons, ← length]
  omega

theorem compare_byte (a b : UInt8) : compare a b = compare a.toNat b.toNat := by
  simp only [compare, compareOfLessAndEq, UInt8.lt_iff_toNat_lt, ← UInt8.toNat_inj]

/-- Strings of one length are ordered from the front as the numbers that they write. -/
theorem compare_of_length_eq {a b : Bytes} (length : a.length = b.length) :
    compare a b = compare (toNatBE a) (toNatBE b) := by
  induction a generalizing b with
  | nil =>
    obtain rfl := List.length_eq_zero_iff.1 length.symm
    rfl
  | cons first rest ih =>
    cases b with
    | nil => cases length
    | cons first' rest' =>
      have same : rest.length = rest'.length := Nat.succ.inj length
      rw [List.compare_cons_cons, compare_byte]
      rcases Nat.lt_trichotomy first.toNat first'.toNat with less | equal | greater
      · rw [Nat.compare_eq_lt.2 less, Nat.compare_eq_lt.2 (toNatBE_cons_lt less same)]
        rfl
      · rw [Nat.compare_eq_eq.2 equal, Ordering.eq_then, ih same, toNatBE_cons, toNatBE_cons, equal,
          same]
        simp only [Nat.compare_eq_ite_lt, Nat.add_lt_add_iff_left]
      · rw [Nat.compare_eq_gt.2 greater, Nat.compare_eq_gt.2 (toNatBE_cons_lt greater same.symm)]
        rfl

/-- Comparing by length first, without leading zeros, compares the numbers. -/
theorem compareByLength_dropZeros (a b : Bytes) :
    (dropZeros a).compareByLength (dropZeros b) = compare (toNatBE a) (toNatBE b) := by
  unfold compareByLength
  rcases Nat.lt_trichotomy (dropZeros a).length (dropZeros b).length with less | equal | greater
  · rw [Nat.compare_eq_lt.2 less, Nat.compare_eq_lt.2 (toNatBE_lt_of_length_lt less)]
    rfl
  · rw [Nat.compare_eq_eq.2 equal, compare_of_length_eq equal, toNatBE_dropZeros,
      toNatBE_dropZeros]
    rfl
  · rw [Nat.compare_eq_gt.2 greater, Nat.compare_eq_gt.2 (toNatBE_lt_of_length_lt greater)]
    rfl

end SpendScript.Bytes
