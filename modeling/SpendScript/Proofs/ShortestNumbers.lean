import SpendScript.Proofs.Operands

/-!
# The shortest bytes of an integer

A byte string that stands for an integer can be made longer without changing the integer, but only
one of the strings is the shortest. Whether a string is that one shows in its last two bytes: the
last byte holds a part of the magnitude, or the one before it needs its top bit and leaves none for
the sign. Writing and reading are inverse to each other exactly on these strings.
-/
set_option autoImplicit false

namespace SpendScript.SignMagnitude

section Digits

variable {negative : Bool} {n : Nat}

theorem digits_of_lt (small : n < 128) :
    digits negative n = [UInt8.ofNat (n + if negative then 128 else 0)] := by
  rw [digits, if_pos small]

theorem digits_of_byte (large : 128 ≤ n) (byte : n < 256) :
    digits negative n = [UInt8.ofNat n, UInt8.ofNat (if negative then 128 else 0)] := by
  rw [digits, if_neg (by omega), if_pos byte]

theorem digits_of_le (large : 256 ≤ n) :
    digits negative n = UInt8.ofNat n :: digits negative (n / 256) := by
  rw [digits, if_neg (by omega), if_neg (by omega)]

theorem digits_ne_nil (negative : Bool) (n : Nat) : digits negative n ≠ [] := by
  unfold digits
  dsimp only
  split
  · exact List.cons_ne_nil _ _
  · split <;> exact List.cons_ne_nil _ _

/-- Behind its first byte a longer string is read on its own. -/
theorem read_cons (b : UInt8) {rest : Bytes} (nonempty : rest ≠ []) :
    magnitude (b :: rest) = b.toNat + 256 * magnitude rest ∧
      isNegative (b :: rest) = isNegative rest := by
  cases rest with
  | nil => exact absurd rfl nonempty
  | cons next rest => exact ⟨rfl, rfl⟩

/-- The digits of a magnitude are read back with the sign that was put into them. -/
theorem read_digits (negative : Bool) (n : Nat) :
    magnitude (digits negative n) = n ∧ isNegative (digits negative n) = negative := by
  induction n using digits.induct negative with
  | case1 n small =>
    rw [digits_of_lt small]
    cases negative <;> simp [magnitude, isNegative] <;> omega
  | case2 n large byte =>
    rw [digits_of_byte (by omega) byte]
    cases negative <;> simp [magnitude, isNegative] <;> omega
  | case3 n large long ih =>
    obtain ⟨value, sign⟩ := read_cons (UInt8.ofNat n) (digits_ne_nil negative (n / 256))
    rw [digits_of_le (by omega), value, sign, ih.1, ih.2, UInt8.toNat_ofNat']
    exact ⟨by omega, rfl⟩

theorem isMinimal_cons (b : UInt8) {rest : Bytes} (several : 1 < rest.length) :
    isMinimal (b :: rest) = isMinimal rest := by
  match rest, several with
  | _ :: _ :: _, _ => rfl

theorem one_lt_length_digits (large : 128 ≤ n) : 1 < (digits negative n).length := by
  rcases Nat.lt_or_ge n 256 with byte | long
  · simp [digits_of_byte large byte]
  · have rest := List.length_pos_iff.2 (digits_ne_nil negative (n / 256))
    rw [digits_of_le long, List.length_cons]
    omega

/-- The digits of a magnitude are never longer than needed. -/
theorem isMinimal_digits (positive : 0 < n) : isMinimal (digits negative n) = true := by
  induction n using digits.induct negative with
  | case1 n small =>
    rw [digits_of_lt small]
    cases negative <;> simp [isMinimal] <;> omega
  | case2 n large byte =>
    rw [digits_of_byte (by omega) byte]
    simp [isMinimal]
    omega
  | case3 n large long ih =>
    rw [digits_of_le (by omega)]
    rcases Nat.lt_or_ge (n / 256) 128 with last | more
    · rw [digits_of_lt last]
      cases negative <;> simp [isMinimal] <;> omega
    · rw [isMinimal_cons _ (one_lt_length_digits more)]
      exact ih (by omega)

theorem ofNat_low_digit (b : UInt8) (high : Nat) : UInt8.ofNat (b.toNat + 256 * high) = b := by
  apply UInt8.toNat_inj.1
  simp

/-- A byte is put together from its lower bits and its sign. -/
theorem ofNat_with_sign (last : UInt8) :
    UInt8.ofNat (last.toNat % 128 + if isNegative [last] then 128 else 0) = last := by
  have byte : last.toNat < 256 := last.toNat_lt
  apply UInt8.toNat_inj.1
  by_cases negative : 128 ≤ last.toNat
  · simp only [isNegative, decide_eq_true negative, ↓reduceIte, UInt8.toNat_ofNat']
    omega
  · simp only [isNegative, decide_eq_false negative, Bool.false_eq_true, ↓reduceIte,
      UInt8.toNat_ofNat']
    omega

/-- A string that is not longer than needed has a magnitude, and consists of its digits. -/
theorem digits_of_isMinimal {bs : Bytes} (nonempty : bs ≠ []) (minimal : isMinimal bs = true) :
    0 < magnitude bs ∧ digits (isNegative bs) (magnitude bs) = bs := by
  induction bs using isMinimal.induct with
  | case1 => exact absurd rfl nonempty
  | case2 last =>
    have used : last.toNat % 128 ≠ 0 := by simpa [isMinimal] using minimal
    refine ⟨Nat.pos_of_ne_zero used, ?_⟩
    rw [magnitude, digits_of_lt (Nat.mod_lt _ (by decide)), ofNat_with_sign]
  | case3 before last =>
    have byte : before.toNat < 256 := before.toNat_lt
    have needed : last.toNat % 128 ≠ 0 ∨ 128 ≤ before.toNat := by
      simpa [isMinimal] using minimal
    have value : magnitude [before, last] = before.toNat + 256 * (last.toNat % 128) := rfl
    have sign : isNegative [before, last] = isNegative [last] := rfl
    rw [value, sign]
    refine ⟨by omega, ?_⟩
    rcases Nat.eq_zero_or_pos (last.toNat % 128) with bare | used
    · -- the last byte is a sign and nothing else
      have alone := ofNat_with_sign last
      rw [bare, Nat.zero_add] at alone
      rw [bare, Nat.mul_zero, Nat.add_zero, digits_of_byte (by omega) byte, UInt8.ofNat_toNat, alone]
    · have high : (before.toNat + 256 * (last.toNat % 128)) / 256 = last.toNat % 128 := by omega
      rw [digits_of_le (by omega), high, ofNat_low_digit, digits_of_lt (Nat.mod_lt _ (by decide)),
        ofNat_with_sign]
  | case4 b next rest more ih =>
    have several : 1 < (next :: rest).length :=
      Nat.succ_lt_succ (List.length_pos_iff.2 more)
    rw [isMinimal_cons b several] at minimal
    obtain ⟨positive, same⟩ := ih (List.cons_ne_nil _ _) minimal
    obtain ⟨value, sign⟩ := read_cons b (List.cons_ne_nil next rest)
    have byte : b.toNat < 256 := b.toNat_lt
    have high : (b.toNat + 256 * magnitude (next :: rest)) / 256 = magnitude (next :: rest) := by
      omega
    rw [value, sign, digits_of_le (by omega), high, ofNat_low_digit, same]
    exact ⟨by omega, rfl⟩

end Digits

/-- What is written for an integer stands for it. -/
theorem value_encode (v : Int) : value (encode v) = v := by
  by_cases zero : v = 0
  · rw [encode, if_pos zero, zero]
    rfl
  · obtain ⟨magnitude, sign⟩ := read_digits (decide (v < 0)) v.natAbs
    rw [encode, if_neg zero, value, magnitude, sign]
    by_cases negative : v < 0
    · rw [if_pos (decide_eq_true negative)]
      omega
    · rw [if_neg (by simpa using negative)]
      omega

theorem isMinimal_encode (v : Int) : isMinimal (encode v) = true := by
  unfold encode
  split
  · rfl
  · exact isMinimal_digits (by omega)

/-- What is not longer than needed is written for its value. -/
theorem encode_value {bs : Bytes} (minimal : isMinimal bs = true) : encode (value bs) = bs := by
  by_cases empty : bs = []
  · subst empty
    rfl
  · obtain ⟨positive, same⟩ := digits_of_isMinimal empty minimal
    have abs := natAbs_value bs
    have sign : decide (value bs < 0) = isNegative bs := by
      rw [value]
      cases isNegative bs with
      | false => simp
      | true => simpa using positive
    rw [encode, if_neg (by omega), abs, sign, same]

/-- The look at the last two bytes finds out whether a string is the one that is written. -/
theorem isMinimal_iff {bs : Bytes} : isMinimal bs = true ↔ encode (value bs) = bs := by
  constructor
  · exact encode_value
  · intro written
    rw [← written]
    exact isMinimal_encode _

/-- One bit is for the sign: half of what the bytes could hold is the bound, in both directions. -/
theorem encode_length_le_iff {v : Int} {width : Nat} :
    (encode v).length ≤ width + 1 ↔ v.natAbs < 128 * Bytes.capacity width := by
  constructor
  · intro short
    have bound := magnitude_lt short
    rwa [← natAbs_value, value_encode] at bound
  · exact encode_length_le

/-- No other string for the same integer is shorter. -/
theorem encode_value_length_le (bs : Bytes) : (encode (value bs)).length ≤ bs.length := by
  cases bs with
  | nil => exact Nat.le_refl 0
  | cons b rest =>
    rw [List.length_cons, encode_length_le_iff, natAbs_value]
    exact magnitude_lt (Nat.le_refl _)

end SpendScript.SignMagnitude
