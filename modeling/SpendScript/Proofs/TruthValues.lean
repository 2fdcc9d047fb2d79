import SpendScript.Proofs.NumberWords

/-!
# Truth as a number that is not zero

Zero has many spellings: any number of zero bytes, with or without a sign behind them. A scan from the
front finds out whether a byte string is one of these without working out its value, and so without a
bound on its length. Where the string is short enough to be read as a number, the scan and the number
agree.
-/
set_option autoImplicit false

namespace SpendScript

namespace SignMagnitude

/-- As the last byte, zero and a sign alone are the two that add nothing to the magnitude. -/
theorem low_bits_eq_zero_iff (last : UInt8) : last.toNat % 128 = 0 ↔ last = 0 ∨ last = 0x80 := by
  have byte : last.toNat < 256 := last.toNat_lt
  have zero : (0 : UInt8).toNat = 0 := rfl
  have sign : (0x80 : UInt8).toNat = 128 := rfl
  rw [← UInt8.toNat_inj, ← UInt8.toNat_inj, zero, sign]
  omega

theorem truthy_singleton (last : UInt8) :
    truthy [last] = false ↔ last = 0 ∨ last = 0x80 := by
  by_cases zero : last = 0 <;> simp [truthy, zero]

/-- Behind its first byte a longer string is judged on its own. -/
theorem truthy_cons_cons (b next : UInt8) (rest : Bytes) :
    truthy (b :: next :: rest) = false ↔ b = 0 ∧ truthy (next :: rest) = false := by
  simp [truthy]

theorem value_eq_zero_iff (bs : Bytes) : value bs = 0 ↔ magnitude bs = 0 := by
  rw [← natAbs_value, Int.natAbs_eq_zero]

/-- The scan answers false exactly on the strings without a magnitude. -/
theorem truthy_eq_false_iff_magnitude (bs : Bytes) : truthy bs = false ↔ magnitude bs = 0 := by
  induction bs using truthy.induct with
  | case1 => exact iff_of_true rfl rfl
  | case2 last => rw [truthy_singleton, magnitude, low_bits_eq_zero_iff]
  | case3 b next rest ih =>
    obtain ⟨places, -⟩ := read_cons b (List.cons_ne_nil next rest)
    have zero : b = 0 ↔ b.toNat = 0 := UInt8.toNat_inj.symm
    rw [truthy_cons_cons, places, ih, zero]
    omega

/-- The strings that are false are zeros, with or without a sign behind them. -/
theorem truthy_eq_false_iff_dropZeros (bs : Bytes) :
    truthy bs = false ↔ Bytes.dropZeros bs = [] ∨ Bytes.dropZeros bs = [0x80] := by
  induction bs using truthy.induct with
  | case1 => exact iff_of_true rfl (.inl rfl)
  | case2 last =>
    rw [truthy_singleton]
    by_cases zero : last = 0 <;> simp [Bytes.dropZeros, zero]
  | case3 b next rest ih =>
    rw [truthy_cons_cons, ih]
    by_cases zero : b = 0 <;> simp [Bytes.dropZeros, zero]

/-- The index says which byte is the last one, however many have been passed. -/
theorem truthyFrom_eq (bs : Bytes) (i : Nat) : truthyFrom (i + bs.length) i bs = truthy bs := by
  induction bs using truthy.induct generalizing i with
  | case1 => rfl
  | case2 last => by_cases zero : last = 0 <;> simp [truthyFrom, truthy, zero]
  | case3 b next rest ih =>
    have earlier : i ≠ i + (b :: next :: rest).length - 1 := by
      simp only [List.length_cons]
      omega
    have shift : i + (b :: next :: rest).length = i + 1 + (next :: rest).length := by
      simp only [List.length_cons]
      omega
    rw [truthyFrom, decide_eq_false earlier, shift, ih]
    by_cases zero : b = 0 <;> simp [truthy, zero]

end SignMagnitude

namespace ScriptNum

/-- A number is zero in words where it is zero as an integer. -/
theorem toWord_beq_zero (n : ScriptNum) : (n.toWord == 0) = n.isZero := by
  rw [isZero, Bool.eq_iff_iff, beq_iff_eq, beq_iff_eq, ← toInt_toWord n]
  exact BitVec.toInt_inj.symm

/-- What can be read as a number is false exactly if the number is zero. -/
theorem map_isZero_decode (bs : Bytes) :
    (decode bs false 8).map isZero =
      if bs.length ≤ 8 then .ok (!SignMagnitude.truthy bs) else .error .unknown := by
  have zero : (SignMagnitude.value bs == 0) = !SignMagnitude.truthy bs := by
    rw [Bool.eq_iff_iff, beq_iff_eq, Bool.not_eq_true', SignMagnitude.value_eq_zero_iff,
      SignMagnitude.truthy_eq_false_iff_magnitude]
  split
  · next short =>
    have read : decode bs false 8 = .ok ⟨SignMagnitude.value bs, fitsInt64_value short⟩ :=
      decode_eq_ok_iff.2 ⟨short, nofun, rfl⟩
    rw [read]
    exact congrArg Except.ok zero
  · next long => exact congrArg (Except.map isZero) (dif_neg long)

end ScriptNum

namespace SignMagnitude

/-- A byte string of any length is false exactly if it stands for zero, which it does if it is made of
zeros with or without a sign behind them. The scan by index gives the same answer, and so does the
number, as an integer and in words, that is read from a string of up to eight bytes. -/
theorem truthy_means_nonzero (bs : Bytes) :
    (truthy bs = false ↔ value bs = 0) ∧
      (truthy bs = false ↔ Bytes.dropZeros bs = [] ∨ Bytes.dropZeros bs = [0x80]) ∧
      truthyFrom bs.length 0 bs = truthy bs ∧
      let answer := if bs.length ≤ 8 then .ok (!truthy bs) else .error .unknown
      (ScriptNum.decode bs false 8).map ScriptNum.isZero = answer ∧
        (ScriptNum.decodeWord? bs false 8).map (·.map (· == 0)) = some answer := by
  have magnitude := truthy_eq_false_iff_magnitude bs
  have scanned := truthyFrom_eq bs 0
  have read := ScriptNum.map_isZero_decode bs
  refine ⟨magnitude.trans (value_eq_zero_iff bs).symm, truthy_eq_false_iff_dropZeros bs, ?_, read, ?_⟩
  · rwa [Nat.zero_add] at scanned
  · rw [← read, ScriptNum.decodeWord?_eq]
    cases ScriptNum.decode bs false 8 with
    | error error => rfl
    | ok n => exact congrArg (fun b => some (Except.ok b)) n.toWord_beq_zero

-- a sign counts as one only at the end
example : truthy [0, 0, 0x80] = false ∧ truthy [0, 0x80, 0] = true := by decide

end SignMagnitude
end SpendScript
