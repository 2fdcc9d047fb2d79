import SpendScript.Machine.Arithmetic

/-!
# Operands of arithmetic

Arithmetic reads its operands in a fixed order and stops at the first that is no number. The
lemmas put it into the form of a chain of readings; what a reading can answer is then said once,
in terms of the bytes alone.
-/
set_option autoImplicit false

namespace SpendScript

section Except

variable {α β : Type} {r : Except ScriptError α} {b : β} {error : ScriptError}

theorem except_bind_eq_ok {f : α → Except ScriptError β} :
    r.bind f = .ok b ↔ ∃ a, r = .ok a ∧ f a = .ok b := by
  cases r <;> simp [Except.bind]

theorem except_bind_eq_error {f : α → Except ScriptError β} :
    r.bind f = .error error ↔ r = .error error ∨ ∃ a, r = .ok a ∧ f a = .error error := by
  cases r <;> simp [Except.bind]

theorem except_map_eq_ok {f : α → β} : r.map f = .ok b ↔ ∃ a, r = .ok a ∧ f a = b := by
  cases r <;> simp [Except.map]

theorem except_map_eq_error {f : α → β} : r.map f = .error error ↔ r = .error error := by
  cases r <;> simp [Except.map]

end Except

theorem ScriptNum.decode_error {bs : Bytes} {minimal : Bool} {maxLen : Nat} {error : ScriptError}
    (h : decode bs minimal maxLen = .error error) : error = .unknown := by
  rw [decode] at h
  split at h
  · split at h
    · cases h
      rfl
    · cases h
  · cases h
    rfl

theorem ScriptNum.decode_eq_ok_iff {bs : Bytes} {minimal : Bool} {maxLen : Nat} {n : ScriptNum} :
    decode bs minimal maxLen = .ok n ↔
      bs.length ≤ Nat.min maxLen maxWidth ∧
        (minimal = true → SignMagnitude.isMinimal bs = true) ∧
          n.value = SignMagnitude.value bs := by
  rw [decode]
  by_cases short : bs.length ≤ Nat.min maxLen maxWidth
  · rw [dif_pos short]
    by_cases long : (minimal && !SignMagnitude.isMinimal bs) = true
    · rw [if_pos long]
      simp only [Bool.and_eq_true, Bool.not_eq_true'] at long
      simp [long.1, long.2]
    · rw [if_neg long]
      simp only [Bool.and_eq_true, Bool.not_eq_true', not_and, Bool.not_eq_false] at long
      constructor
      · rintro ⟨⟩
        exact ⟨short, long, rfl⟩
      · rintro ⟨_, _, same⟩
        exact congrArg Except.ok (ext_value same.symm)
  · rw [dif_neg short]
    simp [short]

/-- A magnitude that leaves the top bit of `width + 1` bytes to the sign is written in as many. -/
theorem SignMagnitude.digits_length_le {negative : Bool} {n width : Nat}
    (h : n < 128 * Bytes.capacity width) : (digits negative n).length ≤ width + 1 := by
  induction width generalizing n with
  | zero =>
    have small : n < 128 := h
    rw [digits, if_pos small]
    exact Nat.le_refl 1
  | succ width ih =>
    rw [Bytes.capacity] at h
    rw [digits]
    split
    · exact Nat.succ_le_succ (Nat.zero_le _)
    · split
      · exact Nat.succ_le_succ (Nat.succ_le_succ (Nat.zero_le _))
      · exact Nat.succ_le_succ (ih (by omega))

theorem SignMagnitude.encode_length_le {v : Int} {width : Nat}
    (h : v.natAbs < 128 * Bytes.capacity width) : (encode v).length ≤ width + 1 := by
  rw [encode]
  split
  · exact Nat.zero_le _
  · exact digits_length_le h

/-- The lowest number needs a ninth byte. -/
theorem ScriptNum.encode_length_le (n : ScriptNum) : n.encode.length ≤ 9 := by
  have fits := n.fits
  unfold FitsInt64 at fits
  have bound : n.value.natAbs ≤ 0x8000000000000000 := by omega
  have room : 0x8000000000000000 < 128 * Bytes.capacity 8 := by decide
  exact SignMagnitude.encode_length_le (Nat.lt_of_le_of_lt bound room)

theorem Flags.readNumber_error {flags : Flags} {x : Bytes} {error : ScriptError}
    (h : flags.readNumber x = .error error) : error = .unknown :=
  ScriptNum.decode_error h

theorem UnaryOp.run_cons (op : UnaryOp) (flags : Flags) (x : Bytes) (rest : Stack) :
    op.run flags (x :: rest) = (flags.readNumber x).bind fun n =>
      (op.apply n).map fun result => result.encode :: rest := by
  unfold run
  dsimp only
  cases flags.readNumber x <;> rfl

theorem Flags.readTwo_cons (flags : Flags) (y x : Bytes) (rest : Stack) :
    flags.readTwo (y :: x :: rest) = (flags.readNumber x).bind fun a =>
      (flags.readNumber y).bind fun b => .ok (a, b, rest) := by
  unfold readTwo
  dsimp only
  cases flags.readNumber x <;> cases flags.readNumber y <;> rfl

theorem BinaryOp.run_eq_bind (op : BinaryOp) (flags : Flags) (stack : Stack) :
    op.run flags stack = (flags.readTwo stack).bind fun (a, b, rest) =>
      (op.apply a b).map fun result => result.encode :: rest := by
  rw [run]
  cases flags.readTwo stack <;> rfl

theorem Stack.within_cons (flags : Flags) (upper lower x : Bytes) (rest : Stack) :
    Stack.within flags (upper :: lower :: x :: rest) = (flags.readNumber x).bind fun n =>
      (flags.readNumber lower).bind fun least => (flags.readNumber upper).bind fun bound =>
        .ok (Stack.ofBool (least.value ≤ n.value && n.value < bound.value) :: rest) := by
  unfold within
  dsimp only
  cases flags.readNumber x <;> cases flags.readNumber lower <;> cases flags.readNumber upper <;> rfl

end SpendScript
