import SpendScript.Number.SignMagnitude
import SpendScript.Proofs.OpcodeTable
import SpendScript.Script.Decoding
import SpendScript.Script.MinimalPush

/-!
# The minimal push of data

Data can be pushed by an operation that carries it, in up to four forms, and some of it by an opcode
that stands for a small number. The rule for minimal data looks at an operation and refuses all but
one of those that push the same bytes, so the bytes alone tell which operation pushed them.
-/
set_option autoImplicit false

namespace SpendScript

namespace Operation

/-- The bytes that the operation puts on the stack, if it puts any. -/
def pushed? : Operation → Option Bytes
  | .push _ data => some data
  | .code opcode =>
    match Instruction.ofOpcode opcode with
    | .pushNumber n => some (SignMagnitude.encode n)
    | _ => none

/-- Whether the rule for minimal data lets the operation pass. It has nothing against an opcode. -/
def isMinimal : Operation → Bool
  | .push form data => Script.isMinimalPush (form.opcode data.length) data
  | .code _ => true

/-- The operation that pushes the data minimally: a small number by its opcode, all else in the
shortest form for its length. -/
def minimalPush : Bytes → Operation
  | [b] =>
    if b = 0x81 then .code 0x4f
    else if 1 ≤ b ∧ b ≤ 16 then .code (0x50 + b)
    else canonicalPush [b]
  | data => canonicalPush data

end Operation

namespace SignMagnitude

theorem encode_of_small {n : Nat} (positive : 0 < n) (small : n < 128) :
    encode n = [UInt8.ofNat n] := by
  have nonzero : (n : Int) ≠ 0 := by omega
  have sign : decide ((n : Int) < 0) = false := decide_eq_false (by omega)
  rw [encode, if_neg nonzero, sign, Int.natAbs_natCast, digits, if_pos small]
  rfl

theorem encode_neg_one : encode (-1) = [0x81] := by
  rw [encode, if_neg (by decide), digits]
  rfl

end SignMagnitude

namespace Instruction

/-- Two rules give an opcode the meaning of a number: the row for minus one and the range of the
numbers from one to sixteen. -/
theorem ofOpcode_eq_pushNumber {opcode : UInt8} {n : Int} (h : ofOpcode opcode = .pushNumber n) :
    opcode = 0x4f ∧ n = -1 ∨
      ∃ k : Nat, 1 ≤ k ∧ k ≤ 16 ∧ opcode.toNat = 0x50 + k ∧ n = k := by
  rw [ofOpcode] at h
  split at h
  · cases h
  · split at h
    · next range =>
      obtain ⟨least, greatest⟩ := range
      have low : 0x51 ≤ opcode.toNat := UInt8.le_iff_toNat_le.1 least
      have high : opcode.toNat ≤ 0x60 := UInt8.le_iff_toNat_le.1 greatest
      cases h
      exact Or.inr ⟨opcode.toNat - 0x50, by omega, by omega, by omega, by omega⟩
    · split at h
      · cases h
      · cases row : table.lookup opcode with
        | none =>
          rw [row] at h
          cases h
        | some instruction =>
          rw [row] at h
          cases (h : instruction = .pushNumber n)
          obtain ⟨before, after, rows, _⟩ := List.lookup_eq_some_iff.1 row
          have listed : (opcode, pushNumber n) ∈ table := by
            rw [rows]
            exact List.mem_append_right before List.mem_cons_self
          simp [table] at listed
          exact Or.inl listed

end Instruction

namespace PushForm

theorem lt_capacity_shortest {n : Nat} (h : n < 0x100000000) : n < (shortest n).capacity := by
  unfold shortest
  split
  · assumption
  · split
    · assumption
    · split
      · assumption
      · exact h

/-- The opcode tells the form, and beyond two bytes for the length there is only one. -/
theorem eq_shortest {form : PushForm} {n : Nat} (fits : n < form.capacity)
    (same : n ≤ 0xffff → form.opcode n = (shortest n).opcode n) : form = shortest n := by
  rcases Nat.lt_or_ge 0xffff n with long | short
  · have last : form = .length4 := by
      cases form with
      | length4 => rfl
      | direct | length1 | length2 =>
        simp only [capacity] at fits
        omega
    rw [last, shortest, if_neg (by omega), if_neg (by omega), if_neg (by omega)]
  · have fitsToo : n < (shortest n).capacity := lt_capacity_shortest (by omega)
    have read := ofOpcode?_opcode fits
    rw [same short, ofOpcode?_opcode fitsToo] at read
    exact (Option.some.inj read).symm

/-- No form of a push has the opcode of a small number. -/
theorem opcode_one (form : PushForm) : form.opcode 1 < 0x4f := by
  cases form <;> decide

end PushForm

namespace Operation

theorem minimalPush_number {k : Nat} (least : 1 ≤ k) (greatest : k ≤ 16) {opcode : UInt8}
    (number : opcode.toNat = 0x50 + k) : minimalPush (SignMagnitude.encode k) = .code opcode := by
  have value : (UInt8.ofNat k).toNat = k := by
    rw [UInt8.toNat_ofNat', Nat.mod_eq_of_lt (by omega)]
  have notMinusOne : UInt8.ofNat k ≠ 0x81 := by
    intro same
    have : k = 0x81 := value.symm.trans (congrArg UInt8.toNat same)
    omega
  have inRange : 1 ≤ UInt8.ofNat k ∧ UInt8.ofNat k ≤ 16 := by
    rw [UInt8.le_iff_toNat_le, UInt8.le_iff_toNat_le, value]
    exact ⟨least, greatest⟩
  have sum : 0x50 + UInt8.ofNat k = opcode := by
    apply UInt8.toNat_inj.1
    rw [UInt8.toNat_add, value, number]
    show (0x50 + k) % 256 = 0x50 + k
    omega
  rw [SignMagnitude.encode_of_small least (by omega), minimalPush, if_neg notMinusOne,
    if_pos inRange, sum]

theorem minimalPush_of_length_ne {data : Bytes} (several : data.length ≠ 1) :
    minimalPush data = canonicalPush data := by
  unfold minimalPush
  split
  · exact absurd rfl several
  · rfl

/-- One byte is carried by a push of that one byte, unless an opcode stands for the number. -/
theorem push_one_eq_minimalPush {form : PushForm} {b : UInt8} (fits : 1 < form.capacity)
    (minimal : Script.isMinimalPush (form.opcode 1) [b] = true) :
    .push form [b] = minimalPush [b] := by
  have low : form.opcode 1 < 0x4f := form.opcode_one
  unfold Script.isMinimalPush at minimal
  dsimp only at minimal
  split at minimal
  · rw [eq_of_beq minimal] at low
    exact absurd low (by decide)
  · next other =>
    split at minimal
    · next inRange =>
      have number : 0x50 + b < 0x4f := eq_of_beq minimal ▸ low
      have bound : b.toNat ≤ 16 := UInt8.le_iff_toNat_le.1 inRange.2
      rw [UInt8.lt_iff_toNat_lt, UInt8.toNat_add] at number
      have sum : (0x50 + b.toNat) % 256 < 0x4f := number
      omega
    · next outside =>
      have direct : form.opcode 1 = 1 := eq_of_beq minimal
      have notMinusOne : b ≠ 0x81 := fun same => other (beq_iff_eq.2 same)
      rw [minimalPush, if_neg notMinusOne, if_neg outside, PushForm.eq_shortest fits fun _ => direct]
      rfl

/-- Beside single bytes, the rule asks for the opcode of the shortest form. -/
theorem opcode_of_isMinimalPush {opcode : UInt8} {data : Bytes} (several : data.length ≠ 1)
    (short : data.length ≤ 0xffff) (minimal : Script.isMinimalPush opcode data = true) :
    opcode = (PushForm.shortest data.length).opcode data.length := by
  unfold Script.isMinimalPush at minimal
  split at minimal
  · exact eq_of_beq minimal
  · exact absurd rfl several
  · unfold PushForm.shortest
    split at minimal
    · next direct =>
      rw [if_pos (Nat.lt_succ_of_le direct)]
      apply UInt8.toNat_inj.1
      rw [eq_of_beq minimal, PushForm.opcode, UInt8.toNat_ofNat']
      omega
    · next long =>
      rw [if_neg (by omega)]
      split at minimal
      · next length1 =>
        rw [if_pos (Nat.lt_succ_of_le length1)]
        exact eq_of_beq minimal
      · next longer =>
        rw [if_neg (by omega), if_pos (Nat.lt_succ_of_le short)]
        exact eq_of_beq minimal

/-- Of the operations that carry their data, the rule passes the minimal push alone. -/
theorem push_eq_minimalPush {form : PushForm} {data : Bytes} (fits : data.length < form.capacity)
    (minimal : Script.isMinimalPush (form.opcode data.length) data = true) :
    .push form data = minimalPush data := by
  by_cases single : data.length = 1
  · obtain ⟨b, rfl⟩ := List.length_eq_one_iff.1 single
    exact push_one_eq_minimalPush fits minimal
  · have shortest : form = PushForm.shortest data.length :=
      PushForm.eq_shortest fits fun short => opcode_of_isMinimalPush single short minimal
    rw [minimalPush_of_length_ne single, canonicalPush, ← shortest]

/-- What is pushed tells the operation that pushed it, if the rule for minimal data let it pass. -/
theorem eq_minimalPush {op : Operation} {data : Bytes} (wellFormed : op.WellFormed)
    (pushes : op.pushed? = some data) (minimal : op.isMinimal = true) : op = minimalPush data := by
  cases op with
  | push form own =>
    cases pushes
    exact push_eq_minimalPush wellFormed minimal
  | code opcode =>
    simp only [pushed?] at pushes
    cases instruction : Instruction.ofOpcode opcode with
    | pushNumber n =>
      rw [instruction] at pushes
      cases pushes
      rcases Instruction.ofOpcode_eq_pushNumber instruction with
        ⟨rfl, rfl⟩ | ⟨k, least, greatest, number, rfl⟩
      · rw [SignMagnitude.encode_neg_one]
        rfl
      · exact (minimalPush_number least greatest number).symm
    | _ =>
      rw [instruction] at pushes
      cases pushes

end Operation
end SpendScript
