import SpendScript.Instruction
import SpendScript.Script.Operation

/-!
# Reading the table of opcodes

An opcode has its meaning from a row of the table or from one of three ranges. What is to be known
of all opcodes is therefore checked on the rows, once, and on the ranges.
-/
set_option autoImplicit false

namespace SpendScript

namespace Operation

/-- A push begins with an opcode below those of the numbers. -/
theorem opcode_push_le {form : PushForm} {data : Bytes}
    (wellFormed : (push form data).WellFormed) : (push form data).opcode ≤ 0x4e := by
  have short : data.length < form.capacity := wellFormed
  cases form with
  | direct =>
    have small : data.length < 76 := short
    refine UInt8.le_iff_toNat_le.2 ?_
    show (UInt8.ofNat data.length).toNat ≤ 78
    rw [UInt8.toNat_ofNat']
    omega
  | length1 => exact (by decide : (0x4c : UInt8) ≤ 0x4e)
  | length2 => exact (by decide : (0x4d : UInt8) ≤ 0x4e)
  | length4 => exact (by decide : (0x4e : UInt8) ≤ 0x4e)

end Operation

namespace Instruction

/-- A row of the table, unless the opcode belongs to one of the ranges. -/
theorem mem_table_of_ofOpcode {opcode : UInt8} {instruction : Instruction}
    (h : ofOpcode opcode = instruction) :
    (opcode, instruction) ∈ table ∨ instruction = .push ∨ instruction = .upgradableNop ∨
      instruction = .reserved ∨
        opcode.toNat ≤ 0x60 ∧ instruction = .pushNumber (opcode.toNat - 0x50) := by
  subst h
  rw [ofOpcode]
  split
  · exact Or.inr (Or.inl rfl)
  · split
    · next range =>
      exact Or.inr (Or.inr (Or.inr (Or.inr ⟨UInt8.le_iff_toNat_le.1 range.2, rfl⟩)))
    · split
      · exact Or.inr (Or.inr (Or.inl rfl))
      · cases hrow : table.lookup opcode with
        | none => exact Or.inr (Or.inr (Or.inr (Or.inl rfl)))
        | some instruction =>
          obtain ⟨before, after, rows, _⟩ := List.lookup_eq_some_iff.1 hrow
          refine Or.inl ?_
          rw [rows]
          exact List.mem_append_right before List.mem_cons_self

/-- Whether the instruction stands only in rows above the opcodes that push small numbers. -/
def isCounted : Instruction → Bool
  | .push | .pushNumber _ | .upgradableNop | .reserved => false
  | _ => true

theorem mem_table_of_isCounted {opcode : UInt8} {instruction : Instruction}
    (counted : instruction.isCounted = true) (h : ofOpcode opcode = instruction) :
    (opcode, instruction) ∈ table := by
  rcases mem_table_of_ofOpcode h with row | other | other | other | ⟨_, other⟩
  · exact row
  all_goals
    rw [other] at counted
    cases counted

theorem countsTowardLimit_of_isCounted {opcode : UInt8}
    (h : (ofOpcode opcode).isCounted = true) :
    (Operation.code opcode).countsTowardLimit = true := by
  have rows : ∀ row ∈ table, row.2.isCounted = true →
      (Operation.code row.1).countsTowardLimit = true := by decide
  exact rows _ (mem_table_of_isCounted h rfl) h

theorem isCounted_of_isConditional {instruction : Instruction}
    (h : instruction.isConditional = true) : instruction.isCounted = true := by
  cases instruction <;> first | rfl | cases h

/-- Conditionals count against the limit on operations. -/
theorem countsTowardLimit_of_isConditional {opcode : UInt8}
    (h : (ofOpcode opcode).isConditional = true) :
    (Operation.code opcode).countsTowardLimit = true :=
  countsTowardLimit_of_isCounted (isCounted_of_isConditional h)

/-- Rows that are right, and that leave out no row of the table with the instruction, tell which
opcodes ask for it. -/
theorem ofOpcode_eq_iff_mem {opcode : UInt8} {instruction : Instruction}
    {rows : List (UInt8 × Instruction)} (counted : instruction.isCounted = true)
    (right : ∀ row ∈ rows, ofOpcode row.1 = row.2)
    (complete : ∀ row ∈ table, row.2 = instruction → row ∈ rows) :
    ofOpcode opcode = instruction ↔ (opcode, instruction) ∈ rows :=
  ⟨fun h => complete _ (mem_table_of_isCounted counted h) rfl, right (opcode, instruction)⟩

/-- An instruction that stands in one row is asked for by one opcode. -/
theorem ofOpcode_eq_iff {opcode only : UInt8} {instruction : Instruction}
    (counted : instruction.isCounted = true) (right : ofOpcode only = instruction)
    (complete : ∀ row ∈ table, row.2 = instruction → row.1 = only) :
    ofOpcode opcode = instruction ↔ opcode = only := by
  refine ⟨fun h => complete _ (mem_table_of_isCounted counted h) rfl, fun same => ?_⟩
  rw [same, right]

/-- One opcode moves the start of the code. -/
theorem ofOpcode_eq_codeSeparator_iff {opcode : UInt8} :
    ofOpcode opcode = .codeSeparator ↔ opcode = 0xab :=
  ofOpcode_eq_iff rfl rfl (by decide)

/-- One opcode looks at how deep the stack is. -/
theorem ofOpcode_eq_depth_iff {opcode : UInt8} : ofOpcode opcode = .depth ↔ opcode = 0x74 :=
  ofOpcode_eq_iff rfl rfl (by decide)

end Instruction
end SpendScript
