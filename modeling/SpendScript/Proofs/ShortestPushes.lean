import Mathlib.Tactic.SplitIfs
import SpendScript.Proofs.PushOnlyRuns

/-!
# The shortest push

A byte string can be pushed in up to five ways: by its opcode, if it is a small number, and by a push
whose length stands in the opcode or in one, two or four bytes. The rule for minimal data is written
as a list of cases. What it comes to is that one of these ways passes, and that it is the one with
the fewest bytes. The bytes of a push are counted from its form; the form with the shortest field is
the first that can express the length.
-/
set_option autoImplicit false

namespace SpendScript

namespace PushForm

theorem width_injective {a b : PushForm} (same : a.width = b.width) : a = b := by
  cases a <;> cases b <;> first | rfl | cases same

/-- The forms with a shorter field than the shortest form for a length cannot express it. -/
theorem capacity_le_of_width_lt {form : PushForm} {n : Nat}
    (shorter : form.width < (shortest n).width) : form.capacity ≤ n := by
  rw [shortest] at shorter
  split_ifs at shorter <;> cases form <;> simp only [width] at shorter <;>
    simp only [capacity] <;> omega

theorem width_shortest_lt {form : PushForm} {n : Nat} (fits : n < form.capacity)
    (other : form ≠ shortest n) : (shortest n).width < form.width := by
  rcases Nat.lt_trichotomy (shortest n).width form.width with longer | same | shorter
  · exact longer
  · exact absurd (width_injective same.symm) other
  · exact absurd fits (Nat.not_lt.2 (capacity_le_of_width_lt shorter))

end PushForm

namespace Operation

/-- The operation has a written form and puts these bytes on the stack. -/
structure Pushes (op : Operation) (data : Bytes) : Prop where
  wellFormed : op.WellFormed
  pushed : op.pushed? = some data

theorem length_encode_push (form : PushForm) (data : Bytes) :
    (push form data).encode.length = 1 + form.width + data.length := by
  rw [encode, List.length_cons, List.length_append, Bytes.length_ofNatLE]
  omega

/-- The opcodes of the numbers from one to sixteen stand in the order of the numbers. -/
theorem ofOpcode_number {b : UInt8} (least : 1 ≤ b) (greatest : b ≤ 16) :
    0x4e < 0x50 + b ∧ Instruction.ofOpcode (0x50 + b) = .pushNumber b.toNat := by
  have low : 1 ≤ b.toNat := UInt8.le_iff_toNat_le.1 least
  have high : b.toNat ≤ 16 := UInt8.le_iff_toNat_le.1 greatest
  have all : ∀ n < 17, 1 ≤ n → 0x4e < 0x50 + UInt8.ofNat n ∧
      Instruction.ofOpcode (0x50 + UInt8.ofNat n) = .pushNumber n := by decide
  have named := all b.toNat (by omega) low
  rwa [UInt8.ofNat_toNat] at named

section MinimalPush

variable {data : Bytes} {op : Operation}

theorem pushes_canonicalPush (short : data.length < 0x100000000) :
    (canonicalPush data).Pushes data :=
  ⟨PushForm.lt_capacity_shortest short, rfl⟩

theorem pushes_minusOne : (code 0x4f).Pushes [0x81] := by
  have instruction : Instruction.ofOpcode 0x4f = .pushNumber (-1) := by decide
  refine ⟨by decide, ?_⟩
  rw [pushed?, instruction]
  exact congrArg some SignMagnitude.encode_neg_one

theorem pushes_number {b : UInt8} (least : 1 ≤ b) (greatest : b ≤ 16) :
    (code (0x50 + b)).Pushes [b] := by
  have low : 1 ≤ b.toNat := UInt8.le_iff_toNat_le.1 least
  have high : b.toNat ≤ 16 := UInt8.le_iff_toNat_le.1 greatest
  obtain ⟨above, instruction⟩ := ofOpcode_number least greatest
  refine ⟨above, ?_⟩
  rw [pushed?, instruction]
  dsimp only
  rw [SignMagnitude.encode_of_small low (by omega), UInt8.ofNat_toNat]

/-- A single byte is pushed minimally by an opcode of its own or, if no number has it, in the opcode's
shortest form. -/
theorem minimalPush_cases (data : Bytes) :
    data = [0x81] ∧ minimalPush data = code 0x4f ∨
      (∃ b : UInt8, 1 ≤ b ∧ b ≤ 16 ∧ data = [b] ∧ minimalPush data = code (0x50 + b)) ∨
        (∀ b : UInt8, data = [b] → b ≠ 0x81 ∧ ¬(1 ≤ b ∧ b ≤ 16)) ∧
          minimalPush data = canonicalPush data := by
  by_cases single : data.length = 1
  · obtain ⟨b, rfl⟩ := List.length_eq_one_iff.1 single
    by_cases minusOne : b = 0x81
    · exact Or.inl ⟨by rw [minusOne], by rw [minimalPush, if_pos minusOne]⟩
    · by_cases inRange : 1 ≤ b ∧ b ≤ 16
      · refine Or.inr (Or.inl ⟨b, inRange.1, inRange.2, rfl, ?_⟩)
        rw [minimalPush, if_neg minusOne, if_pos inRange]
      · refine Or.inr (Or.inr ⟨fun c same => ?_, ?_⟩)
        · cases same
          exact ⟨minusOne, inRange⟩
        · rw [minimalPush, if_neg minusOne, if_neg inRange]
  · refine Or.inr (Or.inr ⟨fun b same => ?_, minimalPush_of_length_ne single⟩)
    rw [same] at single
    exact absurd rfl single

theorem pushes_minimalPush (short : data.length < 0x100000000) :
    (minimalPush data).Pushes data := by
  rcases minimalPush_cases data with ⟨rfl, code⟩ | ⟨b, least, greatest, rfl, code⟩ | ⟨_, canonical⟩
  · rw [code]
    exact pushes_minusOne
  · rw [code]
    exact pushes_number least greatest
  · rw [canonical]
    exact pushes_canonicalPush short

theorem isMinimalPush_of_several {opcode : UInt8} (several : 2 ≤ data.length) :
    Script.isMinimalPush opcode data =
      if data.length ≤ 75 then opcode.toNat == data.length
      else if data.length ≤ 0xff then opcode == 0x4c
      else if data.length ≤ 0xffff then opcode == 0x4d
      else true := by
  match data, several with
  | a :: b :: rest, _ => rfl

/-- Where no opcode stands for the data, the rule passes the shortest form. -/
theorem isMinimal_canonicalPush
    (unnamed : ∀ b : UInt8, data = [b] → b ≠ 0x81 ∧ ¬(1 ≤ b ∧ b ≤ 16)) :
    (canonicalPush data).isMinimal = true := by
  rw [canonicalPush, isMinimal]
  rcases Nat.lt_or_ge data.length 2 with few | several
  · rcases Nat.eq_zero_or_pos data.length with none | some
    · rw [List.length_eq_zero_iff.1 none]
      rfl
    · obtain ⟨b, rfl⟩ := List.length_eq_one_iff.1 (Nat.le_antisymm (Nat.le_of_lt_succ few) some)
      obtain ⟨notMinusOne, outside⟩ := unnamed b rfl
      rw [Script.isMinimalPush, if_neg (by simpa using notMinusOne), if_neg outside]
      rfl
  · rw [isMinimalPush_of_several several, PushForm.shortest]
    split_ifs with direct
    · rw [PushForm.opcode, UInt8.toNat_ofNat', Nat.mod_eq_of_lt (by omega)]
      exact beq_self_eq_true _
    all_goals first | rfl | omega

theorem isMinimal_minimalPush (data : Bytes) : (minimalPush data).isMinimal = true := by
  rcases minimalPush_cases data with ⟨_, code⟩ | ⟨b, _, _, _, code⟩ | ⟨unnamed, canonical⟩
  · rw [code]
    rfl
  · rw [code]
    rfl
  · rw [canonical]
    exact isMinimal_canonicalPush unnamed

/-- An opcode is shorter than a push that carries a byte, and of two pushes the one in the shortest
form is shorter. -/
theorem length_encode_minimalPush_lt {form : PushForm} (fits : data.length < form.capacity)
    (other : push form data ≠ minimalPush data) :
    (minimalPush data).encode.length < (push form data).encode.length := by
  rw [length_encode_push]
  rcases minimalPush_cases data with ⟨rfl, code⟩ | ⟨b, _, _, rfl, code⟩ | ⟨_, canonical⟩
  · rw [code]
    show 1 < 1 + form.width + 1
    omega
  · rw [code]
    show 1 < 1 + form.width + 1
    omega
  · rw [canonical] at other ⊢
    have otherForm : form ≠ PushForm.shortest data.length := by
      rintro rfl
      exact other rfl
    have narrower := PushForm.width_shortest_lt fits otherForm
    rw [canonicalPush, length_encode_push]
    omega

/-- Beside the minimal push, the rule refuses every operation that pushes the data. -/
theorem Pushes.isMinimal_iff (pushes : op.Pushes data) :
    op.isMinimal = true ↔ op = minimalPush data := by
  constructor
  · exact eq_minimalPush pushes.wellFormed pushes.pushed
  · rintro rfl
    exact isMinimal_minimalPush data

theorem Pushes.isPush (pushes : op.Pushes data) : op.isPush = true := by
  obtain ⟨wellFormed, pushed⟩ := pushes
  cases op with
  | push form own =>
    have low : (push form own).opcode ≤ 0x4e := opcode_push_le wellFormed
    exact decide_eq_true (UInt8.le_trans low (by decide))
  | code opcode =>
    rw [pushed?] at pushed
    split at pushed
    · next instruction =>
      refine decide_eq_true (UInt8.le_iff_toNat_le.2 ?_)
      show opcode.toNat ≤ 0x60
      rcases Instruction.ofOpcode_eq_pushNumber instruction with
        ⟨rfl, _⟩ | ⟨k, _, greatest, number, _⟩
      · decide
      · omega
    · cases pushed

/-- Where operations are executed under the rule, of the operations that push the data only the minimal
push gets it onto the stack. -/
theorem Pushes.step_of_minimalData (pushes : op.Pushes data) {env : Environment} {script : Script}
    {index : Nat} {ctx : Context} (demanded : env.flags.minimalData = true)
    (executing : ctx.isExecuting = true) (fits : data.length ≤ Limits.elementSize) :
    op.step env script index ctx =
      if op = minimalPush data then (ctx.push data).checkDepth else .fail .minimalData ctx := by
  have result : op.pushResult env.flags =
      if op = minimalPush data then .ok data else .error .minimalData := by
    rw [pushResult, pushes.pushed]
    dsimp only
    rw [if_neg (Nat.not_lt.2 fits), demanded, Bool.true_and]
    by_cases minimal : op = minimalPush data
    · rw [pushes.isMinimal_iff.2 minimal, if_pos minimal]
      rfl
    · have refused : op.isMinimal = false := Bool.eq_false_iff.2 (minimal ∘ pushes.isMinimal_iff.1)
      rw [refused, if_neg minimal]
      rfl
  rw [step_of_isPush pushes.isPush executing, result]
  split_ifs <;> rfl

/-- Of the operations that push given data, exactly one passes the rule for minimal data, and all the
others have more bytes; a run under the rule stops at each of the others. -/
theorem minimalPush_is_shortest (short : data.length < 0x100000000) :
    ((minimalPush data).Pushes data ∧ (minimalPush data).isMinimal = true) ∧
      (∀ op : Operation, op.Pushes data → op ≠ minimalPush data →
        op.isMinimal = false ∧ (minimalPush data).encode.length < op.encode.length) ∧
      ∀ (op : Operation) (env : Environment) (script : Script) (index : Nat) (ctx : Context),
        op.Pushes data → env.flags.minimalData = true → ctx.isExecuting = true →
        data.length ≤ Limits.elementSize →
          op.step env script index ctx =
            if op = minimalPush data then (ctx.push data).checkDepth
            else .fail .minimalData ctx := by
  refine ⟨⟨pushes_minimalPush short, isMinimal_minimalPush data⟩, ?_, ?_⟩
  · intro op pushes other
    have refused : op.isMinimal = false := Bool.eq_false_iff.2 (other ∘ pushes.isMinimal_iff.1)
    refine ⟨refused, ?_⟩
    cases op with
    | push form own =>
      have same : own = data := Option.some.inj pushes.pushed
      rw [same] at other ⊢
      exact length_encode_minimalPush_lt (same ▸ pushes.wellFormed) other
    | code opcode => cases refused
  · intro op env script index ctx pushes demanded executing fits
    exact pushes.step_of_minimalData demanded executing fits

/-- Sixteen is pushed by its opcode in one byte, not in two; the length 256 takes two bytes, not
four. -/
theorem minimalPush_is_shortest_sixteen :
    let long : Bytes := List.replicate 256 7
    (([0x10] : Bytes).length < 0x100000000 ∧ (push .direct [0x10]).isMinimal = false ∧
      (code 0x60).encode.length < (push .direct [0x10]).encode.length) ∧
    (long.length < 0x100000000 ∧ (push .length4 long).isMinimal = false ∧
      (push .length2 long).encode.length < (push .length4 long).encode.length) := by
  intro long
  have few : ([0x10] : Bytes).length < 0x100000000 := by decide
  have many : long.length < 0x100000000 := by rw [List.length_replicate]; decide
  obtain ⟨_, others, _⟩ := minimalPush_is_shortest few
  obtain ⟨_, others', _⟩ := minimalPush_is_shortest many
  have named : minimalPush [0x10] = code 0x60 := by decide
  have canonical : minimalPush long = push .length2 long := by decide +kernel
  refine ⟨⟨few, ?_⟩, many, ?_⟩
  · exact named ▸ others (push .direct [0x10]) ⟨by decide, rfl⟩ (by decide)
  · exact canonical ▸ others' (push .length4 long) ⟨by decide +kernel, rfl⟩ (by decide +kernel)

end MinimalPush

end Operation
end SpendScript
