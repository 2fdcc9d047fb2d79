import SpendScript.Machine.Calculation
import SpendScript.Machine.Step
import SpendScript.Proofs.Outcomes
import SpendScript.Proofs.ShortestNumbers

/-!
# Arithmetic is exact

Operands have at most four bytes. So they are far from the ends of the range of numbers, no result
leaves it, and what arithmetic pushes is the result that integers without bounds have. The bytes of
an operand matter only where the flags look at them.
-/
set_option autoImplicit false

namespace SpendScript

section Reading

variable {flags : Flags} {x : Bytes}

theorem Flags.readNumber_eq_ok (taken : flags.TakesForNumber x) :
    ∃ n, flags.readNumber x = .ok n ∧ n.value = SignMagnitude.value x ∧
      n.value.natAbs < 0x80000000 := by
  have short : x.length ≤ Nat.min Limits.numberSize ScriptNum.maxWidth := taken.1
  have bound : SignMagnitude.magnitude x < 0x80000000 := SignMagnitude.magnitude_lt taken.1
  have fits := ScriptNum.fitsInt64_value (Nat.le_trans short (Nat.min_le_right _ _))
  refine ⟨⟨SignMagnitude.value x, fits⟩, ?_, rfl, ?_⟩
  · exact ScriptNum.decode_eq_ok_iff.2
      ⟨short, fun minimal => SignMagnitude.isMinimal_iff.2 (taken.2 minimal), rfl⟩
  · rw [SignMagnitude.natAbs_value]
    exact bound

theorem Flags.takesForNumber_of_readNumber {n : ScriptNum} (read : flags.readNumber x = .ok n) :
    flags.TakesForNumber x := by
  obtain ⟨short, minimal, -⟩ := ScriptNum.decode_eq_ok_iff.1 read
  exact ⟨short, fun flag => SignMagnitude.isMinimal_iff.1 (minimal flag)⟩

/-- A chain of readings is refused at whatever operand is no number, and in one way. -/
theorem Flags.readNumber_bind_eq_error {α : Type} {next : ScriptNum → Except ScriptError α}
    (refused : ¬flags.TakesForNumber x ∨ ∀ n, next n = .error .unknown) :
    (flags.readNumber x).bind next = .error .unknown := by
  cases outcome : flags.readNumber x with
  | error error =>
    rw [readNumber_error outcome]
    rfl
  | ok n =>
    have taken := takesForNumber_of_readNumber outcome
    exact refused.resolve_left (Decidable.not_not.2 taken) n

end Reading

/-- Numbers of four bytes are far from the ends of the range. -/
theorem ScriptNum.ofInt?_eq_ok {v : Int} (small : v.natAbs ≤ 0x100000000) :
    ∃ n, ofInt? v = .ok n ∧ n.value = v := by
  have fits : FitsInt64 v := by
    unfold FitsInt64
    omega
  exact ⟨⟨v, fits⟩, dif_pos fits, rfl⟩

theorem ScriptNum.value_ofBool {b : Bool} {answer : Prop} [Decidable answer]
    (same : b = true ↔ answer) : (ofBool b).value = truthNumber answer := by
  show (if b then one else zero).value = if answer then 1 else 0
  by_cases holds : answer
  · rw [if_pos holds, if_pos (same.2 holds)]
    rfl
  · rw [if_neg holds, if_neg (mt same.1 holds)]
    rfl

theorem ScriptNum.value_min (a b : ScriptNum) : (a.min b).value = Min.min a.value b.value := by
  show (if b.value < a.value then b else a).value = _
  split <;> omega

theorem ScriptNum.value_max (a b : ScriptNum) : (a.max b).value = Max.max a.value b.value := by
  show (if b.value < a.value then a else b).value = _
  split <;> omega

theorem UnaryOp.apply_eq_ok (op : UnaryOp) {n : ScriptNum} (small : n.value.natAbs < 0x80000000) :
    ∃ r, op.apply n = .ok r ∧ r.value = op.eval n.value := by
  cases op with
  | increment => exact ScriptNum.ofInt?_eq_ok (v := n.value + 1) (by omega)
  | decrement => exact ScriptNum.ofInt?_eq_ok (v := n.value - 1) (by omega)
  | negate => exact ScriptNum.ofInt?_eq_ok (v := -n.value) (by omega)
  | abs => exact ScriptNum.ofInt?_eq_ok (v := n.value.natAbs) (by omega)
  | isZero => exact ⟨_, rfl, ScriptNum.value_ofBool (by simp [ScriptNum.isZero])⟩
  | isNonzero => exact ⟨_, rfl, ScriptNum.value_ofBool (by simp [ScriptNum.isZero])⟩

theorem BinaryOp.apply_eq_ok (op : BinaryOp) {a b : ScriptNum}
    (small : a.value.natAbs < 0x80000000) (small' : b.value.natAbs < 0x80000000) :
    ∃ r, op.apply a b = .ok r ∧ r.value = op.eval a.value b.value := by
  cases op with
  | add => exact ScriptNum.ofInt?_eq_ok (v := a.value + b.value) (by omega)
  | sub => exact ScriptNum.ofInt?_eq_ok (v := a.value - b.value) (by omega)
  | both => exact ⟨_, rfl, ScriptNum.value_ofBool (by simp [ScriptNum.isZero])⟩
  | either => exact ⟨_, rfl, ScriptNum.value_ofBool (by simp [ScriptNum.isZero])⟩
  | equal => exact ⟨_, rfl, ScriptNum.value_ofBool (by simp)⟩
  | notEqual => exact ⟨_, rfl, ScriptNum.value_ofBool (by simp)⟩
  | less => exact ⟨_, rfl, ScriptNum.value_ofBool (by simp)⟩
  | greater => exact ⟨_, rfl, ScriptNum.value_ofBool (by simp)⟩
  | lessOrEqual => exact ⟨_, rfl, ScriptNum.value_ofBool (by simp)⟩
  | greaterOrEqual => exact ⟨_, rfl, ScriptNum.value_ofBool (by simp)⟩
  | min => exact ⟨_, rfl, ScriptNum.value_min a b⟩
  | max => exact ⟨_, rfl, ScriptNum.value_max a b⟩

section Replacing

variable {flags : Flags} {rest : Stack}

theorem UnaryOp.run_of_taken (op : UnaryOp) {x : Bytes} (taken : flags.TakesForNumber x) :
    op.run flags (x :: rest) =
      .ok (SignMagnitude.encode (op.eval (SignMagnitude.value x)) :: rest) := by
  obtain ⟨n, read, same, small⟩ := Flags.readNumber_eq_ok taken
  obtain ⟨r, applied, result⟩ := op.apply_eq_ok small
  rw [run_cons, read, ← same, ← result]
  show (op.apply n).map _ = _
  rw [applied]
  rfl

theorem UnaryOp.run_of_refused (op : UnaryOp) {x : Bytes} (refused : ¬flags.TakesForNumber x) :
    op.run flags (x :: rest) = .error .unknown := by
  rw [run_cons]
  exact Flags.readNumber_bind_eq_error (.inl refused)

theorem Flags.readTwo_of_taken (rest : Stack) {x y : Bytes} (lower : flags.TakesForNumber x)
    (upper : flags.TakesForNumber y) :
    ∃ a b, flags.readTwo (y :: x :: rest) = .ok (a, b, rest) ∧
      a.value = SignMagnitude.value x ∧ b.value = SignMagnitude.value y ∧
      a.value.natAbs < 0x80000000 ∧ b.value.natAbs < 0x80000000 := by
  obtain ⟨a, first, same, small⟩ := readNumber_eq_ok lower
  obtain ⟨b, second, same', small'⟩ := readNumber_eq_ok upper
  refine ⟨a, b, ?_, same, same', small, small'⟩
  rw [readTwo_cons, first, second]
  rfl

theorem Flags.readTwo_of_refused {x y : Bytes}
    (refused : ¬flags.TakesForNumber x ∨ ¬flags.TakesForNumber y) :
    flags.readTwo (y :: x :: rest) = .error .unknown := by
  rw [readTwo_cons]
  exact readNumber_bind_eq_error
    (refused.imp_right fun upper _ => readNumber_bind_eq_error (.inl upper))

theorem BinaryOp.run_of_taken (op : BinaryOp) {x y : Bytes} (lower : flags.TakesForNumber x)
    (upper : flags.TakesForNumber y) :
    op.run flags (y :: x :: rest) = .ok (SignMagnitude.encode
      (op.eval (SignMagnitude.value x) (SignMagnitude.value y)) :: rest) := by
  obtain ⟨a, b, read, same, same', small, small'⟩ :=
    Flags.readTwo_of_taken rest lower upper
  obtain ⟨r, applied, result⟩ := op.apply_eq_ok small small'
  rw [run_eq_bind, read, ← same, ← same', ← result]
  show (op.apply a b).map _ = _
  rw [applied]
  rfl

theorem BinaryOp.run_of_refused (op : BinaryOp) {x y : Bytes}
    (refused : ¬flags.TakesForNumber x ∨ ¬flags.TakesForNumber y) :
    op.run flags (y :: x :: rest) = .error .unknown := by
  rw [run_eq_bind, Flags.readTwo_of_refused refused]
  rfl

theorem Stack.ofBool_eq_encode {b : Bool} {answer : Prop} [Decidable answer]
    (same : b = true ↔ answer) : ofBool b = SignMagnitude.encode (truthNumber answer) := by
  show _ = SignMagnitude.encode (if answer then 1 else 0)
  cases b with
  | false =>
    rw [if_neg (mt same.2 Bool.false_ne_true)]
    rfl
  | true =>
    have one : SignMagnitude.isMinimal [1] = true := rfl
    rw [if_pos (same.1 rfl)]
    exact (SignMagnitude.encode_value one).symm

theorem Stack.within_of_taken {upper lower x : Bytes} (taken : flags.TakesForNumber x)
    (taken' : flags.TakesForNumber lower) (taken'' : flags.TakesForNumber upper) :
    Stack.within flags (upper :: lower :: x :: rest) =
      .ok (SignMagnitude.encode (truthNumber
        (SignMagnitude.value lower ≤ SignMagnitude.value x ∧
          SignMagnitude.value x < SignMagnitude.value upper)) :: rest) := by
  obtain ⟨n, read, same, -⟩ := Flags.readNumber_eq_ok taken
  obtain ⟨least, read', same', -⟩ := Flags.readNumber_eq_ok taken'
  obtain ⟨bound, read'', same'', -⟩ := Flags.readNumber_eq_ok taken''
  rw [within_cons, read, read', read'', ← same, ← same', ← same'']
  exact congrArg (fun top => Except.ok (top :: rest)) (ofBool_eq_encode (by simp))

theorem Stack.within_of_refused {upper lower x : Bytes}
    (refused : ¬flags.TakesForNumber x ∨ ¬flags.TakesForNumber lower ∨
      ¬flags.TakesForNumber upper) :
    Stack.within flags (upper :: lower :: x :: rest) = .error .unknown := by
  rw [within_cons]
  refine Flags.readNumber_bind_eq_error (refused.imp_right fun bounds _ => ?_)
  refine Flags.readNumber_bind_eq_error (bounds.imp_right fun last _ => ?_)
  exact Flags.readNumber_bind_eq_error (.inl last)

end Replacing

section Results

theorem natAbs_truthNumber_le (answer : Prop) [Decidable answer] :
    (truthNumber answer).natAbs ≤ 1 := by
  show (if answer then (1 : Int) else 0).natAbs ≤ 1
  split <;> decide

theorem UnaryOp.natAbs_eval_le (op : UnaryOp) {n : Int} (small : n.natAbs < 0x80000000) :
    (op.eval n).natAbs ≤ 0x100000000 := by
  have truth (answer : Prop) [Decidable answer] := natAbs_truthNumber_le answer
  cases op with
  | increment => show (n + 1).natAbs ≤ _; omega
  | decrement => show (n - 1).natAbs ≤ _; omega
  | negate => show (-n).natAbs ≤ _; omega
  | abs => show (n.natAbs : Int).natAbs ≤ _; omega
  | isZero | isNonzero => exact Nat.le_trans (truth _) (by decide)

theorem BinaryOp.natAbs_eval_le (op : BinaryOp) {a b : Int} (small : a.natAbs < 0x80000000)
    (small' : b.natAbs < 0x80000000) : (op.eval a b).natAbs ≤ 0x100000000 := by
  have truth (answer : Prop) [Decidable answer] := natAbs_truthNumber_le answer
  cases op with
  | add => show (a + b).natAbs ≤ _; omega
  | sub => show (a - b).natAbs ≤ _; omega
  | min => show (Min.min a b).natAbs ≤ _; omega
  | max => show (Max.max a b).natAbs ≤ _; omega
  | both | either | equal | notEqual | less | greater | lessOrEqual | greaterOrEqual =>
    exact Nat.le_trans (truth _) (by decide)

end Results

namespace Instruction

/-- Whatever is calculated from operands of four bytes fits in five. -/
theorem natAbs_calculate_le {instruction : Instruction} {operands results : List Int}
    (small : ∀ v ∈ operands, v.natAbs < 0x80000000)
    (calculated : instruction.calculate operands = some results) :
    ∀ r ∈ results, r.natAbs ≤ 0x100000000 := by
  intro r mem
  unfold calculate at calculated
  split at calculated
  · next op n =>
    cases calculated
    rw [List.mem_singleton.1 mem]
    exact op.natAbs_eval_le (small n (by simp))
  · next op a b =>
    cases calculated
    rw [List.mem_singleton.1 mem]
    exact op.natAbs_eval_le (small a (by simp)) (small b (by simp))
  · split at calculated
    · cases calculated
      cases mem
    · cases calculated
  · next n least bound =>
    cases calculated
    rw [List.mem_singleton.1 mem]
    exact Nat.le_trans (natAbs_truthNumber_le _) (by decide)
  · cases calculated

section Run

variable {instruction : Instruction} {env : Environment} {script : Script} {index : Nat}
  {ctx : Context} {rest : Stack}

theorem run_of_short (arithmetic : instruction.opcodeClass = .arithmetic)
    (short : ctx.stack.length < instruction.arity) :
    instruction.run env script index ctx = .fail .invalidStackOperation ctx := by
  obtain ⟨stack, altStack, conditionals, opCount, codeStart⟩ := ctx
  cases instruction with
  | unary op =>
    match stack, short with
    | [], _ => rfl
  | binary op | numEqualVerify =>
    match stack, short with
    | [], _ | [_], _ => rfl
  | within =>
    match stack, short with
    | [], _ | [_], _ | [_, _], _ => rfl
  | _ => cases arithmetic

theorem run_of_refused (arithmetic : instruction.opcodeClass = .arithmetic) {operands : List Bytes}
    (stack : ctx.stack = operands.reverse ++ rest) (all : operands.length = instruction.arity)
    (refused : ∃ x ∈ operands, ¬env.flags.TakesForNumber x) :
    instruction.run env script index ctx = .fail .unknown ctx := by
  cases instruction with
  | unary op =>
    match operands, all with
    | [x], _ =>
      show Outcome.ofStack ctx (op.run env.flags ctx.stack) = _
      rw [stack]
      exact congrArg (Outcome.ofStack ctx) (op.run_of_refused (by simpa using refused))
  | binary op =>
    match operands, all with
    | [x, y], _ =>
      show Outcome.ofStack ctx (op.run env.flags ctx.stack) = _
      rw [stack]
      exact congrArg (Outcome.ofStack ctx) (op.run_of_refused (by simpa using refused))
  | numEqualVerify =>
    match operands, all with
    | [x, y], _ =>
      have unread : env.flags.readTwo ctx.stack = .error .unknown := by
        rw [stack]
        exact Flags.readTwo_of_refused (by simpa using refused)
      simp only [run, unread]
  | within =>
    match operands, all with
    | [x, lower, upper], _ =>
      show Outcome.ofStack ctx (ctx.stack.within env.flags) = _
      rw [stack]
      exact congrArg (Outcome.ofStack ctx) (Stack.within_of_refused (by simpa using refused))
  | _ => cases arithmetic

theorem run_of_taken (arithmetic : instruction.opcodeClass = .arithmetic) (operands : List Bytes)
    (stack : ctx.stack = operands.reverse ++ rest) (all : operands.length = instruction.arity)
    (taken : ∀ x ∈ operands, env.flags.TakesForNumber x) :
    instruction.run env script index ctx =
      match instruction.calculate (operands.map SignMagnitude.value) with
      | some results => .ok { ctx with stack := results.map SignMagnitude.encode ++ rest }
      | none => .fail .numEqualVerify { ctx with stack := rest } := by
  cases instruction with
  | unary op =>
    match operands, all with
    | [x], _ =>
      show Outcome.ofStack ctx (op.run env.flags ctx.stack) = _
      rw [stack]
      exact congrArg (Outcome.ofStack ctx) (op.run_of_taken (taken x (by simp)))
  | binary op =>
    match operands, all with
    | [x, y], _ =>
      show Outcome.ofStack ctx (op.run env.flags ctx.stack) = _
      rw [stack]
      exact congrArg (Outcome.ofStack ctx)
        (op.run_of_taken (taken x (by simp)) (taken y (by simp)))
  | numEqualVerify =>
    match operands, all with
    | [x, y], _ =>
      obtain ⟨a, b, read, same, same', -⟩ :=
        Flags.readTwo_of_taken rest (taken x (by simp)) (taken y (by simp))
      have found : env.flags.readTwo ctx.stack = .ok (a, b, rest) := by rw [stack]; exact read
      by_cases equal : SignMagnitude.value x = SignMagnitude.value y
      · simp [run, found, calculate, same, same', equal, Outcome.conclude]
      · simp [run, found, calculate, same, same', equal, Outcome.conclude]
  | within =>
    match operands, all with
    | [x, lower, upper], _ =>
      show Outcome.ofStack ctx (ctx.stack.within env.flags) = _
      rw [stack]
      exact congrArg (Outcome.ofStack ctx)
        (Stack.within_of_taken (taken x (by simp)) (taken lower (by simp)) (taken upper (by simp)))
  | _ => cases arithmetic

end Run

/-- Only one instruction makes a demand on its operands. -/
theorem calculate_eq_none_iff {instruction : Instruction}
    (arithmetic : instruction.opcodeClass = .arithmetic) {operands : List Int}
    (all : operands.length = instruction.arity) :
    instruction.calculate operands = none ↔
      instruction = .numEqualVerify ∧ ∃ a b, operands = [a, b] ∧ a ≠ b := by
  cases instruction with
  | unary op =>
    match operands, all with
    | [n], _ => simp [calculate]
  | binary op =>
    match operands, all with
    | [a, b], _ => simp [calculate]
  | numEqualVerify =>
    match operands, all with
    | [a, b], _ =>
      show (if a = b then some [] else none) = none ↔ _
      constructor
      · intro unanswered
        refine ⟨rfl, a, b, rfl, fun equal => ?_⟩
        rw [if_pos equal] at unanswered
        cases unanswered
      · rintro ⟨-, _, _, same, differ⟩
        cases same
        exact if_neg differ
  | within =>
    match operands, all with
    | [n, least, bound], _ => simp [calculate]
  | _ => cases arithmetic

theorem isCounted_of_arithmetic {instruction : Instruction}
    (arithmetic : instruction.opcodeClass = .arithmetic) : instruction.isCounted = true := by
  cases instruction <;> first | rfl | cases arithmetic

/-- Arithmetic on the stack is exact. The operands are taken if all of them are numbers, and
replaced by the shortest bytes of what integers without bounds give, of which there are never more
than five; an overflow is none of the ways to fail. The bytes of the operands do not matter if the
flags do not ask for the shortest ones. Each instruction of arithmetic is what one opcode asks for,
and all that such an operation does besides is to count. -/
theorem arithmetic_is_exact {instruction : Instruction}
    (arithmetic : instruction.opcodeClass = .arithmetic) (env : Environment) (script : Script)
    (index : Nat) (ctx : Context) :
    (instruction.run env script index ctx =
      let operands := (ctx.stack.take instruction.arity).reverse
      let rest := ctx.stack.drop instruction.arity
      if ctx.stack.length < instruction.arity then .fail .invalidStackOperation ctx
      else if ∀ x ∈ operands, env.flags.TakesForNumber x then
        match instruction.calculate (operands.map SignMagnitude.value) with
        | some results => .ok { ctx with stack := results.map SignMagnitude.encode ++ rest }
        | none => .fail .numEqualVerify { ctx with stack := rest }
      else .fail .unknown ctx) ∧
    (∀ operands : List Int, operands.length = instruction.arity →
      (instruction.calculate operands = none ↔
        instruction = .numEqualVerify ∧ ∃ a b, operands = [a, b] ∧ a ≠ b)) ∧
    (∀ (operands : List Bytes) (results : List Int), (∀ x ∈ operands, x.length ≤ 4) →
      instruction.calculate (operands.map SignMagnitude.value) = some results →
        ∀ r ∈ results, (SignMagnitude.encode r).length ≤ 5 ∧
          SignMagnitude.value (SignMagnitude.encode r) = r ∧
            ∀ bs, SignMagnitude.value bs = r → (SignMagnitude.encode r).length ≤ bs.length) ∧
    (env.flags.minimalData = false → ∀ tops tops' rest : Stack,
      tops.length = instruction.arity → (∀ x ∈ tops ++ tops', x.length ≤ 4) →
        tops.map SignMagnitude.value = tops'.map SignMagnitude.value →
          instruction.run env script index { ctx with stack := tops ++ rest } =
            instruction.run env script index { ctx with stack := tops' ++ rest }) ∧
    (∀ opcode, ofOpcode opcode = instruction ↔ (opcode, instruction) ∈
      ([(0x8b, .unary .increment), (0x8c, .unary .decrement), (0x8f, .unary .negate),
        (0x90, .unary .abs), (0x91, .unary .isZero), (0x92, .unary .isNonzero),
        (0x93, .binary .add), (0x94, .binary .sub), (0x9a, .binary .both),
        (0x9b, .binary .either), (0x9c, .binary .equal), (0x9d, .numEqualVerify),
        (0x9e, .binary .notEqual), (0x9f, .binary .less), (0xa0, .binary .greater),
        (0xa1, .binary .lessOrEqual), (0xa2, .binary .greaterOrEqual), (0xa3, .binary .min),
        (0xa4, .binary .max), (0xa5, .within)] : List (UInt8 × Instruction))) ∧
    (∀ opcode, ofOpcode opcode = instruction → ctx.isExecuting = true →
      ctx.opCount + 1 ≤ Limits.opsPerScript →
        (Operation.code opcode).run env script index ctx =
          instruction.run env script index { ctx with opCount := ctx.opCount + 1 }) := by
  have counted := isCounted_of_arithmetic arithmetic
  have enabled : instruction ≠ .disabled := by
    intro disabled
    rw [disabled] at arithmetic
    cases arithmetic
  refine ⟨?_, fun _ => calculate_eq_none_iff arithmetic, ?_, ?_, fun opcode => ?_,
    fun opcode asked => Operation.run_code_of_counted asked counted enabled⟩
  · dsimp only
    split
    · next short => exact run_of_short arithmetic short
    · next enough =>
      -- the operand that was pushed first lies deepest
      have stack : ctx.stack = (ctx.stack.take instruction.arity).reverse.reverse ++
          ctx.stack.drop instruction.arity := by simp
      have all : (ctx.stack.take instruction.arity).reverse.length = instruction.arity := by
        simp
        omega
      split
      · next taken => exact run_of_taken arithmetic _ stack all taken
      · next refused => exact run_of_refused arithmetic stack all (by simpa using refused)
  · intro operands results short calculated r mem
    have small : ∀ v ∈ operands.map SignMagnitude.value, v.natAbs < 0x80000000 := by
      intro v mem
      obtain ⟨x, member, rfl⟩ := List.mem_map.1 mem
      rw [SignMagnitude.natAbs_value]
      exact SignMagnitude.magnitude_lt (short x member)
    have bound := natAbs_calculate_le small calculated r mem
    have room : 0x100000000 < 128 * Bytes.capacity 4 := by decide
    refine ⟨SignMagnitude.encode_length_le (Nat.lt_of_le_of_lt bound room),
      SignMagnitude.value_encode r, ?_⟩
    rintro bs rfl
    exact SignMagnitude.encode_value_length_le bs
  · intro free tops tops' rest all short same
    have taken : ∀ x ∈ tops ++ tops', env.flags.TakesForNumber x := fun x mem =>
      ⟨short x mem, fun minimal => absurd (minimal.symm.trans free) (by decide)⟩
    have all' : tops'.length = instruction.arity := by
      rw [← all, ← List.length_map (f := SignMagnitude.value), ← same, List.length_map]
    have front (tops : Stack) : tops ++ rest = tops.reverse.reverse ++ rest := by simp
    rw [run_of_taken arithmetic tops.reverse (front tops) (by simpa using all)
        (by simpa using fun x mem => taken x (List.mem_append_left _ mem)),
      run_of_taken arithmetic tops'.reverse (front tops') (by simpa using all')
        (by simpa using fun x mem => taken x (List.mem_append_right _ mem)),
      List.map_reverse, List.map_reverse, same]
  · refine ofOpcode_eq_iff_mem counted (by decide) ?_
    intro row mem same
    subst same
    revert row
    decide

/-- The sum of the two largest operands has a fifth byte, and the negative zero is a zero. -/
theorem arithmetic_is_exact_at_the_bounds :
    (binary .add).opcodeClass = .arithmetic ∧
      (binary .add).run {} [] 0
          { stack := [[0xff, 0xff, 0xff, 0x7f], [0xff, 0xff, 0xff, 0x7f], [7]] } =
        .ok { stack := [[0xfe, 0xff, 0xff, 0xff, 0x00], [7]] } ∧
      (binary .add).run {} [] 0 { stack := [[0x80], [1]] } =
        (binary .add).run {} [] 0 { stack := [[], [1, 0]] } := by
  have minimal : SignMagnitude.isMinimal [0xfe, 0xff, 0xff, 0xff, 0x00] = true := rfl
  have sum : SignMagnitude.encode 0xfffffffe = [0xfe, 0xff, 0xff, 0xff, 0x00] :=
    SignMagnitude.encode_value minimal
  refine ⟨rfl, (arithmetic_is_exact rfl {} [] 0 _).1.trans ?_, ?_⟩
  · exact congrArg (fun top => Outcome.ok { stack := [top, [7]] }) sum
  · exact (arithmetic_is_exact rfl {} [] 0 {}).2.2.2.1 rfl [[0x80], [1]] [[], [1, 0]] [] rfl
      (by decide) rfl

end Instruction
end SpendScript
