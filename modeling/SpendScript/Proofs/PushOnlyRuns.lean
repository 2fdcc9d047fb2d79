import SpendScript.Proofs.AcceptedScripts
import SpendScript.Proofs.MinimalPushes
import SpendScript.Proofs.Serialization
import SpendScript.Proofs.ValidSpends

/-!
# Runs that only push

Where no conditional is open, a script that only pushes does one thing: each of its operations puts
one element on the stack or fails. After a success the stack therefore spells out what the
operations pushed, and under the rule for minimal data that tells which operations they were, and
so which bytes the script had. Nobody else can write the same unlocking script differently.
-/
set_option autoImplicit false

namespace SpendScript

/-- What an operation that only pushes does where operations are executed: it pushes these bytes, or
it fails for this reason. -/
def Operation.pushResult (op : Operation) (flags : Flags) : Except ScriptError Bytes :=
  match op.pushed? with
  | none => .error .badOpcode
  | some x =>
    if Limits.elementSize < x.length then .error .pushSize
    else if flags.minimalData && !op.isMinimal then .error .minimalData
    else .ok x

namespace Instruction

/-- The meanings of the opcodes up to the last small number. -/
theorem opcodeClass_of_low {opcode : UInt8} (low : opcode ≤ 0x60) :
    (ofOpcode opcode).opcodeClass = .push ∨ (ofOpcode opcode).opcodeClass = .pushNumber ∨
      (ofOpcode opcode).opcodeClass = .reserved := by
  have all : ∀ n < 0x61, (ofOpcode (UInt8.ofNat n)).opcodeClass = .push ∨
      (ofOpcode (UInt8.ofNat n)).opcodeClass = .pushNumber ∨
        (ofOpcode (UInt8.ofNat n)).opcodeClass = .reserved := by decide
  have bound : opcode.toNat < 0x61 := Nat.lt_succ_of_le (UInt8.le_iff_toNat_le.1 low)
  have named := all opcode.toNat bound
  rwa [UInt8.ofNat_toNat] at named

/-- The number that an opcode pushes has one byte. -/
theorem length_encode_of_pushNumber {opcode : UInt8} {n : Int}
    (instruction : ofOpcode opcode = .pushNumber n) : (SignMagnitude.encode n).length = 1 := by
  rcases ofOpcode_eq_pushNumber instruction with ⟨_, rfl⟩ | ⟨k, least, greatest, _, rfl⟩
  · rw [SignMagnitude.encode_neg_one]
    rfl
  · rw [SignMagnitude.encode_of_small least (by omega)]
    rfl

end Instruction

namespace Operation

variable {op : Operation} {env : Environment} {script : Script} {index : Nat} {ctx : Context}

theorem pushResult_of_pushNumber {opcode : UInt8} {n : Int} {flags : Flags}
    (instruction : Instruction.ofOpcode opcode = .pushNumber n) :
    (code opcode).pushResult flags = .ok (SignMagnitude.encode n) := by
  have pushed : (code opcode).pushed? = some (SignMagnitude.encode n) := by
    simp only [pushed?, instruction]
  have short : ¬Limits.elementSize < (SignMagnitude.encode n).length := by
    rw [Instruction.length_encode_of_pushNumber instruction]
    decide
  simp only [pushResult, pushed, if_neg short, isMinimal, Bool.not_true, Bool.and_false]
  rfl

/-- One step of a script that only pushes. -/
theorem step_of_isPush (onlyPushes : op.isPush = true) (executing : ctx.isExecuting = true) :
    op.step env script index ctx =
      match op.pushResult env.flags with
      | .ok x => (ctx.push x).checkDepth
      | .error error => .fail error ctx := by
  unfold step run
  cases op with
  | push form data =>
    have result : (push form data).pushResult env.flags =
        if Limits.elementSize < data.length then .error .pushSize
        else if env.flags.minimalData && !Script.isMinimalPush (form.opcode data.length) data then
          .error .minimalData
        else .ok data := rfl
    dsimp only
    rw [result, Context.pushData, executing, Bool.not_true, if_neg Bool.false_ne_true]
    split
    · rfl
    · split <;> rfl
  | code opcode =>
    have low : opcode ≤ 0x60 := of_decide_eq_true onlyPushes
    have uncounted : ¬(code opcode).countsTowardLimit = true := by
      intro counts
      exact absurd low (UInt8.not_le.2 (of_decide_eq_true counts))
    have named := Instruction.opcodeClass_of_low low
    dsimp only
    rw [count, if_neg uncounted, Outcome.ok_andThen, executing, Bool.true_or, if_pos rfl]
    cases instruction : Instruction.ofOpcode opcode with
    | pushNumber n =>
      rw [pushResult_of_pushNumber instruction]
      rfl
    | push | versionIf | reserved =>
      have result : (code opcode).pushResult env.flags = .error .badOpcode := by
        simp only [pushResult, pushed?, instruction]
      rw [result]
      rfl
    | _ =>
      rw [instruction] at named
      rcases named with named | named | named <;> cases named

theorem pushResult_eq_ok_iff {flags : Flags} {x : Bytes} :
    op.pushResult flags = .ok x ↔
      op.pushed? = some x ∧ x.length ≤ Limits.elementSize ∧
        (flags.minimalData = true → op.isMinimal = true) := by
  unfold pushResult
  cases pushed : op.pushed? with
  | none => simp
  | some y =>
    dsimp only
    by_cases long : Limits.elementSize < y.length
    · rw [if_pos long]
      constructor
      · intro h
        cases h
      · rintro ⟨same, short, _⟩
        cases same
        omega
    · rw [if_neg long]
      by_cases refused : (flags.minimalData && !op.isMinimal) = true
      · rw [if_pos refused]
        rw [Bool.and_eq_true, Bool.not_eq_true'] at refused
        constructor
        · intro h
          cases h
        · rintro ⟨_, _, passes⟩
          rw [passes refused.1] at refused
          cases refused.2
      · rw [if_neg refused]
        constructor
        · intro h
          cases h
          exact ⟨rfl, by omega, fun demanded => by simpa [demanded] using refused⟩
        · rintro ⟨same, _⟩
          cases same
          rfl

end Operation

namespace Script

/-- Operations that push under the rule for minimal data are the minimal pushes of what they push. -/
theorem eq_map_minimalPush {flags : Flags} {ops : List Operation} (minimal : flags.minimalData = true)
    (wellFormed : ∀ op ∈ ops, op.WellFormed)
    (push : ∀ op ∈ ops, ∃ x, op.pushResult flags = .ok x) :
    ops = (ops.filterMap Operation.pushed?).map Operation.minimalPush := by
  induction ops with
  | nil => rfl
  | cons op ops ih =>
    obtain ⟨hasForm, haveForm⟩ := List.forall_mem_cons.1 wellFormed
    obtain ⟨⟨x, result⟩, results⟩ := List.forall_mem_cons.1 push
    obtain ⟨pushed, _, passes⟩ := Operation.pushResult_eq_ok_iff.1 result
    have here : op = Operation.minimalPush x :=
      Operation.eq_minimalPush hasForm pushed (passes minimal)
    rw [List.filterMap_cons_some pushed, List.map_cons, ← here, ← ih haveForm results]

variable {env env' : Environment} {script script' : Script} {bs bs' : Bytes} {stack left : Stack}

/-- A run of operations that only push, if it succeeds, has put on the stack what each of them
pushes, and changed nothing else. -/
theorem runFrom_of_isPush {ops : List Operation} {index : Nat} {ctx : Context}
    (onlyPushes : ∀ op ∈ ops, op.isPush = true) (executing : ctx.isExecuting = true)
    (succeeds : (script.runFrom env index ops ctx).result = .ok ()) :
    (∀ op ∈ ops, ∃ x, op.pushResult env.flags = .ok x) ∧
      (script.runFrom env index ops ctx).context =
        { ctx with stack := (ops.filterMap Operation.pushed?).reverse ++ ctx.stack } := by
  induction ops generalizing index ctx with
  | nil => exact ⟨by simp, rfl⟩
  | cons op ops ih =>
    obtain ⟨pushes, push⟩ := List.forall_mem_cons.1 onlyPushes
    obtain ⟨stepped, ran, context⟩ := Outcome.andThen_succeeds succeeds
    have step : op.step env script index ctx = _ := Operation.step_of_isPush pushes executing
    cases result : op.pushResult env.flags with
    | error error =>
      rw [step, result] at stepped
      cases stepped
    | ok x =>
      have reached : (op.step env script index ctx).context = ctx.push x := by
        rw [step, result]
        exact Context.checkDepth_context _
      rw [reached] at ran context
      have executing : (ctx.push x).isExecuting = true := executing
      obtain ⟨results, context'⟩ := ih push executing ran
      refine ⟨List.forall_mem_cons.2 ⟨⟨x, result⟩, results⟩, ?_⟩
      have pushed : op.pushed? = some x := (Operation.pushResult_eq_ok_iff.1 result).1
      have front : (x :: ops.filterMap Operation.pushed?).reverse ++ ctx.stack =
          (ops.filterMap Operation.pushed?).reverse ++ (ctx.push x).stack := by
        rw [List.reverse_cons, List.append_assoc]
        rfl
      rw [List.filterMap_cons_some pushed, front]
      exact context.trans context'

/-- What a script that only pushes leaves tells its operations, under the rule for minimal data. -/
theorem values_of_leaves (minimal : env.flags.minimalData = true)
    (wellFormed : ∀ op ∈ script, op.WellFormed) (onlyPushes : script.isPushOnly = true)
    (leaves : script.Leaves env stack left) :
    ∃ values : List Bytes, script = values.map Operation.minimalPush ∧
      left = values.reverse ++ stack := by
  obtain ⟨succeeds, same⟩ := leaves
  obtain ⟨ran, _, context⟩ := Outcome.andThen_succeeds succeeds
  obtain ⟨push, reached⟩ := runFrom_of_isPush (List.all_eq_true.1 onlyPushes) rfl ran
  refine ⟨script.filterMap Operation.pushed?, eq_map_minimalPush minimal wellFormed push, ?_⟩
  have ended : (script.execute env (.start stack)).context = _ :=
    context.trans (Context.checkClosed_context _)
  rw [← same, ended, reached]
  rfl

/-- Two byte strings that decode to scripts which only push, and which leave the same stack under
the rule for minimal data, are the same bytes. -/
theorem bytes_unique_of_leaves (minimal : env.flags.minimalData = true)
    (minimal' : env'.flags.minimalData = true) (decoded : decode bs = .ok script)
    (decoded' : decode bs' = .ok script') (onlyPushes : script.isPushOnly = true)
    (onlyPushes' : script'.isPushOnly = true) (leaves : script.Leaves env stack left)
    (leaves' : script'.Leaves env' stack left) : bs = bs' := by
  obtain ⟨_, bytes, wellFormed⟩ := decode_eq_ok_iff.1 decoded
  obtain ⟨_, bytes', wellFormed'⟩ := decode_eq_ok_iff.1 decoded'
  obtain ⟨values, rfl, spelled⟩ := values_of_leaves minimal wellFormed onlyPushes leaves
  obtain ⟨values', rfl, spelled'⟩ := values_of_leaves minimal' wellFormed' onlyPushes' leaves'
  have same : values = values' :=
    List.reverse_injective (List.append_cancel_right (spelled.symm.trans spelled'))
  rw [← bytes, ← bytes', same]

/-- Five, seventeen, minus one and nothing have one spelling; with a length before the five they are
the same to the base rules and refused by the rule for minimal data. -/
theorem bytes_unique_of_leaves_numbers :
    let env : Environment := { flags := { minimalData := true } }
    let values : List Bytes := [[5], [0x11], [0x81], []]
    let script : Script := values.map Operation.minimalPush
    let longer : Script := .push .direct [5] :: script.tail
    (script.encode = [0x55, 0x01, 0x11, 0x4f, 0x00] ∧ script.Leaves env [] values.reverse) ∧
      longer.Leaves {} [] values.reverse ∧ ¬longer.Leaves env [] values.reverse := by
  intro env values script longer
  have leaves : script.Leaves env [] values.reverse := by unfold Leaves; decide +kernel
  have decoded : decode script.encode = .ok script := by decide +kernel
  have decoded' : decode [0x55, 0x01, 0x11, 0x4f, 0x00] = .ok script := by decide +kernel
  have same : script.encode = [0x55, 0x01, 0x11, 0x4f, 0x00] :=
    bytes_unique_of_leaves rfl rfl decoded decoded' (by decide) (by decide) leaves leaves
  exact ⟨⟨same, leaves⟩, by unfold Leaves; decide +kernel, by unfold Leaves; decide +kernel⟩

end Script
end SpendScript
