import SpendScript.Proofs.PushOnlyRuns

/-!
# Where a script that only pushes stops

Whether an operation that only pushes is refused depends on the operation, the flags and the number of
elements already there, and as long as nothing is refused each operation adds one element. The first
refused operation of a script is therefore known before the script is run. A run does what the
operations before it say and stops there; only the element that makes the stacks too deep is still
put on, because the depth is checked at the end of a step.
-/
set_option autoImplicit false

namespace SpendScript

/-- Up to the last small number, an opcode that begins no push stands for a number, save for the one
that is reserved. -/
theorem Instruction.ofOpcode_of_low {opcode : UInt8} (above : 0x4e < opcode) (low : opcode ≤ 0x60)
    (named : opcode ≠ 0x50) : ∃ n, ofOpcode opcode = .pushNumber n := by
  have all : ∀ k < 0x61, 0x4e < k → k ≠ 0x50 →
      (ofOpcode (UInt8.ofNat k)).opcodeClass = .pushNumber := by decide
  have least : 0x4e < opcode.toNat := UInt8.lt_iff_toNat_lt.1 above
  have greatest : opcode.toNat ≤ 0x60 := UInt8.le_iff_toNat_le.1 low
  have other : opcode.toNat ≠ 0x50 := fun same => named (UInt8.toNat_inj.1 same)
  have number := all opcode.toNat (by omega) least other
  rw [UInt8.ofNat_toNat] at number
  cases meaning : ofOpcode opcode with
  | pushNumber n => exact ⟨n, rfl⟩
  | _ =>
    rw [meaning] at number
    cases number

theorem Context.depth_append (ctx : Context) (xs : Stack) :
    Context.depth { ctx with stack := xs ++ ctx.stack } = ctx.depth + xs.length := by
  show (xs ++ ctx.stack).length + ctx.altStack.length =
    ctx.stack.length + ctx.altStack.length + xs.length
  rw [List.length_append]
  omega

namespace Operation

/-- The reason for which an operation that only pushes fails on top of `depth` elements, if it
fails. -/
def refusal? (op : Operation) (flags : Flags) (depth : Nat) : Option ScriptError :=
  match op with
  | .push form data =>
    if Limits.elementSize < data.length then some .pushSize
    else if flags.minimalData && !Script.isMinimalPush (form.opcode data.length) data then
      some .minimalData
    else if Limits.stackSize < depth + 1 then some .stackSize
    else none
  | .code opcode =>
    if opcode = 0x50 then some .badOpcode
    else if Limits.stackSize < depth + 1 then some .stackSize
    else none

/-- What an operation that is refused for this reason has put on the stack. -/
def leftBy (op : Operation) (error : ScriptError) : List Bytes :=
  if error = .stackSize then op.pushed?.toList else []

theorem reverse_leftBy (op : Operation) (error : ScriptError) :
    (op.leftBy error).reverse = op.leftBy error := by
  rw [leftBy]
  split
  · cases op.pushed? <;> rfl
  · rfl

variable {op : Operation} {env : Environment} {script : Script} {index : Nat} {ctx : Context}

/-- The depth is looked at last, where the operation itself has pushed. -/
theorem refusal?_eq (wellFormed : op.WellFormed) (onlyPushes : op.isPush = true) (flags : Flags)
    (depth : Nat) :
    op.refusal? flags depth =
      match op.pushResult flags with
      | .ok _ => if Limits.stackSize < depth + 1 then some .stackSize else none
      | .error error => some error := by
  cases op with
  | push form data =>
    have result : (push form data).pushResult flags =
        if Limits.elementSize < data.length then .error .pushSize
        else if flags.minimalData && !Script.isMinimalPush (form.opcode data.length) data then
          .error .minimalData
        else .ok data := rfl
    rw [result, refusal?]
    split
    · rfl
    · split <;> rfl
  | code opcode =>
    rw [refusal?]
    by_cases reserved : opcode = 0x50
    · rw [if_pos reserved, reserved]
      rfl
    · obtain ⟨n, number⟩ :=
        Instruction.ofOpcode_of_low wellFormed (of_decide_eq_true onlyPushes) reserved
      rw [if_neg reserved, pushResult_of_pushNumber number]

/-- The operation itself does not look at the depth. -/
theorem pushResult_ne_stackSize (flags : Flags) : op.pushResult flags ≠ .error .stackSize := by
  intro full
  rw [pushResult] at full
  cases pushed : op.pushed? with
  | none =>
    rw [pushed] at full
    cases full
  | some x =>
    rw [pushed] at full
    dsimp only at full
    split at full
    · cases full
    · split at full <;> cases full

/-- An operation that is not refused adds what it pushes, and one that is refused leaves behind at most
that. -/
theorem step_of_refusal (wellFormed : op.WellFormed) (onlyPushes : op.isPush = true)
    (executing : ctx.isExecuting = true) :
    match op.refusal? env.flags ctx.depth with
    | none => ∃ x, op.pushed? = some x ∧ op.step env script index ctx = .ok (ctx.push x)
    | some error =>
      op.step env script index ctx = .fail error { ctx with stack := op.leftBy error ++ ctx.stack } := by
  have step : op.step env script index ctx = _ := step_of_isPush onlyPushes executing
  rw [step, refusal?_eq wellFormed onlyPushes]
  cases result : op.pushResult env.flags with
  | ok x =>
    have pushed : op.pushed? = some x := (pushResult_eq_ok_iff.1 result).1
    dsimp only
    rw [Context.checkDepth, Context.depth_push]
    by_cases full : Limits.stackSize < ctx.depth + 1
    · rw [if_pos full, if_pos full]
      dsimp only
      rw [leftBy, if_pos rfl, pushed]
      rfl
    · rw [if_neg full, if_neg full]
      exact ⟨x, pushed, rfl⟩
  | error error =>
    have early : error ≠ .stackSize := by
      rintro rfl
      exact pushResult_ne_stackSize env.flags result
    dsimp only
    rw [leftBy, if_neg early]
    rfl

end Operation

namespace Script

/-- On top of `depth` elements none of the operations is refused, if each adds one element. -/
def Unrefused (ops : Script) (flags : Flags) (depth : Nat) : Prop :=
  ∀ (k : Nat) (op : Operation), ops[k]? = some op → op.refusal? flags (depth + k) = none

/-- Of the operations, the one after `before` is the first that is refused, and this is the reason. -/
structure StopsAt (ops : Script) (flags : Flags) (depth : Nat) (before : List Operation)
    (op : Operation) (error : ScriptError) : Prop where
  split : ∃ after, ops = before ++ op :: after
  passed : Unrefused before flags depth
  refused : op.refusal? flags (depth + before.length) = some error

variable {flags : Flags} {depth : Nat} {op : Operation} {ops before : List Operation}
  {error : ScriptError}

theorem unrefused_nil : Unrefused [] flags depth :=
  fun _ _ listed => nomatch listed

theorem unrefused_cons :
    Unrefused (op :: ops) flags depth ↔
      op.refusal? flags depth = none ∧ Unrefused ops flags (depth + 1) := by
  constructor
  · intro unrefused
    refine ⟨unrefused 0 op rfl, fun k next listed => ?_⟩
    have later := unrefused (k + 1) next listed
    rwa [← Nat.add_assoc, Nat.add_right_comm] at later
  · rintro ⟨here, later⟩ k next listed
    cases k with
    | zero =>
      cases listed
      exact here
    | succ k =>
      have passed := later k next listed
      rwa [Nat.add_right_comm, Nat.add_assoc] at passed

/-- A script is not refused at all or has a first operation that is. -/
theorem unrefused_or_stopsAt (flags : Flags) (depth : Nat) (ops : Script) :
    ops.Unrefused flags depth ∨ ∃ before op error, ops.StopsAt flags depth before op error := by
  induction ops generalizing depth with
  | nil => exact Or.inl unrefused_nil
  | cons op ops ih =>
    cases refused : op.refusal? flags depth with
    | some error =>
      exact Or.inr ⟨[], op, error, ⟨ops, rfl⟩, unrefused_nil, refused⟩
    | none =>
      rcases ih (depth + 1) with unrefused | ⟨before, next, error, ⟨after, split⟩, passed, refused'⟩
      · exact Or.inl (unrefused_cons.2 ⟨refused, unrefused⟩)
      · refine Or.inr ⟨op :: before, next, error, ⟨after, by rw [split]; rfl⟩,
          unrefused_cons.2 ⟨refused, passed⟩, ?_⟩
        rwa [List.length_cons, Nat.add_comm before.length, ← Nat.add_assoc]

variable {env : Environment} {script : Script} {index : Nat} {ctx : Context}

/-- Operations of which none is refused put their values on the stack, the first one lowest. -/
theorem runFrom_of_unrefused (wellFormed : ∀ op ∈ ops, op.WellFormed)
    (onlyPush : ∀ op ∈ ops, op.isPush = true) (executing : ctx.isExecuting = true)
    (unrefused : Unrefused ops env.flags ctx.depth) :
    ∃ values : List Bytes, ops.map Operation.pushed? = values.map some ∧
      script.runFrom env index ops ctx = .ok { ctx with stack := values.reverse ++ ctx.stack } := by
  induction ops generalizing index ctx with
  | nil => exact ⟨[], rfl, rfl⟩
  | cons op ops ih =>
    obtain ⟨hasForm, haveForm⟩ := List.forall_mem_cons.1 wellFormed
    obtain ⟨pushes, push⟩ := List.forall_mem_cons.1 onlyPush
    obtain ⟨here, later⟩ := unrefused_cons.1 unrefused
    have stepped := @Operation.step_of_refusal op env script index ctx hasForm pushes executing
    rw [here] at stepped
    obtain ⟨x, pushed, step⟩ := stepped
    rw [← Context.depth_push ctx x] at later
    obtain ⟨values, rest, ran⟩ := @ih (index + 1) (ctx.push x) haveForm push executing later
    refine ⟨x :: values, by rw [List.map_cons, List.map_cons, pushed, rest], ?_⟩
    rw [runFrom, step, Outcome.ok_andThen, ran, List.reverse_cons, List.append_assoc]
    rfl

/-- A run of operations one of which is refused ends there. -/
theorem runFrom_of_stopsAt (wellFormed : ∀ op ∈ ops, op.WellFormed)
    (onlyPush : ∀ op ∈ ops, op.isPush = true) (executing : ctx.isExecuting = true)
    (stops : StopsAt ops env.flags ctx.depth before op error) :
    ∃ values : List Bytes, before.map Operation.pushed? = values.map some ∧
      script.runFrom env index ops ctx =
        .fail error { ctx with stack := (values ++ op.leftBy error).reverse ++ ctx.stack } := by
  obtain ⟨⟨after, rfl⟩, passed, refused⟩ := stops
  have listed : op ∈ before ++ op :: after := List.mem_append_right before List.mem_cons_self
  obtain ⟨values, spelled, ran⟩ := @runFrom_of_unrefused before env script index ctx
    (fun next early => wellFormed next (List.mem_append_left _ early))
    (fun next early => onlyPush next (List.mem_append_left _ early)) executing passed
  refine ⟨values, spelled, ?_⟩
  have count : before.length = values.length := by
    have lengths := congrArg List.length spelled
    rwa [List.length_map, List.length_map] at lengths
  have depth : ctx.depth + before.length =
      Context.depth { ctx with stack := values.reverse ++ ctx.stack } := by
    rw [Context.depth_append, List.length_reverse, count]
  have stepped := @Operation.step_of_refusal op env script (index + before.length)
    { ctx with stack := values.reverse ++ ctx.stack } (wellFormed op listed) (onlyPush op listed)
    executing
  rw [← depth, refused] at stepped
  rw [runFrom_append, ran, Outcome.ok_andThen, runFrom, stepped, Outcome.fail_andThen,
    List.reverse_append, Operation.reverse_leftBy, List.append_assoc]

section Closed

variable (wellFormed : ∀ op ∈ script, op.WellFormed) (onlyPushes : script.isPushOnly = true)
  (closed : ctx.conditionals = {})

include wellFormed onlyPushes closed

theorem execute_of_unrefused (unrefused : script.Unrefused env.flags ctx.depth) :
    ∃ values : List Bytes, script.map Operation.pushed? = values.map some ∧
      script.execute env ctx = .ok { ctx with stack := values.reverse ++ ctx.stack } := by
  have executing : ctx.isExecuting = true := by rw [Context.isExecuting, closed]; rfl
  obtain ⟨values, spelled, ran⟩ := @runFrom_of_unrefused script env script 0 ctx wellFormed
    (List.all_eq_true.1 onlyPushes) executing unrefused
  refine ⟨values, spelled, ?_⟩
  rw [execute, ran, Outcome.ok_andThen, Context.checkClosed, closed]
  rfl

theorem execute_of_stopsAt (stops : script.StopsAt env.flags ctx.depth before op error) :
    ∃ values : List Bytes, before.map Operation.pushed? = values.map some ∧
      script.execute env ctx =
        .fail error { ctx with stack := (values ++ op.leftBy error).reverse ++ ctx.stack } := by
  have executing : ctx.isExecuting = true := by rw [Context.isExecuting, closed]; rfl
  obtain ⟨values, spelled, ran⟩ := @runFrom_of_stopsAt op script before error env script 0 ctx
    wellFormed (List.all_eq_true.1 onlyPushes) executing stops
  refine ⟨values, spelled, ?_⟩
  rw [execute, ran, Outcome.fail_andThen]

end Closed

/-- A script that only pushes, in a context without open conditionals, asks nothing and changes nothing
but the main stack. It succeeds if none of its operations is refused, with all their values on the
stack. Otherwise it fails for the reason of the first that is refused, with the values of those before
it on the stack and its own where the depth was the reason. -/
theorem execute_pushes_until_refused (wellFormed : ∀ op ∈ script, op.WellFormed)
    (onlyPushes : script.isPushOnly = true) (closed : ctx.conditionals = {}) :
    let o := script.execute env ctx
    (o.queries = [] ∧ o.context = { ctx with stack := o.context.stack }) ∧
      (script.Unrefused env.flags ctx.depth ∨
        ∃ before op error, script.StopsAt env.flags ctx.depth before op error) ∧
      (script.Unrefused env.flags ctx.depth →
        ∃ values : List Bytes, script.map Operation.pushed? = values.map some ∧
          o.result = .ok () ∧ o.context.stack = values.reverse ++ ctx.stack) ∧
      ∀ before op error, script.StopsAt env.flags ctx.depth before op error →
        ∃ values : List Bytes, before.map Operation.pushed? = values.map some ∧
          o.result = .error error ∧
          o.context.stack = (values ++ op.leftBy error).reverse ++ ctx.stack := by
  intro o
  have decided := unrefused_or_stopsAt env.flags ctx.depth script
  refine ⟨?_, decided, fun unrefused => ?_, fun before op error stops => ?_⟩
  · rcases decided with unrefused | ⟨before, op, error, stops⟩
    · obtain ⟨values, _, (ends : o = _)⟩ := execute_of_unrefused wellFormed onlyPushes closed unrefused
      rw [ends]
      exact ⟨rfl, rfl⟩
    · obtain ⟨values, _, (ends : o = _)⟩ := execute_of_stopsAt wellFormed onlyPushes closed stops
      rw [ends]
      exact ⟨rfl, rfl⟩
  · obtain ⟨values, spelled, (ends : o = _)⟩ := execute_of_unrefused wellFormed onlyPushes closed unrefused
    rw [ends]
    exact ⟨values, spelled, rfl, rfl⟩
  · obtain ⟨values, spelled, (ends : o = _)⟩ := execute_of_stopsAt wellFormed onlyPushes closed stops
    rw [ends]
    exact ⟨values, spelled, rfl, rfl⟩

/-- With a thousand elements there after the first push, the second one leaves its number and fails; on
an empty stack it is the reserved opcode behind them that fails, and it leaves nothing. -/
theorem execute_pushes_until_refused_full :
    let env : Environment := { flags := { minimalData := true } }
    let script : Script := [.push .direct [7, 7], .code 0x52, .code 0x50]
    let below : Stack := List.replicate 998 []
    let full : Context := { stack := below, altStack := [[9]], opCount := 201 }
    ((script.execute env full).result = .error .stackSize ∧
      (script.execute env full).context = { full with stack := [2] :: [7, 7] :: below }) ∧
    (script.execute env {}).result = .error .badOpcode ∧
      (script.execute env {}).context.stack = [[2], [7, 7]] := by
  intro env script below full
  have wellFormed : ∀ op ∈ script, op.WellFormed := by decide
  have two : (Operation.code 0x52).pushed? = some [2] := by decide +kernel
  obtain ⟨⟨_, same⟩, _, _, refused⟩ :=
    @execute_pushes_until_refused env script full wellFormed (by decide) rfl
  obtain ⟨_, _, _, reserved⟩ :=
    @execute_pushes_until_refused env script {} wellFormed (by decide) rfl
  have first : Unrefused [.push .direct [7, 7]] env.flags full.depth :=
    unrefused_cons.2 ⟨by decide +kernel, unrefused_nil⟩
  obtain ⟨values, spelled, result, stack⟩ :=
    refused [.push .direct [7, 7]] (.code 0x52) .stackSize
      ⟨⟨[.code 0x50], rfl⟩, first, by decide +kernel⟩
  obtain ⟨values', spelled', result', stack'⟩ :=
    reserved [.push .direct [7, 7], .code 0x52] (.code 0x50) .badOpcode
      ⟨⟨[], rfl⟩, unrefused_cons.2 ⟨by decide, unrefused_cons.2 ⟨by decide, unrefused_nil⟩⟩, by decide⟩
  have own : (Operation.code 0x52).leftBy .stackSize = [[2]] := by
    rw [Operation.leftBy, if_pos rfl, two]
    rfl
  have one : values = [[7, 7]] :=
    List.map_injective_iff.2 (Option.some_injective _) spelled.symm
  have both : values' = [[7, 7], [2]] := by
    rw [List.map_cons, List.map_singleton, two] at spelled'
    exact List.map_injective_iff.2 (Option.some_injective _) spelled'.symm
  rw [one, own] at stack
  rw [both] at stack'
  refine ⟨⟨result, ?_⟩, result', stack'⟩
  rw [same, stack]
  rfl

end Script
end SpendScript
