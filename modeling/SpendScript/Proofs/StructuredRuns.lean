import SpendScript.Proofs.NestedRuns

/-!
# Conditionals as a whole

A conditional is run operation by operation, with nothing but the open conditionals to tell which
branch is taken. The result is that of the structured evaluation, which looks at the condition once
and then executes and passes over the branches in turn, however many there are and however deep
conditionals are nested in them.
-/
set_option autoImplicit false

namespace SpendScript

section Ends

variable {base : Conditionals} {taken : Bool} {env : Environment} {script : Script} {index : Nat}
  {ctx flat : Context}

/-- Outside of inner conditionals a branch leaves the others alone, executed or not. -/
theorem Context.inside_nil_iff :
    ctx.Inside base taken [] ↔ ctx.conditionals = base ∧ ctx.depth ≤ Limits.stackSize := by
  constructor
  · intro h
    have conditionals := h.conditionals_eq
    rw [Conditionals.nest_nil, ite_self] at conditionals
    exact ⟨conditionals, h.shallow⟩
  · rintro ⟨conditionals, shallow⟩
    refine ⟨?_, Nat.zero_le _, shallow⟩
    rw [Conditionals.nest_nil, ite_self]
    exact conditionals

/-- An operation that only changes the open conditionals is counted and does nothing else. -/
theorem Operation.step_mirrors_count {op : Operation} {c c' : Conditionals}
    {related : Context → Context → Prop}
    {change : Conditionals → Except ScriptError Conditionals}
    (branching : op.instruction.isBranching = true)
    (runs : ∀ ctx, op.instruction.run env script index ctx =
      ctx.setConditionals (change ctx.conditionals))
    (changes : change c = .ok c') (shallow : ctx.depth ≤ Limits.stackSize)
    (h : ∀ n, related (Context.under { ctx with opCount := n } c') { ctx with opCount := n }) :
    Outcome.Mirrors related (op.step env script index (ctx.under c)) (ctx.countOps 1) := by
  rw [step_of_isBranching branching, ← Outcome.andThen_ok (ctx.countOps 1)]
  refine Context.countOps_mirrors fun _ => ?_
  have shallow' : Context.depth { ctx with opCount := ctx.opCount + 1 } ≤ Limits.stackSize :=
    shallow
  rw [runs]
  show Outcome.Mirrors related ((Context.setConditionals _ (change c)).andThen _) _
  rw [changes, ← Context.checkDepth_of_le shallow']
  exact Context.checkDepth_mirrors shallow' (h _)

theorem Operation.step_otherwise_mirrors (h : flat.Beside base taken 0 ctx) :
    Outcome.Mirrors (Context.Beside base (!taken) 0)
      ((Operation.code 0x67).step env script index flat) (ctx.countOps 1) := by
  obtain ⟨inner, length, rfl, inside⟩ := h
  obtain rfl := List.eq_nil_of_length_eq_zero length
  obtain ⟨conditionals, shallow⟩ := Context.inside_nil_iff.1 inside
  refine step_mirrors_count rfl (fun _ => rfl) Conditionals.toggle_nest shallow fun n => ?_
  exact ⟨[], rfl, rfl, Context.inside_nil_iff.2 ⟨conditionals, shallow⟩⟩

theorem Operation.step_endIf_mirrors (h : flat.Beside base taken 0 ctx) :
    Outcome.Mirrors (fun a b => a = b ∧ a.conditionals = base)
      ((Operation.code 0x68).step env script index flat) (ctx.countOps 1) := by
  obtain ⟨inner, length, rfl, inside⟩ := h
  obtain rfl := List.eq_nil_of_length_eq_zero length
  obtain ⟨conditionals, shallow⟩ := Context.inside_nil_iff.1 inside
  refine step_mirrors_count rfl (fun _ => rfl) Conditionals.pop_nest shallow fun n => ?_
  rw [Conditionals.nest_nil, ← conditionals]
  exact ⟨rfl, rfl⟩

end Ends

namespace Script

variable {base : Conditionals} {taken : Bool} {script : Script} {env : Environment}

/-- From one branch to the next the runs stay side by side, and exactly one of two neighbours is
taken. -/
theorem runBranches_mirrors (executing : base.allTaken = true)
    (few : base.branches.length ≤ Limits.opsPerScript) {branches : List (List Operation)}
    (nested : ∀ branch ∈ branches, isNested branch = true) {index : Nat} {flat ctx : Context}
    (h : flat.Beside base taken 0 ctx) :
    Outcome.Mirrors (fun a b => ∃ taken, a.Beside base taken 0 b)
      (script.runFrom env index (branches.intersperse [.code 0x67]).flatten flat)
      (script.runBranches env taken index branches ctx) := by
  induction branches generalizing taken index flat ctx with
  | nil =>
    obtain ⟨inner, length, rfl, inside⟩ := h
    exact Outcome.mirrors_ok ⟨taken, inner, length, rfl, inside⟩
  | cons branch branches ih =>
    have first : Outcome.Mirrors (Context.Beside base taken 0)
        (script.runFrom env index branch flat) (script.passAll env taken index branch ctx) :=
      runFrom_mirrors executing few (nested branch List.mem_cons_self) h
    cases branches with
    | nil =>
      show Outcome.Mirrors _ (script.runFrom env index (branch ++ []) flat)
        (script.passAll env taken index branch ctx)
      rw [List.append_nil]
      exact first.mono fun a b reached => ⟨taken, reached⟩
    | cons next rest =>
      have operations : ((branch :: next :: rest).intersperse [.code 0x67]).flatten =
          branch ++ .code 0x67 :: ((next :: rest).intersperse [.code 0x67]).flatten := rfl
      have structured : script.runBranches env taken index (branch :: next :: rest) ctx =
          (script.passAll env taken index branch ctx).andThen fun ctx =>
            (ctx.countOps 1).andThen
              (script.runBranches env (!taken) (index + branch.length + 1) (next :: rest)) := rfl
      rw [operations, runFrom_append, structured]
      refine first.andThen fun a b reached => ?_
      refine (Operation.step_otherwise_mirrors reached).andThen fun a b reached => ?_
      exact ih (fun branch later => nested branch (List.mem_cons_of_mem _ later)) reached

section Conditional

variable {negated : Bool} {branches : List (List Operation)} {index : Nat} {ctx : Context}

/-- The condition decides at once with which branch the structured evaluation begins. -/
theorem runBranches_mirrors_of_openIf (nested : ∀ branch ∈ branches, isNested branch = true)
    (executing : ctx.isExecuting = true) (shallow : ctx.depth ≤ Limits.stackSize)
    (few : ctx.conditionals.branches.length ≤ Limits.opsPerScript) :
    Outcome.Mirrors (fun a b => a = b ∧ a.conditionals = ctx.conditionals)
      (((ctx.openIf negated).andThen Context.checkDepth).andThen
        (script.runFrom env index ((branches.intersperse [.code 0x67]).flatten ++ [.code 0x68])))
      (match ctx.stack with
        | [] => .fail .unbalancedConditional ctx
        | x :: rest =>
          (script.runBranches env (SignMagnitude.truthy x != negated) index branches
            { ctx with stack := rest }).andThen fun ctx => ctx.countOps 1) := by
  cases stack : ctx.stack with
  | nil =>
    rw [Context.openIf_nil executing stack]
    exact Outcome.mirrors_fail
  | cons x rest =>
    have popped : Context.depth { ctx with stack := rest } ≤ Limits.stackSize :=
      Context.depth_le_of_pop stack shallow
    have opened : ctx.conditionals.push (SignMagnitude.truthy x != negated) =
        .ok (ctx.conditionals.nest [SignMagnitude.truthy x != negated]) :=
      Conditionals.push_eq_nest (Nat.lt_of_le_of_lt few (by decide))
    have beside : Context.Beside ctx.conditionals (SignMagnitude.truthy x != negated) 0
        { ctx with
          stack := rest, conditionals := ctx.conditionals.nest [SignMagnitude.truthy x != negated] }
        { ctx with stack := rest } :=
      ⟨[], rfl, rfl, Context.inside_nil_iff.2 ⟨rfl, popped⟩⟩
    have entered : (ctx.openIf negated).andThen Context.checkDepth =
        .ok { ctx with
          stack := rest,
          conditionals := ctx.conditionals.nest [SignMagnitude.truthy x != negated] } := by
      rw [Context.openIf_cons executing stack, opened]
      exact Context.checkDepth_of_le popped
    rw [entered, Outcome.ok_andThen, runFrom_append]
    refine (runBranches_mirrors executing few nested beside).andThen fun a b reached => ?_
    obtain ⟨taken, reached⟩ := reached
    rw [runFrom_singleton]
    exact Operation.step_endIf_mirrors reached

theorem conditional_instruction :
    (Operation.code (if negated then 0x64 else 0x63)).instruction = .openIf negated := by
  cases negated <;> rfl

theorem runFrom_conditional_mirrors (nested : ∀ branch ∈ branches, isNested branch = true)
    (executing : ctx.isExecuting = true) (shallow : ctx.depth ≤ Limits.stackSize)
    (few : ctx.conditionals.branches.length ≤ Limits.opsPerScript) :
    Outcome.Mirrors (fun a b => a = b ∧ a.conditionals = ctx.conditionals)
      (script.runFrom env index (conditional negated branches) ctx)
      (script.runConditional env negated index branches ctx) := by
  have branching : (Operation.code (if negated then 0x64 else 0x63)).instruction.isBranching =
      true := by
    rw [conditional_instruction]
    rfl
  have operations : conditional negated branches =
      .code (if negated then 0x64 else 0x63) ::
        ((branches.intersperse [.code 0x67]).flatten ++ [.code 0x68]) := rfl
  rw [operations, runFrom, Operation.step_of_isBranching branching, conditional_instruction,
    Outcome.andThen_assoc]
  unfold runConditional
  show Outcome.Mirrors _ (((ctx.under ctx.conditionals).countOps 1).andThen _) _
  refine Context.countOps_mirrors fun _ => ?_
  have executing' : Context.isExecuting { ctx with opCount := ctx.opCount + 1 } = true := executing
  exact runBranches_mirrors_of_openIf nested executing' shallow few

/-- The flat run of a conditional is its structured evaluation: with the same result and the same
questions, and in all but the open conditionals with the same context, also where it fails. After a
success the contexts are equal, and open is what was open before. -/
theorem runFrom_conditional (nested : ∀ branch ∈ branches, isNested branch = true)
    (executing : ctx.isExecuting = true) (shallow : ctx.depth ≤ Limits.stackSize)
    (few : ctx.conditionals.branches.length ≤ Limits.opsPerScript) :
    let flat := script.runFrom env index (conditional negated branches) ctx
    let structured := script.runConditional env negated index branches ctx
    flat.result = structured.result ∧ flat.queries = structured.queries ∧
      flat.context.stack = structured.context.stack ∧
      flat.context.altStack = structured.context.altStack ∧
      flat.context.opCount = structured.context.opCount ∧
      flat.context.codeStart = structured.context.codeStart ∧
      (flat.result = .ok () →
        flat.context = structured.context ∧ flat.context.conditionals = ctx.conditionals) := by
  intro flat structured
  have mirrors : Outcome.Mirrors (fun a b => a = b ∧ a.conditionals = ctx.conditionals) flat
      structured := runFrom_conditional_mirrors nested executing shallow few
  have context : flat.context = structured.context.under flat.context.conditionals :=
    mirrors.context
  refine ⟨mirrors.result, mirrors.queries, ?_, ?_, ?_, ?_, fun succeeds => ?_⟩
  · rw [context]
    rfl
  · rw [context]
    rfl
  · rw [context]
    rfl
  · rw [context]
    rfl
  · exact mirrors.reached (mirrors.result ▸ succeeds)

end Conditional

/-- The first and the third branch are executed; the second one, with a conditional of its own, is
passed over and counted. -/
theorem runFrom_conditional_three_branches :
    let branches : List (List Operation) :=
      [[.push .direct [2]], [.code 0x63, .code 0x67, .code 0x68], [.push .direct [3]]]
    let o := runFrom [] {} 0 (conditional false branches) { stack := [[1]] }
    o.result = .ok () ∧ o.context.stack = [[3], [2]] ∧ o.context.opCount = 7 := by
  intro branches o
  obtain ⟨result, _, stack, _, opCount, _, _⟩ :=
    @runFrom_conditional [] {} false branches 0 { stack := [[1]] } (by decide) (by decide)
      (by decide) (by decide)
  exact ⟨result.trans rfl, stack.trans (by decide), opCount.trans (by decide)⟩

end Script
end SpendScript
