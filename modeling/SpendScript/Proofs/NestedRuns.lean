import SpendScript.Machine.Structured
import SpendScript.Proofs.NestedConditionals
import SpendScript.Proofs.QuestionLimits

/-!
# Operations inside a conditional

A branch of a conditional is run with one more open conditional than the branch would have on its
own. Its operations open and close further ones, always above it, and so they never touch it. If the
branch is taken, they do what they would do without it; if it is skipped, they are passed over. In
both cases the two runs stay side by side, step by step, and differ in the open conditionals alone.
-/
set_option autoImplicit false

namespace SpendScript

namespace Outcome

/-- Two outcomes that differ in the open conditionals at most; after a success the contexts are
related further. -/
structure Mirrors (related : Context → Context → Prop) (flat structured : Outcome) : Prop where
  result : flat.result = structured.result
  queries : flat.queries = structured.queries
  context : flat.context = structured.context.under flat.context.conditionals
  reached : structured.result = .ok () → related flat.context structured.context

variable {related related' : Context → Context → Prop} {flat structured : Outcome}

theorem Mirrors.mono (h : Mirrors related flat structured)
    (le : ∀ a b, related a b → related' a b) : Mirrors related' flat structured :=
  { h with reached := fun succeeds => le _ _ (h.reached succeeds) }

theorem Mirrors.andThen {next next' : Context → Outcome} (h : Mirrors related flat structured)
    (hnext : ∀ a b, related a b → Mirrors related' (next a) (next' b)) :
    Mirrors related' (flat.andThen next) (structured.andThen next') := by
  have sameResult := h.result
  cases result : structured.result with
  | error error =>
    rw [result] at sameResult
    rw [andThen_of_error next sameResult, andThen_of_error next' result]
    refine { h with reached := fun succeeds => ?_ }
    rw [result] at succeeds
    cases succeeds
  | ok =>
    rw [result] at sameResult
    rw [andThen_of_ok next sameResult, andThen_of_ok next' result]
    have later := hnext _ _ (h.reached result)
    refine { later with queries := ?_ }
    rw [asked_queries, asked_queries, h.queries, later.queries]

theorem mirrors_ok {ctx : Context} {c : Conditionals} (h : related (ctx.under c) ctx) :
    Mirrors related (ok (ctx.under c)) (ok ctx) :=
  ⟨rfl, rfl, rfl, fun _ => h⟩

theorem mirrors_fail {ctx : Context} {c : Conditionals} {error : ScriptError} :
    Mirrors related (fail error (ctx.under c)) (fail error ctx) :=
  ⟨rfl, rfl, rfl, fun succeeds => nomatch succeeds⟩

theorem mirrors_under {c : Conditionals}
    (h : structured.result = .ok () → related (structured.context.under c) structured.context) :
    Mirrors related (structured.under c) structured :=
  ⟨rfl, rfl, rfl, h⟩

end Outcome

section Counting

variable {related : Context → Context → Prop} {ctx : Context} {c : Conditionals}

/-- Both runs count the same operations, and fail together if these are too many. -/
theorem Context.countOps_mirrors {n : Nat} {next next' : Context → Outcome}
    (h : ctx.opCount + n ≤ Limits.opsPerScript →
      Outcome.Mirrors related (next ({ ctx with opCount := ctx.opCount + n }.under c))
        (next' { ctx with opCount := ctx.opCount + n })) :
    Outcome.Mirrors related (((ctx.under c).countOps n).andThen next)
      ((ctx.countOps n).andThen next') := by
  rw [countOps_under]
  by_cases within : ctx.opCount + n ≤ Limits.opsPerScript
  · rw [countOps_of_le within]
    exact h within
  · rw [countOps_of_lt (Nat.lt_of_not_le within)]
    exact Outcome.mirrors_fail

theorem Context.checkDepth_mirrors (shallow : ctx.depth ≤ Limits.stackSize)
    (h : related (ctx.under c) ctx) :
    Outcome.Mirrors related (ctx.under c).checkDepth ctx.checkDepth := by
  rw [checkDepth_under, checkDepth_of_le shallow]
  exact Outcome.mirrors_ok h

end Counting

section Steps

variable {op : Operation} {env : Environment} {script : Script} {index : Nat} {ctx : Context}

theorem Instruction.isConditional_of_isBranching {instruction : Instruction}
    (branching : instruction.isBranching = true) : instruction.isConditional = true := by
  cases instruction with
  | openIf negated => rfl
  | otherwise => rfl
  | endIf => rfl
  | _ => cases branching

/-- An operation that opens, turns or closes a branch is counted and done wherever it stands. -/
theorem Operation.run_of_isBranching (branching : op.instruction.isBranching = true) :
    op.run env script index ctx =
      (ctx.countOps 1).andThen (op.instruction.run env script index) := by
  cases op with
  | push form data => cases branching
  | code opcode =>
    have conditional : (Instruction.ofOpcode opcode).isConditional = true :=
      Instruction.isConditional_of_isBranching branching
    have counts : (Operation.code opcode).countsTowardLimit = true :=
      Instruction.countsTowardLimit_of_isConditional conditional
    have enabled : Instruction.ofOpcode opcode ≠ .disabled := by
      intro disabled
      have branching : (Instruction.ofOpcode opcode).isBranching = true := branching
      rw [disabled] at branching
      cases branching
    unfold run count
    dsimp only
    rw [if_pos counts]
    refine congrArg _ (funext fun ctx => ?_)
    rw [if_neg enabled, if_pos]
    · rfl
    · rw [conditional, Bool.or_true]

/-- A step that opens, turns or closes a branch is counted and taken wherever it stands. -/
theorem Operation.step_of_isBranching (branching : op.instruction.isBranching = true) :
    op.step env script index ctx = (ctx.countOps 1).andThen fun ctx =>
      (op.instruction.run env script index ctx).andThen Context.checkDepth := by
  unfold step
  rw [run_of_isBranching branching, Outcome.andThen_assoc]

/-- Passed over, such an operation is only counted. -/
theorem Operation.skip_of_isBranching (branching : op.instruction.isBranching = true) :
    op.skip ctx = (ctx.countOps 1).andThen .ok := by
  cases op with
  | push form data => cases branching
  | code opcode =>
    have conditional : (Instruction.ofOpcode opcode).isConditional = true :=
      Instruction.isConditional_of_isBranching branching
    have counts : (Operation.code opcode).countsTowardLimit = true :=
      Instruction.countsTowardLimit_of_isConditional conditional
    have branching : (Instruction.ofOpcode opcode).isBranching = true := branching
    unfold skip count
    dsimp only
    rw [if_pos counts]
    refine congrArg _ (funext fun ctx => ?_)
    cases instruction : Instruction.ofOpcode opcode with
    | disabled | versionIf =>
      rw [instruction] at branching
      cases branching
    | _ => rfl

/-- Passing over an operation changes nothing but the count. -/
theorem Operation.skip_context (op : Operation) :
    ∃ n, ctx.opCount ≤ n ∧ (op.skip ctx).context = { ctx with opCount := n } := by
  cases op with
  | push form data =>
    refine ⟨ctx.opCount, Nat.le_refl _, ?_⟩
    unfold skip
    dsimp only
    split <;> rfl
  | code opcode =>
    obtain ⟨n, more, counted⟩ : ∃ n, ctx.opCount ≤ n ∧
        ((Operation.code opcode).count ctx).context = { ctx with opCount := n } :=
      (Operation.code opcode).count_context
    refine ⟨n, more, ?_⟩
    rw [← counted]
    unfold skip
    dsimp only
    refine Outcome.andThen_context_of_forall fun ctx => ?_
    split <;> rfl

/-- Where operations are skipped, an operation that does not branch is passed over. -/
theorem Operation.step_under_of_skipped {c : Conditionals}
    (straight : op.instruction.isBranching = false) (skipped : c.allTaken = false)
    (shallow : ctx.depth ≤ Limits.stackSize) :
    op.step env script index (ctx.under c) = (op.skip ctx).under c := by
  have ran : op.run env script index (ctx.under c) = (op.skip ctx).under c := by
    cases op with
    | push form data =>
      have executing : (ctx.under c).isExecuting = false := skipped
      show (ctx.under c).pushData _ _ _ = _
      unfold Context.pushData skip
      rw [executing]
      dsimp only
      split <;> rfl
    | code opcode =>
      unfold run skip
      dsimp only
      refine count_andThen_under fun n => ?_
      have executing : Context.isExecuting ({ ctx with opCount := n }.under c) = false := skipped
      have straight : (Instruction.ofOpcode opcode).isBranching = false := straight
      rw [executing]
      cases instruction : Instruction.ofOpcode opcode with
      | openIf negated =>
        rw [instruction] at straight
        cases straight
      | otherwise =>
        rw [instruction] at straight
        cases straight
      | endIf =>
        rw [instruction] at straight
        cases straight
      | _ => rfl
  have depth : ((op.skip ctx).under c).context.depth = ctx.depth := by
    obtain ⟨n, _, counted⟩ : ∃ n, ctx.opCount ≤ n ∧
        (op.skip ctx).context = { ctx with opCount := n } := op.skip_context
    show (op.skip ctx).context.depth = _
    rw [counted]
    rfl
  unfold step
  rw [ran]
  exact Outcome.andThen_checkDepth_of_le (depth ▸ shallow)

theorem Operation.step_conditionals (straight : op.instruction.isBranching = false) :
    (op.step env script index ctx).context.conditionals = ctx.conditionals := by
  have same : op.step env script index ctx =
      (op.step env script index ctx).under ctx.conditionals :=
    step_under straight rfl
  rw [same]
  rfl

/-- A step that succeeds leaves no more elements than the stacks may hold. -/
theorem Operation.step_shallow :
    (op.step env script index ctx).Meets (fun after => after.depth ≤ Limits.stackSize)
      fun _ _ => True := by
  have ran : (op.run env script index ctx).Meets (fun _ => True) fun _ _ => True :=
    Outcome.meets_of_context trivial
  refine ran.andThen fun after _ => ?_
  unfold Context.checkDepth
  split
  · trivial
  · next small => exact Nat.le_of_not_lt small

end Steps

/-- The place of a run in a branch in which `inner` conditionals are open. The run has opened them
itself if the branch is taken; otherwise it passes over them. -/
structure Context.Inside (base : Conditionals) (taken : Bool) (inner : List Bool) (ctx : Context) :
    Prop where
  conditionals_eq : ctx.conditionals = if taken then base.nest inner else base
  counted : inner.length ≤ ctx.opCount
  shallow : ctx.depth ≤ Limits.stackSize

/-- Two runs side by side in a branch in which `depth` conditionals are open. The first one has them
and the branch itself above the conditionals of the other. -/
def Context.Beside (base : Conditionals) (taken : Bool) (depth : Nat) (flat ctx : Context) : Prop :=
  ∃ inner, inner.length = depth ∧ flat = ctx.under (base.nest (inner ++ [taken])) ∧
    ctx.Inside base taken inner

/-- Executes an operation of a branch that is taken, or passes over one of a branch that is not. -/
def Operation.pass (op : Operation) (env : Environment) (script : Script) (taken : Bool)
    (index : Nat) (ctx : Context) : Outcome :=
  if taken then op.step env script index ctx else op.skip ctx

section Branch

variable {base : Conditionals} {taken : Bool} {inner : List Bool} {op : Operation}
  {env : Environment} {script : Script} {index : Nat} {ctx : Context}

theorem Operation.pass_straight (executing : base.allTaken = true)
    (straight : op.instruction.isBranching = false) (h : ctx.Inside base taken inner) :
    Outcome.Mirrors (Context.Beside base taken inner.length)
      (op.step env script index (ctx.under (base.nest (inner ++ [taken]))))
      (op.pass env script taken index ctx) := by
  have opened : (base.nest (inner ++ [taken])).allTaken = (inner.all id && taken) :=
    Conditionals.allTaken_nest_concat executing
  have conditionals := h.conditionals_eq
  cases taken with
  | true =>
    have same : (base.nest (inner ++ [true])).allTaken = ctx.isExecuting := by
      unfold Context.isExecuting
      rw [opened, conditionals, if_pos rfl, Conditionals.allTaken_nest executing, Bool.and_true]
    show Outcome.Mirrors _ _ (op.step env script index ctx)
    rw [step_under straight same]
    refine Outcome.mirrors_under fun succeeds => ⟨inner, rfl, rfl, ?_, ?_, ?_⟩
    · rw [step_conditionals straight]
      exact conditionals
    · exact Nat.le_trans h.counted (op.opCount_le_step index ctx)
    · exact step_shallow.of_ok succeeds
  | false =>
    have skipped : (base.nest (inner ++ [false])).allTaken = false := by
      rw [opened, Bool.and_false]
    show Outcome.Mirrors _ _ (op.skip ctx)
    rw [step_under_of_skipped straight skipped h.shallow]
    obtain ⟨n, more, counted⟩ : ∃ n, ctx.opCount ≤ n ∧
        (op.skip ctx).context = { ctx with opCount := n } := op.skip_context
    refine Outcome.mirrors_under fun _ => ⟨inner, rfl, rfl, ?_⟩
    rw [counted]
    exact ⟨conditionals, Nat.le_trans h.counted more, h.shallow⟩

/-- An operation that branches is counted on both sides; what it does then is compared. -/
theorem Operation.step_mirrors_pass {related : Context → Context → Prop} {c : Conditionals}
    (branching : op.instruction.isBranching = true)
    (h : ∀ n, ctx.opCount < n → n ≤ Limits.opsPerScript →
      Outcome.Mirrors related
        ((op.instruction.run env script index ({ ctx with opCount := n }.under c)).andThen
          Context.checkDepth)
        (if taken then
          (op.instruction.run env script index { ctx with opCount := n }).andThen Context.checkDepth
        else .ok { ctx with opCount := n })) :
    Outcome.Mirrors related (op.step env script index (ctx.under c))
      (op.pass env script taken index ctx) := by
  rw [step_of_isBranching branching]
  unfold pass
  cases taken with
  | true =>
    rw [if_pos rfl, step_of_isBranching branching]
    exact Context.countOps_mirrors fun within => h _ (Nat.lt_succ_self _) within
  | false =>
    rw [if_neg Bool.false_ne_true, skip_of_isBranching branching]
    exact Context.countOps_mirrors fun within => h _ (Nat.lt_succ_self _) within

theorem Context.openIf_of_skipped {negated : Bool} (skipped : ctx.isExecuting = false) :
    ctx.openIf negated = ctx.setConditionals (ctx.conditionals.push false) := by
  unfold openIf
  rw [skipped]
  rfl

theorem Context.openIf_nil {negated : Bool} (executing : ctx.isExecuting = true)
    (stack : ctx.stack = []) : ctx.openIf negated = .fail .unbalancedConditional ctx := by
  unfold openIf
  rw [executing, stack]
  rfl

theorem Context.openIf_cons {negated : Bool} {x : Bytes} {rest : Stack}
    (executing : ctx.isExecuting = true) (stack : ctx.stack = x :: rest) :
    ctx.openIf negated = { ctx with stack := rest }.setConditionals
      (ctx.conditionals.push (SignMagnitude.truthy x != negated)) := by
  unfold openIf
  rw [executing, stack]
  rfl

theorem Context.depth_le_of_pop {x : Bytes} {rest : Stack} {limit : Nat}
    (stack : ctx.stack = x :: rest) (h : ctx.depth ≤ limit) :
    Context.depth { ctx with stack := rest } ≤ limit := by
  have before : (x :: rest).length + ctx.altStack.length ≤ limit := stack ▸ h
  have popped : Context.depth { ctx with stack := rest } = rest.length + ctx.altStack.length := rfl
  rw [List.length_cons] at before
  omega

/-- A change that leaves the branch where it is goes along with the same change without it. -/
theorem Context.setConditionals_mirrors {inner' : List Bool}
    (change : Conditionals → Except ScriptError Conditionals)
    (changes : ∀ outer : List Bool, outer.length ≤ 1 →
      change (base.nest (inner ++ outer)) = .ok (base.nest (inner' ++ outer)))
    (h : ctx.Inside base taken inner) (counted : inner'.length ≤ ctx.opCount) :
    Outcome.Mirrors (Beside base taken inner'.length)
      (((ctx.under (base.nest (inner ++ [taken]))).setConditionals
        (change (base.nest (inner ++ [taken])))).andThen checkDepth)
      (if taken then (ctx.setConditionals (change ctx.conditionals)).andThen checkDepth
        else .ok ctx) := by
  rw [changes [taken] (Nat.le_refl 1)]
  cases taken with
  | false =>
    rw [if_neg Bool.false_ne_true, ← checkDepth_of_le h.shallow]
    exact checkDepth_mirrors h.shallow ⟨inner', rfl, rfl, h.conditionals_eq, counted, h.shallow⟩
  | true =>
    have conditionals : ctx.conditionals = base.nest inner := h.conditionals_eq
    have own : change (base.nest inner) = .ok (base.nest inner') := by
      have whole := changes [] (Nat.zero_le 1)
      rwa [List.append_nil, List.append_nil] at whole
    rw [if_pos rfl, conditionals, own]
    have inside : Inside base true inner' (ctx.under (base.nest inner')) :=
      ⟨rfl, counted, h.shallow⟩
    exact checkDepth_mirrors inside.shallow ⟨inner', rfl, rfl, inside⟩

/-- Both runs open the same conditional, if the branch is taken. -/
theorem Context.openIf_mirrors (negated : Bool) (executing : base.allTaken = true)
    (few : base.branches.length ≤ Limits.opsPerScript) (h : ctx.Inside base taken inner)
    (fewer : inner.length < ctx.opCount) (within : ctx.opCount ≤ Limits.opsPerScript) :
    Outcome.Mirrors (Beside base taken (inner.length + 1))
      (((ctx.under (base.nest (inner ++ [taken]))).openIf negated).andThen checkDepth)
      (if taken then (ctx.openIf negated).andThen checkDepth else .ok ctx) := by
  have flatExecuting : (ctx.under (base.nest (inner ++ [taken]))).isExecuting =
      (inner.all id && taken) := Conditionals.allTaken_nest_concat executing
  have pushes : ∀ (first : Bool) (outer : List Bool), outer.length ≤ 1 →
      (base.nest (inner ++ outer)).push first = .ok (base.nest (first :: inner ++ outer)) := by
    intro first outer short
    refine Conditionals.push_nest ?_
    have limits : Limits.opsPerScript + Limits.opsPerScript < Limits.stackSize := by decide
    rw [List.length_append]
    omega
  cases taken with
  | false =>
    rw [openIf_of_skipped (flatExecuting.trans (Bool.and_false _))]
    exact setConditionals_mirrors (·.push false) (pushes false) h fewer
  | true =>
    have ownExecuting : ctx.isExecuting = inner.all id := by
      unfold isExecuting
      rw [h.conditionals_eq, if_pos rfl, Conditionals.allTaken_nest executing]
    rw [Bool.and_true] at flatExecuting
    cases all : inner.all id with
    | false =>
      rw [openIf_of_skipped (flatExecuting.trans all), openIf_of_skipped (ownExecuting.trans all)]
      exact setConditionals_mirrors (·.push false) (pushes false) h fewer
    | true =>
      cases stack : ctx.stack with
      | nil =>
        rw [openIf_nil (flatExecuting.trans all) stack, openIf_nil (ownExecuting.trans all) stack]
        exact Outcome.mirrors_fail
      | cons x rest =>
        have inside : Inside base true inner { ctx with stack := rest } :=
          ⟨h.conditionals_eq, h.counted, depth_le_of_pop stack h.shallow⟩
        rw [openIf_cons (flatExecuting.trans all) stack, openIf_cons (ownExecuting.trans all) stack]
        exact setConditionals_mirrors (·.push _) (pushes _) inside fewer

/-- One operation of a branch keeps the two runs side by side, and the number of conditionals open
in the branch is the one that the operation leads to. -/
theorem Operation.step_mirrors {depth depth' : Nat} {flat : Context}
    (executing : base.allTaken = true) (few : base.branches.length ≤ Limits.opsPerScript)
    (shifts : op.instruction.Shifts depth depth') (h : flat.Beside base taken depth ctx) :
    Outcome.Mirrors (Context.Beside base taken depth') (op.step env script index flat)
      (op.pass env script taken index ctx) := by
  obtain ⟨inner, length, rfl, inside⟩ := h
  have counted : ∀ n, ctx.opCount < n →
      Context.Inside base taken inner { ctx with opCount := n } ∧ inner.length < n := fun n more =>
    have fewer := Nat.lt_of_le_of_lt inside.counted more
    ⟨⟨inside.conditionals_eq, Nat.le_of_lt fewer, inside.shallow⟩, fewer⟩
  generalize eq : op.instruction = instruction at shifts
  cases shifts with
  | opens negated =>
    subst length
    refine step_mirrors_pass (by rw [eq]; rfl) fun n more within => ?_
    obtain ⟨inside, fewer⟩ := counted n more
    rw [eq]
    exact Context.openIf_mirrors negated executing few inside fewer within
  | turns depth =>
    obtain ⟨first, inner, rfl⟩ := List.exists_cons_of_length_eq_add_one length
    cases length
    refine step_mirrors_pass (by rw [eq]; rfl) fun n more within => ?_
    obtain ⟨inside, fewer⟩ := counted n more
    rw [eq]
    have turned : ∀ outer : List Bool, outer.length ≤ 1 →
        (base.nest (first :: inner ++ outer)).toggle =
          .ok (base.nest ((!first) :: inner ++ outer)) :=
      fun _ _ => Conditionals.toggle_nest
    exact Context.setConditionals_mirrors Conditionals.toggle turned inside (Nat.le_of_lt fewer)
  | closes =>
    obtain ⟨first, inner, rfl⟩ := List.exists_cons_of_length_eq_add_one length
    cases length
    refine step_mirrors_pass (by rw [eq]; rfl) fun n more within => ?_
    obtain ⟨inside, fewer⟩ := counted n more
    rw [eq]
    exact Context.setConditionals_mirrors Conditionals.pop
      (fun _ _ => Conditionals.pop_nest) inside (Nat.le_of_lt (Nat.lt_of_succ_lt fewer))
  | straight _ straight =>
    subst length eq
    exact pass_straight executing straight inside

end Branch

namespace Script

/-- Executes the operations of a branch that is taken, or passes over those of one that is not. -/
def passAll (script : Script) (env : Environment) (taken : Bool) (index : Nat)
    (ops : List Operation) (ctx : Context) : Outcome :=
  if taken then script.runFrom env index ops ctx else skipAll ops ctx

variable {base : Conditionals} {taken : Bool} {script : Script} {env : Environment}

theorem passAll_cons (index : Nat) (op : Operation) (ops : List Operation) (ctx : Context) :
    script.passAll env taken index (op :: ops) ctx =
      (op.pass env script taken index ctx).andThen (script.passAll env taken (index + 1) ops) := by
  cases taken <;> rfl

theorem passAll_nil (index : Nat) (ctx : Context) :
    script.passAll env taken index [] ctx = .ok ctx := by
  cases taken <;> rfl

/-- Operations whose conditionals are matched keep the runs side by side from the first to the last,
and close what they open. -/
theorem runFrom_mirrors (executing : base.allTaken = true)
    (few : base.branches.length ≤ Limits.opsPerScript) {ops : List Operation} {depth index : Nat}
    {flat ctx : Context} (nested : isNestedFrom depth ops = true)
    (h : flat.Beside base taken depth ctx) :
    Outcome.Mirrors (Context.Beside base taken 0) (script.runFrom env index ops flat)
      (script.passAll env taken index ops ctx) := by
  -- along the operations; the number of open conditionals carries the induction
  induction ops generalizing depth index flat ctx with
  | nil =>
    have closed : depth = 0 := eq_of_beq nested
    subst closed
    obtain ⟨inner, length, rfl, inside⟩ := h
    rw [passAll_nil]
    exact Outcome.mirrors_ok ⟨inner, length, rfl, inside⟩
  | cons op ops ih =>
    obtain ⟨depth', shifts, nested⟩ := isNestedFrom_cons nested
    rw [passAll_cons]
    exact (op.step_mirrors executing few shifts h).andThen fun a b next => ih nested next

end Script
end SpendScript
