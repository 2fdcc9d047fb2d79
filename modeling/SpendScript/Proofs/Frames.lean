import SpendScript.Proofs.Outcomes
import SpendScript.Script.Nesting

/-!
# What operations leave alone

Most instructions work on the two stacks: they neither look at the rest of the context nor change
it, and they ask nothing. Their outcome on given stacks is therefore the same in every context. Of
the others only the three that open, turn and close a branch see the open conditionals; whether an
operation is executed at all depends on no more than whether every open branch is taken.
-/
set_option autoImplicit false

namespace SpendScript

namespace Instruction

/-- Whether the instruction opens, turns or closes a branch. -/
def isBranching : Instruction → Bool
  | .openIf _ | .otherwise | .endIf => true
  | _ => false

/-- Whether the instruction puts signatures to the checker. -/
def asks : Instruction → Bool
  | .checkSig _ | .checkMultiSig _ => true
  | _ => false

/-- Whether the instruction works on the stacks alone. -/
def isStackOnly (instruction : Instruction) : Bool :=
  !instruction.isBranching && !instruction.asks && instruction != .codeSeparator

end Instruction

/-- The stacks of a context in another one. -/
def Context.onto (ctx frame : Context) : Context :=
  { frame with stack := ctx.stack, altStack := ctx.altStack }

def Outcome.onto (o : Outcome) (frame : Context) : Outcome :=
  { o with context := o.context.onto frame }

theorem Outcome.conclude_onto (ctx frame : Context) (demand : Bool) (error : ScriptError)
    (success : Bool) :
    conclude (ctx.onto frame) demand error success =
      (conclude ctx demand error success).onto frame := by
  unfold conclude
  cases demand
  · rfl
  · cases success <;> rfl

theorem Outcome.ofStack_onto (ctx frame : Context) (r : Except ScriptError Stack) :
    ofStack (ctx.onto frame) r = (ofStack ctx r).onto frame := by
  cases r <;> rfl

theorem Context.pickOrRoll_onto (ctx frame : Context) (flags : Flags) (move : Bool) :
    (ctx.onto frame).pickOrRoll flags move = (ctx.pickOrRoll flags move).onto frame := by
  unfold pickOrRoll onto
  dsimp only
  split
  · next x y rest _ =>
    split
    · split
      · exact Outcome.ofStack_onto { ctx with stack := y :: rest } frame _
      · rfl
    · rfl
  · rfl

namespace Instruction

variable {instruction : Instruction} {env : Environment} {script script' : Script}
  {index index' : Nat}

theorem run_onto (stackOnly : instruction.isStackOnly = true) (ctx frame : Context) :
    instruction.run env script' index' (ctx.onto frame) =
      (instruction.run env script index ctx).onto frame := by
  cases instruction with
  | openIf negated => cases stackOnly
  | otherwise => cases stackOnly
  | endIf => cases stackOnly
  | codeSeparator => cases stackOnly
  | checkSig demand => cases stackOnly
  | checkMultiSig demand => cases stackOnly
  | upgradableNop =>
    unfold run
    dsimp only
    split <;> rfl
  | verify =>
    unfold run Context.onto
    dsimp only
    split
    · split <;> rfl
    · rfl
  | toAltStack =>
    unfold run Context.onto
    dsimp only
    split <;> rfl
  | fromAltStack =>
    unfold run Context.onto
    dsimp only
    split <;> rfl
  | shuffle op => exact Outcome.ofStack_onto ctx frame _
  | pick => exact ctx.pickOrRoll_onto frame _ _
  | roll => exact ctx.pickOrRoll_onto frame _ _
  | size =>
    unfold run Context.onto
    dsimp only
    split <;> rfl
  | equal demand =>
    unfold run Context.onto
    dsimp only
    split
    · next y x rest _ => exact Outcome.conclude_onto { ctx with stack := rest } frame demand _ _
    · rfl
  | unary op => exact Outcome.ofStack_onto ctx frame _
  | binary op => exact Outcome.ofStack_onto ctx frame _
  | numEqualVerify =>
    unfold run Context.onto
    dsimp only
    split
    · next a b rest _ => exact Outcome.conclude_onto { ctx with stack := rest } frame true _ _
    · rfl
  | within => exact Outcome.ofStack_onto ctx frame _
  | hash h =>
    unfold run Context.onto
    dsimp only
    split <;> rfl
  | _ => rfl

/-- Instructions that work on the stacks alone leave the rest of the context as it was. -/
theorem run_eq_onto (stackOnly : instruction.isStackOnly = true) (ctx : Context) :
    instruction.run env script index ctx = (instruction.run env script index ctx).onto ctx :=
  run_onto stackOnly ctx ctx

end Instruction

/-- The count of operations and the place where the signed code starts. -/
def Context.counters (ctx : Context) : Nat × Nat :=
  (ctx.opCount, ctx.codeStart)

theorem Context.opCount_eq_of_counters {a b : Context} (h : a.counters = b.counters) :
    a.opCount = b.opCount :=
  congrArg Prod.fst h

theorem Context.codeStart_eq_of_counters {a b : Context} (h : a.counters = b.counters) :
    a.codeStart = b.codeStart :=
  congrArg Prod.snd h

section Counters

variable {env : Environment} {script : Script} {index : Nat} {ctx : Context}

@[simp] theorem Outcome.conclude_counters (demand : Bool) (error : ScriptError) (success : Bool) :
    (conclude ctx demand error success).context.counters = ctx.counters := by
  unfold conclude
  cases demand
  · rfl
  · cases success <;> rfl

@[simp] theorem Context.setConditionals_counters (r : Except ScriptError Conditionals) :
    (ctx.setConditionals r).context.counters = ctx.counters := by
  cases r <;> rfl

theorem Context.openIf_counters (negated : Bool) :
    (ctx.openIf negated).context.counters = ctx.counters := by
  unfold openIf
  split
  · split
    · exact setConditionals_counters _
    · rfl
  · exact setConditionals_counters _

theorem Context.pushData_counters (flags : Flags) (form : PushForm) (data : Bytes) :
    (ctx.pushData flags form data).context.counters = ctx.counters := by
  unfold pushData
  split
  · rfl
  · split
    · rfl
    · split <;> rfl

theorem MultiSig.judge_counters (demand : Bool) (args : Arguments) :
    (judge env script demand ctx args).context.counters = ctx.counters := by
  unfold judge finish
  dsimp only
  split
  · split
    · rfl
    · exact Outcome.conclude_counters _ _ _
  · rfl

/-- Only checks count more than themselves, and only a separator moves the start of the code. -/
theorem Instruction.run_counters {instruction : Instruction} (silent : instruction.asks = false)
    (moves : instruction ≠ .codeSeparator) :
    (instruction.run env script index ctx).context.counters = ctx.counters := by
  by_cases stackOnly : instruction.isStackOnly = true
  · rw [run_eq_onto stackOnly]
    rfl
  · cases instruction with
    | openIf negated => exact Context.openIf_counters negated
    | otherwise => exact Context.setConditionals_counters _
    | endIf => exact Context.setConditionals_counters _
    | codeSeparator => exact absurd rfl moves
    | checkSig demand => cases silent
    | checkMultiSig demand => cases silent
    | _ => exact absurd rfl stackOnly

end Counters

/-- The context under other open conditionals. -/
def Context.under (ctx : Context) (c : Conditionals) : Context :=
  { ctx with conditionals := c }

def Outcome.under (o : Outcome) (c : Conditionals) : Outcome :=
  { o with context := o.context.under c }

section Under

variable {c : Conditionals} {env : Environment} {script : Script} {index : Nat}

theorem Outcome.conclude_under (ctx : Context) (demand : Bool) (error : ScriptError)
    (success : Bool) :
    conclude (ctx.under c) demand error success = (conclude ctx demand error success).under c := by
  unfold conclude
  cases demand
  · rfl
  · cases success <;> rfl

theorem Outcome.andThen_under {o : Outcome} {next next' : Context → Outcome}
    (h : ∀ ctx, next' (ctx.under c) = (next ctx).under c) :
    (o.under c).andThen next' = (o.andThen next).under c := by
  rcases o with ⟨_ | _, ctx, queries⟩
  · rfl
  · exact congrArg (asked queries) (h ctx)

theorem Context.countOps_under (ctx : Context) (n : Nat) :
    (ctx.under c).countOps n = (ctx.countOps n).under c := by
  unfold countOps under
  dsimp only
  split <;> rfl

theorem Context.checkDepth_under (ctx : Context) :
    (ctx.under c).checkDepth = ctx.checkDepth.under c := by
  have depth : (ctx.under c).depth = ctx.depth := rfl
  unfold checkDepth
  rw [depth]
  split <;> rfl

theorem Context.checkSig_under (ctx : Context) (demand : Bool) :
    (ctx.under c).checkSig env script demand = (ctx.checkSig env script demand).under c := by
  unfold checkSig under
  dsimp only
  split
  · next key signature rest _ =>
    split
    · exact congrArg (Outcome.asked _) (Outcome.conclude_under { ctx with stack := rest } _ _ _)
    · rfl
  · rfl

theorem MultiSig.judge_under (ctx : Context) (demand : Bool) (args : Arguments) :
    judge env script demand (ctx.under c) args = (judge env script demand ctx args).under c := by
  unfold judge finish Context.under
  dsimp only
  split
  · split
    · rfl
    · exact congrArg (Outcome.asked _)
        (Outcome.conclude_under { ctx with stack := args.rest } _ _ _)
  · rfl

theorem Context.checkMultiSig_under (ctx : Context) (demand : Bool) :
    (ctx.under c).checkMultiSig env script demand =
      (ctx.checkMultiSig env script demand).under c := by
  have stack : (ctx.under c).stack = ctx.stack := rfl
  unfold checkMultiSig
  rw [stack]
  split
  · rw [countOps_under]
    refine Outcome.andThen_under fun ctx => ?_
    have stack : (ctx.under c).stack = ctx.stack := rfl
    rw [stack]
    split
    · exact MultiSig.judge_under ctx demand _
    · rfl
  · rfl

/-- Only the branching instructions look at the open conditionals, and only they change them. -/
theorem Instruction.run_under {instruction : Instruction}
    (straight : instruction.isBranching = false) (ctx : Context) :
    instruction.run env script index (ctx.under c) =
      (instruction.run env script index ctx).under c := by
  by_cases stackOnly : instruction.isStackOnly = true
  · calc
      instruction.run env script index (ctx.under c)
        = (instruction.run env script index ctx).onto (ctx.under c) :=
          run_onto stackOnly ctx (ctx.under c)
      _ = ((instruction.run env script index ctx).onto ctx).under c := rfl
      _ = (instruction.run env script index ctx).under c := by rw [← run_eq_onto stackOnly]
  · cases instruction with
    | codeSeparator => rfl
    | checkSig demand => exact ctx.checkSig_under demand
    | checkMultiSig demand => exact ctx.checkMultiSig_under demand
    | openIf negated => cases straight
    | otherwise => cases straight
    | endIf => cases straight
    | _ => exact absurd rfl stackOnly

theorem Context.pushData_under {ctx : Context} (same : c.allTaken = ctx.isExecuting)
    (flags : Flags) (form : PushForm) (data : Bytes) :
    (ctx.under c).pushData flags form data = (ctx.pushData flags form data).under c := by
  have executing : (ctx.under c).isExecuting = ctx.isExecuting := same
  unfold pushData
  rw [executing]
  split
  · rfl
  · split
    · rfl
    · split <;> rfl

theorem Operation.count_andThen_under {op : Operation} {ctx : Context}
    {next next' : Context → Outcome}
    (h : ∀ n,
      next' ({ ctx with opCount := n }.under c) = (next { ctx with opCount := n }).under c) :
    (op.count (ctx.under c)).andThen next' = ((op.count ctx).andThen next).under c := by
  unfold count Context.countOps Context.under
  dsimp only
  split
  · split
    · rfl
    · exact h (ctx.opCount + 1)
  · exact h ctx.opCount

/-- Apart from branching, an operation does the same under all conditionals that agree on whether it
is executed. -/
theorem Operation.step_under {op : Operation} (straight : op.instruction.isBranching = false)
    {ctx : Context} (same : c.allTaken = ctx.isExecuting) :
    op.step env script index (ctx.under c) = (op.step env script index ctx).under c := by
  have ran : op.run env script index (ctx.under c) = (op.run env script index ctx).under c := by
    cases op with
    | push form data => exact Context.pushData_under same _ form data
    | code opcode =>
      unfold run
      dsimp only
      refine count_andThen_under fun n => ?_
      have executing : Context.isExecuting ({ ctx with opCount := n }.under c) =
          Context.isExecuting { ctx with opCount := n } := same
      rw [executing]
      split
      · rfl
      · split
        · exact Instruction.run_under straight _
        · rfl
  unfold step
  rw [ran]
  exact Outcome.andThen_under Context.checkDepth_under

end Under
end SpendScript
