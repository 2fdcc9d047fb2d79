import SpendScript.Machine.Run
import SpendScript.Proofs.OpcodeTable

/-!
# What outcomes meet

A claim about a run speaks of the context it reaches, after a success and after a failure alike,
because nothing is rolled back. An outcome meets a pair of conditions, one for each way to end.
The rules below take such a pair through every way in which outcomes are put together, and an
invariant of single steps through a run of any length.
-/
set_option autoImplicit false

namespace SpendScript

namespace Outcome

theorem andThen_of_ok {o : Outcome} (next : Context → Outcome) (succeeds : o.result = .ok ()) :
    o.andThen next = (next o.context).asked o.queries := by
  unfold andThen
  rw [succeeds]

theorem andThen_of_error {o : Outcome} {error : ScriptError} (next : Context → Outcome)
    (fails : o.result = .error error) : o.andThen next = o := by
  unfold andThen
  rw [fails]

theorem andThen_ok (o : Outcome) : o.andThen .ok = o := by
  rcases o with ⟨_ | _, ctx, queries⟩
  · rfl
  · show Outcome.mk _ ctx (queries ++ []) = _
    rw [List.append_nil]
    rfl

theorem andThen_context_of_forall {o : Outcome} {next : Context → Outcome}
    (h : ∀ ctx, (next ctx).context = ctx) : (o.andThen next).context = o.context := by
  rcases o with ⟨_ | _, ctx, queries⟩
  · rfl
  · exact h ctx

/-- After a success the context meets `good`, after a failure it meets `bad` with the reason. -/
def Meets (o : Outcome) (good : Context → Prop) (bad : ScriptError → Context → Prop) : Prop :=
  match o.result with
  | .ok () => good o.context
  | .error error => bad error o.context

variable {o : Outcome} {good good' : Context → Prop} {bad : ScriptError → Context → Prop}

@[simp] theorem meets_asked {queries : List SignatureQuery} :
    (o.asked queries).Meets good bad ↔ o.Meets good bad := Iff.rfl

theorem Meets.of_ok (h : o.Meets good bad) (succeeds : o.result = .ok ()) : good o.context := by
  unfold Meets at h
  rwa [succeeds] at h

theorem Meets.of_error (h : o.Meets good bad) {error : ScriptError}
    (fails : o.result = .error error) : bad error o.context := by
  unfold Meets at h
  rwa [fails] at h

theorem Meets.imp {bad' : ScriptError → Context → Prop} (h : o.Meets good bad)
    (hgood : ∀ ctx, good ctx → good' ctx) (hbad : ∀ error ctx, bad error ctx → bad' error ctx) :
    o.Meets good' bad' := by
  rcases o with ⟨_ | _, ctx, queries⟩
  · exact hbad _ ctx h
  · exact hgood ctx h

theorem Meets.andThen {next : Context → Outcome} (h : o.Meets good bad)
    (hnext : ∀ ctx, good ctx → (next ctx).Meets good' bad) : (o.andThen next).Meets good' bad := by
  rcases o with ⟨_ | _, ctx, queries⟩
  · exact h
  · exact hnext ctx h

theorem meets_andThen_of_ok {next : Context → Outcome} (succeeds : o.result = .ok ())
    (h : (next o.context).Meets good bad) : (o.andThen next).Meets good bad := by
  rw [andThen_of_ok next succeeds]
  exact h

/-- What holds however an outcome ends holds in particular after a success. -/
theorem meets_of_context (h : good o.context) : o.Meets good fun _ _ => True := by
  unfold Meets
  split
  · exact h
  · trivial

/-- What is said of both ways to end is said of the context alone. -/
theorem meets_always_iff : (o.Meets good fun _ => good) ↔ good o.context := by
  rcases o with ⟨_ | _, ctx, queries⟩
  · exact Iff.rfl
  · exact Iff.rfl

theorem meets_ofStack {ctx : Context} {r : Except ScriptError Stack}
    (hgood : ∀ stack, r = .ok stack → good { ctx with stack := stack })
    (hbad : ∀ error, r = .error error → bad error ctx) : (ofStack ctx r).Meets good bad := by
  cases r with
  | ok stack => exact hgood stack rfl
  | error error => exact hbad error rfl

theorem meets_conclude {ctx : Context} {demand success : Bool} {error : ScriptError}
    (hgood : good ctx) (hpush : good (ctx.push (Stack.ofBool success))) (hbad : bad error ctx) :
    (conclude ctx demand error success).Meets good bad := by
  unfold conclude
  split
  · split
    · exact hgood
    · exact hbad
  · exact hpush

/-- A verdict fails only where it is demanded. -/
theorem meets_conclude_of_demand {ctx : Context} {demand success : Bool} {error : ScriptError}
    (h : demand = true → bad error ctx) :
    (conclude ctx demand error success).Meets (fun _ => True) bad := by
  cases demand
  · trivial
  · exact meets_conclude trivial trivial (h rfl)

end Outcome

theorem Context.countOps_of_le {ctx : Context} {n : Nat}
    (h : ctx.opCount + n ≤ Limits.opsPerScript) :
    ctx.countOps n = .ok { ctx with opCount := ctx.opCount + n } :=
  if_neg (Nat.not_lt.2 h)

theorem Context.countOps_of_lt {ctx : Context} {n : Nat}
    (h : Limits.opsPerScript < ctx.opCount + n) :
    ctx.countOps n = .fail .opCount { ctx with opCount := ctx.opCount + n } :=
  if_pos h

theorem Context.depth_push (ctx : Context) (x : Bytes) : (ctx.push x).depth = ctx.depth + 1 := by
  show ctx.stack.length + 1 + ctx.altStack.length = ctx.stack.length + ctx.altStack.length + 1
  omega

theorem Context.checkDepth_of_le {ctx : Context} (h : ctx.depth ≤ Limits.stackSize) :
    ctx.checkDepth = .ok ctx :=
  if_neg (Nat.not_lt.2 h)

theorem Context.checkDepth_of_lt {ctx : Context} (h : Limits.stackSize < ctx.depth) :
    ctx.checkDepth = .fail .stackSize ctx :=
  if_pos h

theorem Outcome.andThen_checkDepth_of_le {o : Outcome} (h : o.context.depth ≤ Limits.stackSize) :
    o.andThen Context.checkDepth = o := by
  cases result : o.result with
  | error error => exact andThen_of_error _ result
  | ok =>
    have same : o.andThen Context.checkDepth = o.andThen .ok := by
      rw [andThen_of_ok _ result, andThen_of_ok _ result, Context.checkDepth_of_le h]
    rw [same, andThen_ok]

/-- Counting changes the count and nothing else, so what comes after it may assume as much. -/
theorem Operation.count_andThen_congr {op : Operation} {ctx : Context}
    {next next' : Context → Outcome}
    (h : ∀ n, next { ctx with opCount := n } = next' { ctx with opCount := n }) :
    (op.count ctx).andThen next = (op.count ctx).andThen next' := by
  unfold count Context.countOps
  dsimp only
  split
  · split
    · rfl
    · exact h _
  · exact h ctx.opCount

/-- An operation that is no push, where it is executed. -/
theorem Operation.run_code_of_executing {opcode : UInt8} {env : Environment} {script : Script}
    {index : Nat} {ctx : Context} (executing : ctx.isExecuting = true)
    (enabled : Instruction.ofOpcode opcode ≠ .disabled) :
    (Operation.code opcode).run env script index ctx = ((Operation.code opcode).count ctx).andThen
      ((Instruction.ofOpcode opcode).run env script index) := by
  unfold Operation.run
  dsimp only
  refine Operation.count_andThen_congr fun n => ?_
  have executing' : Context.isExecuting { ctx with opCount := n } = true := executing
  rw [if_neg enabled, executing', Bool.true_or, if_pos rfl]

/-- An operation that counts, where it is executed and may still be counted. -/
theorem Operation.run_code_of_counted {opcode : UInt8} {instruction : Instruction}
    {env : Environment} {script : Script} {index : Nat} {ctx : Context}
    (meaning : Instruction.ofOpcode opcode = instruction) (counted : instruction.isCounted = true)
    (enabled : instruction ≠ .disabled) (executing : ctx.isExecuting = true)
    (within : ctx.opCount + 1 ≤ Limits.opsPerScript) :
    (Operation.code opcode).run env script index ctx =
      instruction.run env script index { ctx with opCount := ctx.opCount + 1 } := by
  subst meaning
  have counts := Instruction.countsTowardLimit_of_isCounted counted
  rw [run_code_of_executing executing enabled, count, if_pos counts, Context.countOps_of_le within,
    Outcome.ok_andThen]

variable {good : Context → Prop} {bad : ScriptError → Context → Prop}

theorem Context.meets_setConditionals {ctx : Context} {r : Except ScriptError Conditionals}
    (hgood : ∀ conditionals, r = .ok conditionals → good { ctx with conditionals := conditionals })
    (hbad : ∀ error, r = .error error → bad error ctx) :
    (ctx.setConditionals r).Meets good bad := by
  cases r with
  | ok conditionals => exact hgood conditionals rfl
  | error error => exact hbad error rfl

theorem Script.runFrom_singleton {script : Script} {env : Environment} {index : Nat}
    {op : Operation} : script.runFrom env index [op] = op.step env script index :=
  funext fun _ => Outcome.andThen_ok _

/-- What every step keeps, a run keeps. -/
theorem Script.runFrom_meets {script : Script} {env : Environment}
    (hstep : ∀ (op : Operation) (index : Nat) (ctx : Context), good ctx →
      (op.step env script index ctx).Meets good bad)
    (index : Nat) (ops : List Operation) {ctx : Context} (h : good ctx) :
    (script.runFrom env index ops ctx).Meets good bad := by
  induction ops generalizing index ctx with
  | nil => exact h
  | cons op ops ih => exact (hstep op index ctx h).andThen fun ctx h => ih (index + 1) h

theorem Script.execute_meets {script : Script} {env : Environment}
    (hstep : ∀ (op : Operation) (index : Nat) (ctx : Context), good ctx →
      (op.step env script index ctx).Meets good bad)
    (hopen : ∀ ctx, good ctx → bad .unbalancedConditional ctx) {ctx : Context} (h : good ctx) :
    (script.execute env ctx).Meets good bad := by
  refine (script.runFrom_meets hstep 0 script h).andThen fun ctx h => ?_
  unfold Context.checkClosed
  split
  · exact h
  · exact hopen ctx h

end SpendScript
