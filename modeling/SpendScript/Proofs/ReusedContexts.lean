import SpendScript.Proofs.AcceptedScripts
import SpendScript.Proofs.QuestionLimits

/-!
# Contexts that are used again

Nothing is rolled back when a run fails, so a context may be handed to further runs with its
conditionals still open and its count where it was. The counter of skipped branches stays right
all the same, and as every conditional was counted before it was opened, there can be no more of
them than operations are ever counted without a failure. That is far below the number at which no
further one could be opened.
-/
set_option autoImplicit false

namespace SpendScript

/-- A script to be run, and what it is run with. -/
structure Call where
  env : Environment
  script : Script

namespace Conditionals

variable {c d : Conditionals} {taken : Bool}

/-- The counter says how many of the open branches are skipped. -/
def Counted (c : Conditionals) : Prop :=
  c.skipped = c.branches.count false

/-- A change of the conditionals keeps the counter right and opens one of them at most. -/
structure Follows (c d : Conditionals) : Prop where
  counted : d.Counted
  grown : d.branches.length ≤ c.branches.length + 1

theorem Counted.push (h : c.Counted) (pushed : c.push taken = .ok d) : c.Follows d := by
  have count : c.skipped = c.branches.count false := h
  unfold Conditionals.push at pushed
  split at pushed
  · cases pushed
  · cases pushed
    refine ⟨?_, Nat.le_refl _⟩
    cases taken <;> simp [Counted, count]

theorem Counted.toggle (h : c.Counted) (turned : c.toggle = .ok d) : c.Follows d := by
  have count : c.skipped = c.branches.count false := h
  unfold Conditionals.toggle at turned
  split at turned
  · cases turned
  · next branch rest branches =>
    cases turned
    rw [branches] at count
    refine ⟨?_, by simp [branches]⟩
    cases branch <;> simp [Counted, count]

theorem Counted.pop (h : c.Counted) (closed : c.pop = .ok d) : c.Follows d := by
  have count : c.skipped = c.branches.count false := h
  unfold Conditionals.pop at closed
  split at closed
  · cases closed
  · next branch rest branches =>
    cases closed
    rw [branches] at count
    refine ⟨?_, by simp only [branches, List.length_cons]; omega⟩
    cases branch <;> simp [Counted, count]

/-- The counter answers whether all branches are taken. -/
theorem Counted.allTaken_iff (h : c.Counted) :
    c.allTaken = true ↔ ∀ taken ∈ c.branches, taken = true := by
  have count : c.skipped = c.branches.count false := h
  rw [allTaken, beq_iff_eq, count, List.count_eq_zero]
  constructor
  · intro none taken present
    cases taken with
    | true => rfl
    | false => exact absurd present none
  · intro all present
    exact absurd (all false present) Bool.false_ne_true

/-- Where the innermost branch is skipped there is something to take from the counter. -/
theorem Counted.skipped_pos (h : c.Counted) {rest : List Bool} (top : c.branches = false :: rest) :
    0 < c.skipped := by
  have count : c.skipped = c.branches.count false := h
  rw [count, top, List.count_cons_self]
  omega

theorem push_ne_stackSize (few : c.branches.length ≤ Limits.opsPerScript) :
    c.push taken ≠ .error .stackSize := by
  have limits : Limits.opsPerScript < Limits.stackSize := by decide
  intro full
  rw [push, if_neg (by omega)] at full
  cases full

end Conditionals

namespace Context

variable {ctx : Context} {env : Environment} {script : Script}

/-- The context after some runs, each of them in the context that the one before left, be it after
a success or after a failure. -/
def afterCalls (ctx : Context) (calls : List Call) : Context :=
  calls.foldl (fun ctx call => (call.script.execute call.env ctx).context) ctx

/-- The context within a further run: the given number of operations were done, or one failed. -/
def during (ctx : Context) (call : Call) (done : Nat) : Context :=
  (call.script.runFrom call.env 0 (call.script.take done) ctx).context

/-- The open conditionals are counted right, and each of them was paid for by an operation. -/
structure Balanced (ctx : Context) : Prop where
  counted : ctx.conditionals.Counted
  paid : ctx.conditionals.branches.length ≤ ctx.opCount
  few : ctx.conditionals.branches.length ≤ Limits.opsPerScript

/-- A balanced context in which one more operation was counted, within the limit. -/
structure Prepaid (ctx : Context) : Prop where
  counted : ctx.conditionals.Counted
  paid : ctx.conditionals.branches.length < ctx.opCount
  limited : ctx.opCount ≤ Limits.opsPerScript

theorem result_of_setConditionals {r : Except ScriptError Conditionals} {error : ScriptError}
    (fails : (ctx.setConditionals r).result = .error error) : r = .error error := by
  cases r with
  | error own =>
    cases fails
    rfl
  | ok c => cases fails

/-- Opening a conditional either lacks its condition, or may take it from the stack and then only
pushes a branch. -/
theorem openIf_cases (ctx : Context) (negated : Bool) :
    ctx.openIf negated = .fail .unbalancedConditional ctx ∨
      ∃ stack taken, ctx.openIf negated =
        { ctx with stack := stack }.setConditionals (ctx.conditionals.push taken) := by
  cases executing : ctx.isExecuting with
  | false => exact Or.inr ⟨ctx.stack, false, openIf_of_skipped executing⟩
  | true =>
    cases stack : ctx.stack with
    | nil => exact Or.inl (openIf_nil executing stack)
    | cons x rest => exact Or.inr ⟨rest, _, openIf_cons executing stack⟩

theorem openIf_ne_stackSize (few : ctx.conditionals.branches.length ≤ Limits.opsPerScript)
    (negated : Bool) : (ctx.openIf negated).result ≠ .error .stackSize := by
  intro fails
  rcases ctx.openIf_cases negated with refused | ⟨stack, taken, pushes⟩
  · rw [refused] at fails
    cases fails
  · rw [pushes] at fails
    exact Conditionals.push_ne_stackSize few (result_of_setConditionals fails)

/-- The count may grow as it likes. -/
theorem Balanced.countMore (h : ctx.Balanced) (n : Nat) :
    Balanced { ctx with opCount := ctx.opCount + n } :=
  ⟨h.counted, Nat.le_add_right_of_le h.paid, h.few⟩

/-- Before the check of the depth that ends its step, an operation that opens a conditional does not
fail for want of room. -/
theorem Balanced.opens (h : ctx.Balanced) {op : Operation} {index : Nat} {negated : Bool}
    (opens : op.instruction = .openIf negated) :
    (op.run env script index ctx).result ≠ .error .stackSize := by
  have branching : op.instruction.isBranching = true := by rw [opens]; rfl
  rw [Operation.run_of_isBranching branching, opens]
  rcases Nat.lt_or_ge Limits.opsPerScript (ctx.opCount + 1) with exceeded | within
  · rw [countOps_of_lt exceeded, Outcome.fail_andThen]
    intro fails
    cases fails
  · rw [countOps_of_le within, Outcome.ok_andThen]
    exact openIf_ne_stackSize (h.countMore 1).few negated

theorem balanced_start (stack : Stack) : (start stack).Balanced :=
  ⟨rfl, Nat.zero_le _, Nat.zero_le _⟩

theorem Prepaid.balanced (h : ctx.Prepaid) : ctx.Balanced :=
  ⟨h.counted, Nat.le_of_lt h.paid, Nat.le_of_lt (Nat.lt_of_lt_of_le h.paid h.limited)⟩

theorem Prepaid.setConditionals {r : Except ScriptError Conditionals} (h : ctx.Prepaid)
    (changed : ∀ c, r = .ok c → ctx.conditionals.Follows c) :
    (ctx.setConditionals r).context.Balanced := by
  cases r with
  | error error => exact h.balanced
  | ok c =>
    obtain ⟨counted, grown⟩ := changed c rfl
    have paid := h.paid
    have limited := h.limited
    refine ⟨counted, ?_, ?_⟩
    · show c.branches.length ≤ ctx.opCount
      omega
    · show c.branches.length ≤ Limits.opsPerScript
      omega

theorem Prepaid.openIf (h : ctx.Prepaid) (negated : Bool) :
    (ctx.openIf negated).context.Balanced := by
  rcases ctx.openIf_cases negated with refused | ⟨stack, taken, pushes⟩
  · rw [refused]
    exact h.balanced
  · rw [pushes]
    have popped : Prepaid { ctx with stack := stack } := ⟨h.counted, h.paid, h.limited⟩
    exact popped.setConditionals fun c pushed => h.counted.push pushed

/-- An instruction that opens, turns or closes a branch, once it is counted. -/
theorem Prepaid.run {instruction : Instruction} {index : Nat} (h : ctx.Prepaid)
    (branching : instruction.isBranching = true) :
    (instruction.run env script index ctx).context.Balanced := by
  cases instruction with
  | openIf negated => exact h.openIf negated
  | otherwise => exact h.setConditionals fun c turned => h.counted.toggle turned
  | endIf => exact h.setConditionals fun c closed => h.counted.pop closed
  | _ => cases branching

/-- Every step keeps a context balanced, whether it succeeds or fails. -/
theorem Balanced.step (h : ctx.Balanced) (op : Operation) (index : Nat) :
    (op.step env script index ctx).context.Balanced := by
  cases branching : op.instruction.isBranching with
  | false =>
    have same : (op.step env script index ctx).context.conditionals = ctx.conditionals :=
      Operation.step_conditionals branching
    refine ⟨same ▸ h.counted, ?_, same ▸ h.few⟩
    rw [same]
    exact Nat.le_trans h.paid (op.opCount_le_step index ctx)
  | true =>
    rw [Operation.step_of_isBranching branching]
    rcases Nat.lt_or_ge Limits.opsPerScript (ctx.opCount + 1) with exceeded | within
    · rw [countOps_of_lt exceeded, Outcome.fail_andThen]
      exact h.countMore 1
    · rw [countOps_of_le within, Outcome.ok_andThen,
        Outcome.andThen_context_of_forall checkDepth_context]
      have prepaid : Prepaid { ctx with opCount := ctx.opCount + 1 } :=
        ⟨h.counted, Nat.lt_succ_of_le h.paid, within⟩
      exact prepaid.run branching

theorem Balanced.runFrom (h : ctx.Balanced) (index : Nat) (ops : List Operation) :
    (script.runFrom env index ops ctx).context.Balanced := by
  refine Outcome.meets_always_iff.1 (Script.runFrom_meets ?_ index ops h)
  intro op index ctx before
  exact Outcome.meets_always_iff.2 (before.step op index)

theorem Balanced.execute (h : ctx.Balanced) : (script.execute env ctx).context.Balanced := by
  unfold Script.execute
  rw [Outcome.andThen_context_of_forall checkClosed_context]
  exact h.runFrom 0 script

/-- Any number of runs in one context keep it balanced. -/
theorem Balanced.afterCalls (h : ctx.Balanced) (calls : List Call) :
    (ctx.afterCalls calls).Balanced := by
  induction calls generalizing ctx with
  | nil => exact h
  | cons call calls ih => exact ih h.execute

/-- However often a context is used, before, within and after every run the counter says how many
of the open branches are skipped, and so it is never taken below zero and tells whether operations
are executed; there are no more open conditionals than operations were counted, nor more than may be
counted; and no conditional is ever refused because too many are open. -/
theorem conditionals_of_reused_context (stack : Stack) (calls : List Call) (call : Call)
    (done : Nat) :
    let ctx := ((start stack).afterCalls calls).during call done
    let branches := ctx.conditionals.branches
    ctx.conditionals.skipped = branches.count false ∧
      (∀ rest, branches = false :: rest → 0 < ctx.conditionals.skipped) ∧
      (ctx.isExecuting = true ↔ ∀ taken ∈ branches, taken = true) ∧
      branches.length ≤ ctx.opCount ∧ branches.length ≤ Limits.opsPerScript ∧
      (∀ taken, ctx.conditionals.push taken ≠ .error .stackSize) ∧
      ∀ (op : Operation) (negated : Bool), op.instruction = .openIf negated →
        ∀ env script index, (op.run env script index ctx).result ≠ .error .stackSize := by
  intro ctx branches
  have before : ((start stack).afterCalls calls).Balanced := (balanced_start stack).afterCalls calls
  have balanced : ctx.Balanced := before.runFrom 0 (call.script.take done)
  exact ⟨balanced.counted, fun rest top => balanced.counted.skipped_pos top,
    balanced.counted.allTaken_iff, balanced.paid, balanced.few,
    fun taken => Conditionals.push_ne_stackSize balanced.few,
    fun op negated opens env script index => balanced.opens opens⟩

/-- One run ends with a conditional open, the next one turns it. -/
example :
    let first : Call := ⟨{}, [.code 0x51, .code 0x63]⟩
    ((start []).afterCalls [first]).during ⟨{}, [.code 0x67]⟩ 1 =
      { conditionals := ⟨[false], 1⟩, opCount := 2 } := by
  decide +kernel

end Context
end SpendScript
