import SpendScript.Proofs.NestedRuns

/-!
# What an accepted script cannot hide

A run goes over every operation once, and over a branch that is skipped as over one that is taken:
the size of a push, the count, and the instructions that are forbidden everywhere are looked at
before it is asked whether the operation is executed, and every conditional moves the list of open
ones. The success of one step therefore says something about its operation alone. Put together over
a run from a fresh context, it is a statement about the text of the script, in which neither the
stack nor the branches that were taken are mentioned.
-/
set_option autoImplicit false

namespace SpendScript

/-- A composed outcome that succeeds is a success of both parts, and ends where the second ends. -/
theorem Outcome.andThen_succeeds {o : Outcome} {next : Context → Outcome}
    (succeeds : (o.andThen next).result = .ok ()) :
    o.result = .ok () ∧ (next o.context).result = .ok () ∧
      (o.andThen next).context = (next o.context).context := by
  cases result : o.result with
  | error error =>
    rw [andThen_of_error next result, result] at succeeds
    cases succeeds
  | ok =>
    rw [andThen_of_ok next result] at succeeds ⊢
    exact ⟨rfl, succeeds, rfl⟩

/-- The count has grown by some operations at least, and it is within the limit if it was before. -/
def Context.CountsOn (before : Context) (more : Nat) (after : Context) : Prop :=
  before.opCount + more ≤ after.opCount ∧
    (before.opCount ≤ Limits.opsPerScript → after.opCount ≤ Limits.opsPerScript)

theorem Context.countsOn_of_eq {before after : Context} (same : after.opCount = before.opCount) :
    before.CountsOn 0 after :=
  ⟨Nat.le_of_eq same.symm, fun within => same ▸ within⟩

theorem Context.CountsOn.trans {before between after : Context} {m n : Nat}
    (first : before.CountsOn m between) (later : between.CountsOn n after) :
    before.CountsOn (m + n) after := by
  obtain ⟨more, within⟩ := first
  obtain ⟨evenMore, stillWithin⟩ := later
  exact ⟨by omega, fun limited => stillWithin (within limited)⟩

namespace Operation

/-- Whether the operation ends a run wherever it stands: a push that is too large, an opcode that is
switched off, or a conditional on the version. -/
def isForbidden : Operation → Bool
  | .push _ data => Limits.elementSize < data.length
  | .code opcode =>
    Instruction.ofOpcode opcode == .disabled || Instruction.ofOpcode opcode == .versionIf

theorem isForbidden_code {opcode : UInt8} (allowed : (code opcode).isForbidden = false) :
    (Instruction.ofOpcode opcode).opcodeClass ≠ .disabled ∧ opcode ≠ 0x65 ∧ opcode ≠ 0x66 := by
  simp only [isForbidden, Bool.or_eq_false_iff, beq_eq_false_iff_ne] at allowed
  obtain ⟨enabled, supported⟩ := allowed
  refine ⟨?_, ?_, ?_⟩
  · cases instruction : Instruction.ofOpcode opcode with
    | disabled => exact absurd instruction enabled
    | _ => exact nofun
  · rintro rfl
    exact supported rfl
  · rintro rfl
    exact supported rfl

/-- Whether a run counts the operation. Pushes of data never count. -/
def isCounted : Operation → Bool
  | .push _ _ => false
  | .code opcode => 0x60 < opcode

/-- What the success of a step says about its operation: it is allowed everywhere, it finds open what
it turns or closes, and it is counted within the limit. -/
structure Passes (op : Operation) (before after : Context) : Prop where
  allowed : op.isForbidden = false
  shifts : op.instruction.Shifts before.conditionals.branches.length
    after.conditionals.branches.length
  counts : before.CountsOn (if op.isCounted then 1 else 0) after

end Operation

section Conditionals

variable {c c' : Conditionals}

theorem Conditionals.push_shifts {negated taken : Bool} (h : c.push taken = .ok c') :
    (Instruction.openIf negated).Shifts c.branches.length c'.branches.length := by
  unfold push at h
  split at h
  · cases h
  · cases h
    exact .opens negated c.branches.length

theorem Conditionals.toggle_shifts (h : c.toggle = .ok c') :
    Instruction.otherwise.Shifts c.branches.length c'.branches.length := by
  unfold toggle at h
  split at h
  · cases h
  · next taken rest branches =>
    cases h
    rw [branches]
    exact .turns rest.length

theorem Conditionals.pop_shifts (h : c.pop = .ok c') :
    Instruction.endIf.Shifts c.branches.length c'.branches.length := by
  unfold pop at h
  split at h
  · cases h
  · next taken rest branches =>
    cases h
    rw [branches]
    exact .closes rest.length

end Conditionals

section Steps

variable {op : Operation} {env : Environment} {script : Script} {index : Nat} {ctx : Context}

/-- A conditional is opened whether its condition is read or passed over. -/
theorem Context.openIf_shifts (negated : Bool) :
    (ctx.openIf negated).Meets
      (fun after => (Instruction.openIf negated).Shifts ctx.conditionals.branches.length
        after.conditionals.branches.length) fun _ _ => True := by
  unfold openIf
  split
  · split
    · exact meets_setConditionals (fun c pushed => Conditionals.push_shifts pushed)
        fun _ _ => trivial
    · trivial
  · exact meets_setConditionals (fun c pushed => Conditionals.push_shifts pushed)
      fun _ _ => trivial

theorem Instruction.run_shifts {instruction : Instruction}
    (branching : instruction.isBranching = true) :
    (instruction.run env script index ctx).Meets
      (fun after => instruction.Shifts ctx.conditionals.branches.length
        after.conditionals.branches.length) fun _ _ => True := by
  cases instruction with
  | openIf negated => exact Context.openIf_shifts negated
  | otherwise =>
    exact Context.meets_setConditionals (fun c turned => Conditionals.toggle_shifts turned)
      fun _ _ => trivial
  | endIf =>
    exact Context.meets_setConditionals (fun c closed => Conditionals.pop_shifts closed)
      fun _ _ => trivial
  | _ => cases branching

theorem Context.checkDepth_context (ctx : Context) : ctx.checkDepth.context = ctx := by
  unfold checkDepth
  split <;> rfl

theorem Context.checkClosed_context (ctx : Context) : ctx.checkClosed.context = ctx := by
  unfold checkClosed
  split <;> rfl

/-- Whether it is executed or skipped, an operation moves the open conditionals as its instruction
says. -/
theorem Operation.step_shifts (succeeds : (op.step env script index ctx).result = .ok ()) :
    op.instruction.Shifts ctx.conditionals.branches.length
      (op.step env script index ctx).context.conditionals.branches.length := by
  by_cases branching : op.instruction.isBranching = true
  · rw [step_of_isBranching branching] at succeeds ⊢
    obtain ⟨_, later, context⟩ := Outcome.andThen_succeeds succeeds
    obtain ⟨ran, _, reached⟩ := Outcome.andThen_succeeds later
    rw [context, reached, Context.checkDepth_context]
    have shifts := (Instruction.run_shifts branching).of_ok ran
    rwa [Context.countOps_context] at shifts ⊢
  · have straight : op.instruction.isBranching = false := eq_false_of_ne_true branching
    rw [step_conditionals straight]
    exact .straight _ straight

/-- What is forbidden everywhere fails, be it executed or skipped. -/
theorem Operation.step_allowed (succeeds : (op.step env script index ctx).result = .ok ()) :
    op.isForbidden = false := by
  obtain ⟨ran, _, _⟩ := Outcome.andThen_succeeds succeeds
  cases op with
  | push form data =>
    unfold run Context.pushData at ran
    dsimp only at ran
    split at ran
    · cases ran
    · next small => exact decide_eq_false small
  | code opcode =>
    obtain ⟨_, ran, _⟩ := Outcome.andThen_succeeds ran
    dsimp only at ran
    split at ran
    · cases ran
    · next enabled =>
      have supported : Instruction.ofOpcode opcode ≠ .versionIf := by
        intro version
        have looked : ((Operation.count (.code opcode) ctx).context.isExecuting ||
            Instruction.versionIf.isConditional) = true := Bool.or_true _
        rw [version, if_pos looked] at ran
        cases ran
      simp [isForbidden, enabled, supported]

theorem Context.checkSig_counts {demand : Bool} :
    ctx.CountsOn 0 (ctx.checkSig env script demand).context := by
  refine countsOn_of_eq ?_
  rcases ctx.checkSig_cases demand with ⟨error, fails⟩ | ⟨_, _, _, _, _, _, _, asks⟩
  · rw [fails]
    rfl
  · rw [asks]
    exact opCount_eq_of_counters (Outcome.conclude_counters _ _ _)

/-- A check of several signatures counts its keys, and goes on only if the limit has room for them. -/
theorem Context.checkMultiSig_counts {demand : Bool} :
    (ctx.checkMultiSig env script demand).Meets (ctx.CountsOn 0) fun _ _ => True := by
  rcases ctx.checkMultiSig_cases demand with
    ⟨error, n, _, fails⟩ | ⟨keyCount, args, _, within, _, judges⟩
  · rw [fails]
    trivial
  · have counted : (ctx.checkMultiSig env script demand).context.opCount =
        ctx.opCount + keyCount := by
      rw [judges, opCount_eq_of_counters (MultiSig.judge_counters _ _)]
    exact Outcome.meets_of_context ⟨by omega, fun _ => by omega⟩

theorem Instruction.run_counts (instruction : Instruction) :
    (instruction.run env script index ctx).Meets (ctx.CountsOn 0) fun _ _ => True := by
  by_cases silent : instruction.asks = false
  · refine Outcome.meets_of_context (Context.countsOn_of_eq ?_)
    by_cases moves : instruction = .codeSeparator
    · rw [moves]
      rfl
    · exact Context.opCount_eq_of_counters (run_counters silent moves)
  · cases instruction with
    | checkSig demand => exact Outcome.meets_of_context Context.checkSig_counts
    | checkMultiSig demand => exact Context.checkMultiSig_counts
    | _ => exact absurd rfl silent

theorem Operation.count_counts :
    (op.count ctx).Meets (ctx.CountsOn (if op.countsTowardLimit then 1 else 0)) fun _ _ => True := by
  unfold count
  split
  · unfold Context.countOps
    dsimp only
    split
    · trivial
    · next within => exact ⟨Nat.le_refl _, fun _ => Nat.le_of_not_lt within⟩
  · exact Context.countsOn_of_eq rfl

/-- An operation is counted before it is decided whether it is executed. -/
theorem Operation.run_counts :
    (op.run env script index ctx).Meets (ctx.CountsOn (if op.isCounted then 1 else 0))
      fun _ _ => True := by
  cases op with
  | push form data =>
    have same := Context.opCount_eq_of_counters (ctx.pushData_counters env.flags form data)
    exact Outcome.meets_of_context (Context.countsOn_of_eq same)
  | code opcode =>
    refine count_counts.andThen fun between counted => ?_
    dsimp only
    split
    · trivial
    · split
      · exact (Instruction.run_counts _).imp (fun after later => counted.trans later)
          fun _ _ => id
      · exact counted

theorem Operation.step_counts (succeeds : (op.step env script index ctx).result = .ok ()) :
    ctx.CountsOn (if op.isCounted then 1 else 0) (op.step env script index ctx).context := by
  obtain ⟨ran, _, context⟩ := Outcome.andThen_succeeds succeeds
  unfold step
  rw [context, Context.checkDepth_context]
  exact run_counts.of_ok ran

theorem Operation.step_passes (succeeds : (op.step env script index ctx).result = .ok ()) :
    op.Passes ctx (op.step env script index ctx).context where
  allowed := step_allowed succeeds
  shifts := step_shifts succeeds
  counts := step_counts succeeds

end Steps

namespace Script

/-- What the success of a run says about its operations. That they are nested is known only when
what was open is closed again. -/
structure Passes (ops : List Operation) (before after : Context) : Prop where
  allowed : ∀ op ∈ ops, op.isForbidden = false
  counts : before.CountsOn (ops.countP Operation.isCounted) after
  nested : after.conditionals.branches = [] →
    isNestedFrom before.conditionals.branches.length ops = true

theorem passes_nil (ctx : Context) : Passes [] ctx ctx where
  allowed _ none := nomatch none
  counts := Context.countsOn_of_eq rfl
  nested closed := by
    rw [closed]
    rfl

theorem Passes.cons {op : Operation} {ops : List Operation} {before between after : Context}
    (first : op.Passes before between) (later : Passes ops between after) :
    Passes (op :: ops) before after where
  allowed := List.forall_mem_cons.2 ⟨first.allowed, later.allowed⟩
  counts := by
    rw [List.countP_cons, Nat.add_comm]
    exact first.counts.trans later.counts
  nested closed := isNestedFrom_of_shifts first.shifts (later.nested closed)

variable {env : Environment} {script : Script}

/-- A run that succeeds has passed every one of its operations. -/
theorem runFrom_passes {index : Nat} {ops : List Operation} {ctx : Context}
    (succeeds : (script.runFrom env index ops ctx).result = .ok ()) :
    Passes ops ctx (script.runFrom env index ops ctx).context := by
  induction ops generalizing index ctx with
  | nil => exact passes_nil ctx
  | cons op ops ih =>
    obtain ⟨stepped, ran, context⟩ := Outcome.andThen_succeeds succeeds
    unfold runFrom
    rw [context]
    exact Passes.cons (Operation.step_passes stepped) (ih ran)

theorem execute_passes {ctx : Context} (succeeds : (script.execute env ctx).result = .ok ()) :
    Passes script ctx (script.execute env ctx).context ∧
      (script.execute env ctx).context.conditionals.branches = [] := by
  obtain ⟨ran, closed, context⟩ := Outcome.andThen_succeeds succeeds
  have passes := runFrom_passes ran
  unfold Context.checkClosed at closed context
  split at closed
  · next empty =>
    unfold execute Context.checkClosed
    rw [context, if_pos empty]
    exact ⟨passes, List.isEmpty_iff.1 empty⟩
  · cases closed

/-- A script that is accepted from a fresh context, on whatever stack, has no push that is too large,
no opcode that is switched off and no conditional on the version, not even where it was skipped; it
has no more opcodes above the small numbers than may be counted, and its conditionals are matched. -/
theorem execute_hides_nothing {stack : Stack}
    (accepted : (script.execute env (.start stack)).result = .ok ()) :
    (∀ form data, .push form data ∈ script → data.length ≤ Limits.elementSize) ∧
      (∀ opcode, .code opcode ∈ script →
        (Instruction.ofOpcode opcode).opcodeClass ≠ .disabled ∧ opcode ≠ 0x65 ∧ opcode ≠ 0x66) ∧
      script.countP Operation.isCounted ≤ Limits.opsPerScript ∧
      isNested script = true := by
  obtain ⟨passes, closed⟩ := execute_passes accepted
  refine ⟨fun form data present => ?_, fun opcode present => ?_, ?_, passes.nested closed⟩
  · have allowed := passes.allowed _ present
    exact Nat.le_of_not_lt (of_decide_eq_false allowed)
  · exact Operation.isForbidden_code (passes.allowed _ present)
  · obtain ⟨counted, limited⟩ := passes.counts
    have few := limited (Nat.zero_le _)
    omega

/-- A branch that is skipped holds a check of a signature and a push: neither is executed, and the
script is accepted, but both are looked at. -/
theorem execute_hides_nothing_skipped :
    let script : Script := [.push .direct [], .code 0x63, .push .direct [7], .code 0xac, .code 0x67,
      .code 0x51, .code 0x68]
    (script.execute {} (.start [])).result = .ok () ∧ script.countP Operation.isCounted = 4 ∧
      isNested script = true := by
  intro script
  have accepted : (script.execute {} (.start [])).result = .ok () := by decide
  obtain ⟨_, _, _, nested⟩ := execute_hides_nothing accepted
  exact ⟨accepted, by decide, nested⟩

end Script
end SpendScript
