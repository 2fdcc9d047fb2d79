import SpendScript.Proofs.OpcodeTable
import SpendScript.Proofs.OperationLimits

/-!
# Runs stay within the limits

An operation is bounded where it is executed, so what is left is the counting before it and the
check of the depth after it. The table of opcodes tells that every conditional counts, and with
that one step leaves the bounds as it found them or fails; a run of any length does the same.
-/
set_option autoImplicit false

namespace SpendScript

namespace Instruction

/-- Only small numbers have an opcode of their own. -/
theorem natAbs_le_of_ofOpcode {opcode : UInt8} {n : Int} (h : ofOpcode opcode = .pushNumber n) :
    n.natAbs ≤ Limits.stackSize := by
  have bound : Limits.stackSize = 1000 := rfl
  rcases mem_table_of_ofOpcode h with row | other | other | other | ⟨low, number⟩
  · have lowest : n = -1 := by
      simp [table] at row
      exact row.2
    omega
  · cases other
  · cases other
  · cases other
  · cases number
    omega

end Instruction

/-- The check that ends a step bounds the depth again. -/
theorem Context.meets_checkDepth {ctx : Context} (h : ctx.Within (Limits.stackSize + 3)) :
    ctx.checkDepth.Meets (Within Limits.stackSize) LeftBy := by
  have hdepth := h.depth_le
  have hops := h.ops_le
  by_cases deep : Limits.stackSize < ctx.depth
  · rw [checkDepth_of_lt deep]
    exact ⟨rfl, h.small, iff_of_true rfl deep, hdepth, iff_of_false nofun (Nat.not_lt.2 hops),
      Nat.le_add_right_of_le hops⟩
  · have within : ctx.depth ≤ Limits.stackSize := Nat.le_of_not_lt deep
    rw [checkDepth_of_le within]
    exact ⟨h.small, within, hops, h.open_le⟩

theorem Operation.count_bounded {op : Operation} {next : Context → Outcome} {ctx : Context}
    (h : ctx.Within Limits.stackSize)
    (hnext : ∀ n, (op.countsTowardLimit = true → ctx.opCount < n) →
      Context.Within Limits.stackSize { ctx with opCount := n } →
        Context.Bounded (next { ctx with opCount := n })) :
    Context.Bounded ((op.count ctx).andThen next) := by
  rw [count]
  by_cases counts : op.countsTowardLimit = true
  · rw [if_pos counts]
    exact Context.bounded_countOps h (by decide) (hnext _ fun _ => Nat.lt_succ_self _)
  · rw [if_neg counts, Outcome.ok_andThen]
    exact hnext ctx.opCount (fun counted => absurd counted counts) h

theorem Operation.run_bounded {op : Operation} {env : Environment} {script : Script} {index : Nat}
    {ctx : Context} (h : ctx.Within Limits.stackSize) :
    Context.Bounded (op.run env script index ctx) := by
  cases op with
  | push form data => exact Context.bounded_pushData h
  | code opcode =>
    refine count_bounded h fun n counted hn => ?_
    dsimp only
    split
    · exact Context.bounded_fail hn rfl
    · split
      · refine Instruction.run_bounded hn (fun m hm => Instruction.natAbs_le_of_ofOpcode hm) ?_
        intro conditional
        have more := counted (Instruction.countsTowardLimit_of_isConditional conditional)
        exact Nat.lt_of_le_of_lt h.open_le more
      · exact Context.bounded_ok hn (by decide)

theorem Operation.step_within {op : Operation} {env : Environment} {script : Script} {index : Nat}
    {ctx : Context} (h : ctx.Within Limits.stackSize) :
    (op.step env script index ctx).Meets (Context.Within Limits.stackSize) Context.LeftBy :=
  (run_bounded h).andThen fun _ reached => Context.meets_checkDepth reached

/-- The bounds that hold when a run begins are restored by every step of it. -/
theorem Script.execute_within {script : Script} {env : Environment} {ctx : Context}
    (h : ctx.Within Limits.stackSize) :
    (script.execute env ctx).Meets (Context.Within Limits.stackSize) Context.LeftBy :=
  script.execute_meets (fun _ _ _ within => Operation.step_within within)
    (fun _ within => within.leftBy rfl) h

/-- However a run ends, no element is larger than what may be pushed, and each limit is exceeded
exactly if it is the reason for the failure, by at most three elements or the keys of one check. -/
theorem Script.execute_within_limits {script : Script} {env : Environment} {ctx : Context}
    (closed : ctx.conditionals.branches = [])
    (depth_le : ctx.depth ≤ Limits.stackSize)
    (small : ∀ x ∈ ctx.stack ++ ctx.altStack, x.length ≤ Limits.elementSize)
    (ops_le : ctx.opCount ≤ Limits.opsPerScript) :
    let o := script.execute env ctx
    (∀ x ∈ o.context.stack ++ o.context.altStack, x.length ≤ Limits.elementSize) ∧
      (o.result = .error .stackSize ↔ Limits.stackSize < o.context.depth) ∧
      o.context.depth ≤ Limits.stackSize + 3 ∧
      (o.result = .error .opCount ↔ Limits.opsPerScript < o.context.opCount) ∧
      o.context.opCount ≤ Limits.opsPerScript + Limits.keysPerMultiSig := by
  intro o
  have none : ctx.conditionals.branches.length ≤ ctx.opCount := by
    rw [closed]
    exact Nat.zero_le _
  have ends : o.Meets (Context.Within Limits.stackSize) Context.LeftBy :=
    script.execute_within ⟨small, depth_le, ops_le, none⟩
  cases hresult : o.result with
  | ok u =>
    obtain ⟨hsmall, hdepth, hops, _⟩ := ends.of_ok hresult
    exact ⟨hsmall, iff_of_false nofun (Nat.not_lt.2 hdepth), Nat.le_add_right_of_le hdepth,
      iff_of_false nofun (Nat.not_lt.2 hops), Nat.le_add_right_of_le hops⟩
  | error error =>
    obtain ⟨_, hsmall, hdepth, deepest, hops, most⟩ := ends.of_error hresult
    rw [Except.error.injEq, Except.error.injEq]
    exact ⟨hsmall, hdepth, deepest, hops, most⟩

/-- A check of twenty keys after two hundred operations counts past the limit. -/
theorem Script.execute_within_limits_twenty_keys :
    let o := execute [.code 0xae] {} { stack := [[20]], opCount := 200 }
    o.result = .error .opCount ∧ o.context.opCount = 221 := by
  intro o
  have few : ([20] : Bytes).length ≤ Limits.elementSize := by decide
  obtain ⟨_, _, _, exceeded, _⟩ :=
    @execute_within_limits [.code 0xae] {} { stack := [[20]], opCount := 200 } rfl (by decide)
      (fun x hx => List.eq_of_mem_singleton hx ▸ few) (by decide)
  have counted : o.context.opCount = 221 := by decide
  refine ⟨exceeded.2 ?_, counted⟩
  show Limits.opsPerScript < o.context.opCount
  rw [counted]
  decide

end SpendScript
