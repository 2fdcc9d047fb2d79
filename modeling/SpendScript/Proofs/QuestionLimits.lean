import SpendScript.Proofs.EncodingRules
import SpendScript.Proofs.OpcodeTable
import SpendScript.Proofs.Questions
import SpendScript.Spend.Verify

/-!
# Questions are counted

Every question to the checker is paid for by an operation counted before it: a single check by its
own count, a check of several signatures by the count of its keys. A count that passes the limit
ends the run before it pays for anything, so the questions of a run stay within the limit, whether
the run succeeds or fails in the middle of a check.
-/
set_option autoImplicit false

namespace SpendScript

theorem Instruction.isCounted_of_asks {instruction : Instruction}
    (asks : instruction.asks = true) : instruction.isCounted = true := by
  cases instruction with
  | checkSig demand => rfl
  | checkMultiSig demand => rfl
  | _ => cases asks

/-- The questions of an outcome are paid for by operations counted after the first `paid` ones. -/
structure Outcome.Pays (o : Outcome) (paid : Nat) : Prop where
  counted : paid + o.queries.length ≤ o.context.opCount
  limited : o.queries ≠ [] → paid + o.queries.length ≤ Limits.opsPerScript

theorem Outcome.Pays.of_silent {o : Outcome} {paid : Nat} (silent : o.queries = [])
    (counted : paid ≤ o.context.opCount) : o.Pays paid where
  counted := by
    rw [silent]
    exact counted
  limited := fun asks => absurd silent asks

theorem Outcome.Pays.mono {o : Outcome} {paid less : Nat} (h : o.Pays paid) (le : less ≤ paid) :
    o.Pays less where
  counted := Nat.le_trans (Nat.add_le_add_right le _) h.counted
  limited := fun asks => Nat.le_trans (Nat.add_le_add_right le _) (h.limited asks)

/-- What comes after an outcome has to pay only from the count on that the outcome has reached. -/
theorem Outcome.Pays.andThen {o : Outcome} {next : Context → Outcome} {paid : Nat}
    (first : o.Pays paid)
    (later : o.result = .ok () → (next o.context).Pays o.context.opCount) :
    (o.andThen next).Pays paid := by
  cases result : o.result with
  | error error =>
    rw [andThen_of_error next result]
    exact first
  | ok =>
    have hfirst := first.counted
    have hnext := (later result).counted
    have queries : (o.andThen next).queries = o.queries ++ (next o.context).queries :=
      andThen_queries_of_ok next result
    have context : (o.andThen next).context = (next o.context).context := by
      rw [andThen_of_ok next result]
      rfl
    refine ⟨?_, fun asks => ?_⟩
    · rw [queries, context, List.length_append]
      omega
    · rw [queries, List.length_append]
      by_cases silent : (next o.context).queries = []
      · rw [queries, silent, List.append_nil] at asks
        rw [silent]
        exact first.limited asks
      · have within := (later result).limited silent
        omega

section Checks

variable {env : Environment} {script : Script} {index : Nat} {ctx : Context}

/-- A single check asks once, which the count of the check itself pays for. -/
theorem Context.checkSig_pays {demand : Bool} {paid : Nat} (counted : paid < ctx.opCount)
    (within : ctx.opCount ≤ Limits.opsPerScript) : (ctx.checkSig env script demand).Pays paid := by
  rcases ctx.checkSig_cases demand with ⟨error, fails⟩ | ⟨_, _, rest, query, _, _, _, asks⟩
  · rw [fails]
    exact .of_silent rfl (Nat.le_of_lt counted)
  · rw [asks]
    refine ⟨?_, fun _ => ?_⟩
    · rw [Outcome.asked_queries, Outcome.conclude_queries]
      show paid + 1 ≤ (Outcome.conclude _ _ _ _).context.opCount
      rw [opCount_eq_of_counters (Outcome.conclude_counters _ _ _)]
      exact counted
    · rw [Outcome.asked_queries, Outcome.conclude_queries]
      exact Nat.le_trans counted within

/-- A check of several signatures asks at most once for each key, and each key is counted before. -/
theorem Context.checkMultiSig_pays {demand : Bool} :
    (ctx.checkMultiSig env script demand).Pays ctx.opCount := by
  rcases ctx.checkMultiSig_cases demand with
    ⟨error, n, more, fails⟩ | ⟨keyCount, args, _, within, read, judges⟩
  · rw [fails]
    exact .of_silent rfl more
  · have few : (ctx.checkMultiSig env script demand).queries.length ≤ keyCount := by
      rw [judges, MultiSig.judge_queries, ← MultiSig.keys_length read]
      exact MultiSig.scan_queries_length_le _ _
    have counted : (ctx.checkMultiSig env script demand).context.opCount =
        ctx.opCount + keyCount := by
      rw [judges, opCount_eq_of_counters (MultiSig.judge_counters _ _)]
    exact ⟨by omega, fun _ => by omega⟩

/-- An instruction pays from the count before its own operation was counted. -/
theorem Instruction.run_pays {instruction : Instruction} {paid : Nat} (counted : paid ≤ ctx.opCount)
    (asking : instruction.asks = true → paid < ctx.opCount ∧ ctx.opCount ≤ Limits.opsPerScript) :
    (instruction.run env script index ctx).Pays paid := by
  by_cases silent : instruction.asks = false
  · refine .of_silent (run_queries silent) ?_
    by_cases moves : instruction = .codeSeparator
    · rw [moves]
      exact counted
    · rw [Context.opCount_eq_of_counters (run_counters silent moves)]
      exact counted
  · cases instruction with
    | checkSig demand =>
      obtain ⟨more, within⟩ := asking rfl
      exact Context.checkSig_pays more within
    | checkMultiSig demand => exact Context.checkMultiSig_pays.mono counted
    | _ => exact absurd rfl silent

end Checks

section Runs

variable {env : Environment} {script : Script}

theorem Context.checkDepth_pays (ctx : Context) : ctx.checkDepth.Pays ctx.opCount := by
  refine .of_silent checkDepth_queries ?_
  unfold checkDepth
  split <;> exact Nat.le_refl ctx.opCount

theorem Operation.count_pays {op : Operation} {next : Context → Outcome} {ctx : Context}
    (hnext : ∀ n, ctx.opCount ≤ n →
      (op.countsTowardLimit = true → ctx.opCount < n ∧ n ≤ Limits.opsPerScript) →
        (next { ctx with opCount := n }).Pays ctx.opCount) :
    ((op.count ctx).andThen next).Pays ctx.opCount := by
  rw [count]
  by_cases counts : op.countsTowardLimit = true
  · rw [if_pos counts]
    by_cases within : ctx.opCount + 1 ≤ Limits.opsPerScript
    · rw [Context.countOps_of_le within, Outcome.ok_andThen]
      exact hnext _ (Nat.le_succ _) fun _ => ⟨Nat.lt_succ_self _, within⟩
    · rw [Context.countOps_of_lt (Nat.lt_of_not_le within), Outcome.fail_andThen]
      exact .of_silent rfl (Nat.le_succ _)
  · rw [if_neg counts, Outcome.ok_andThen]
    exact hnext ctx.opCount (Nat.le_refl _) fun counted => absurd counted counts

/-- An operation pays for its questions, the depth being checked or not. -/
theorem Operation.run_pays (op : Operation) (index : Nat) (ctx : Context) :
    (op.run env script index ctx).Pays ctx.opCount := by
  cases op with
  | push form data =>
    refine .of_silent (Context.pushData_queries _ form data) ?_
    have unchanged := Context.opCount_eq_of_counters (ctx.pushData_counters env.flags form data)
    exact Nat.le_of_eq unchanged.symm
  | code opcode =>
    unfold run
    refine count_pays fun n counted paying => ?_
    dsimp only
    split
    · exact .of_silent rfl counted
    · split
      · refine Instruction.run_pays counted fun asks => paying ?_
        exact Instruction.countsTowardLimit_of_isCounted (Instruction.isCounted_of_asks asks)
      · exact .of_silent rfl counted

theorem Operation.step_pays (op : Operation) (index : Nat) (ctx : Context) :
    (op.step env script index ctx).Pays ctx.opCount :=
  (op.run_pays index ctx).andThen fun _ => Context.checkDepth_pays _

/-- No step takes back what was counted. -/
theorem Operation.opCount_le_step (op : Operation) (index : Nat) (ctx : Context) :
    ctx.opCount ≤ (op.step env script index ctx).context.opCount :=
  Nat.le_trans (Nat.le_add_right _ _) (op.step_pays index ctx).counted

theorem Script.runFrom_pays (index : Nat) (ops : List Operation) (ctx : Context) :
    (script.runFrom env index ops ctx).Pays ctx.opCount := by
  induction ops generalizing index ctx with
  | nil => exact .of_silent rfl (Nat.le_refl _)
  | cons op ops ih => exact (op.step_pays index ctx).andThen fun _ => ih (index + 1) _

theorem Script.execute_pays (ctx : Context) : (script.execute env ctx).Pays ctx.opCount := by
  refine (script.runFrom_pays 0 script ctx).andThen fun _ => ?_
  refine .of_silent Context.checkClosed_queries ?_
  unfold Context.checkClosed
  split <;> exact Nat.le_refl _

theorem Script.execute_queries_length_le (stack : Stack) :
    (script.execute env (.start stack)).queries.length ≤
        (script.execute env (.start stack)).context.opCount ∧
      (script.execute env (.start stack)).queries.length ≤ Limits.opsPerScript := by
  have pays : (script.execute env (.start stack)).Pays 0 := script.execute_pays (.start stack)
  have counted := pays.counted
  have limited := pays.limited
  rw [Nat.zero_add] at counted limited
  refine ⟨counted, ?_⟩
  by_cases silent : (script.execute env (.start stack)).queries = []
  · rw [silent]
    exact Nat.zero_le _
  · exact limited silent

-- a check that asks as often as it has counted
example :
    let o := Script.execute [.code 0xac] {} (.start [[2], [1]])
    o.queries.length = 1 ∧ o.context.opCount = 1 := by decide

theorem Script.checkEncodings_of_mem_queries {ctx : Context} {q : SignatureQuery}
    (asked : q ∈ (script.execute env ctx).queries) :
    env.flags.checkEncodings q.signature q.key = .ok () := by
  obtain ⟨op, index, ctx, asked⟩ := mem_execute_queries asked
  obtain ⟨_, signatures, question⟩ := op.mem_step_queries asked
  exact question.allowed

end Runs

namespace Report

/-- The questions of a report: all about pairs that pass the encoding rules, and no more than as
many runs can count. -/
structure AsksWithin (flags : Flags) (runs : Nat) (r : Report) : Prop where
  encoded : ∀ q ∈ r.queries, flags.checkEncodings q.signature q.key = .ok ()
  few : r.queries.length ≤ runs * Limits.opsPerScript

variable {env : Environment} {runs : Nat}

theorem asksWithin_of_silent {r : Report} (silent : r.queries = []) :
    r.AsksWithin env.flags runs := by
  refine ⟨fun q asked => ?_, ?_⟩
  · rw [silent] at asked
    cases asked
  · rw [silent]
    exact Nat.zero_le _

theorem AsksWithin.mono {r : Report} {more : Nat} (h : r.AsksWithin env.flags runs)
    (le : runs ≤ more) : r.AsksWithin env.flags more :=
  ⟨h.encoded, Nat.le_trans h.few (Nat.mul_le_mul_right _ le)⟩

theorem AsksWithin.after {r : Report} (h : r.AsksWithin env.flags runs) (event : Event) :
    (r.after event).AsksWithin env.flags runs :=
  ⟨h.encoded, h.few⟩

theorem asksWithin_bind {α : Type} {stage : Stage} {value : Except ScriptError α}
    {next : α → Report} (h : ∀ a, (next a).AsksWithin env.flags runs) :
    (bind stage value next).AsksWithin env.flags runs := by
  cases value with
  | ok a => exact h a
  | error error => exact asksWithin_of_silent rfl

/-- A stage that runs a script asks what the run asks, and then what comes after it. -/
theorem asksWithin_running {stage : Stage} {script : Script} {stack : Stack}
    {next : Stack → Report} (h : ∀ left, (next left).AsksWithin env.flags runs) :
    (running env stage script stack next).AsksWithin env.flags (runs + 1) := by
  have later : (bind stage (script.execute env (.start stack)).result fun _ =>
      next (script.execute env (.start stack)).context.stack).AsksWithin env.flags runs :=
    asksWithin_bind fun _ => h _
  refine ⟨fun q asked => ?_, ?_⟩
  · rcases List.mem_append.1 asked with now | rest
    · exact Script.checkEncodings_of_mem_queries now
    · exact later.encoded q rest
  · have now : (script.execute env (.start stack)).queries.length ≤ Limits.opsPerScript :=
      (script.execute_queries_length_le stack).2
    have rest := later.few
    show ((script.execute env (.start stack)).queries ++ _).length ≤ _
    rw [List.length_append, Nat.succ_mul]
    omega

end Report

namespace Spend

variable {env : Environment}

theorem postCheck_asksWithin (stack : Stack) : (postCheck env stack).AsksWithin env.flags 0 := by
  refine .after ?_ _
  split
  · exact Report.asksWithin_of_silent rfl
  · exact Report.asksWithin_of_silent rfl

theorem redeem_asksWithin (unlocking : Script) (stack : Stack) :
    (redeem env unlocking stack).AsksWithin env.flags 1 := by
  refine .after ?_ _
  split
  · exact Report.asksWithin_of_silent rfl
  · split
    · exact Report.asksWithin_of_silent rfl
    · refine Report.asksWithin_bind fun script => ?_
      refine Report.asksWithin_running fun left => ?_
      exact Report.asksWithin_bind fun _ => postCheck_asksWithin left

theorem afterLocking_asksWithin (locking : Bytes) (unlocking : Script) (unlocked left : Stack) :
    (afterLocking env locking unlocking unlocked left).AsksWithin env.flags 1 := by
  refine .after ?_ _
  split
  · exact redeem_asksWithin unlocking unlocked
  · exact (postCheck_asksWithin left).mono (Nat.zero_le 1)

theorem lock_asksWithin (locking : Bytes) (unlocking : Script) (unlocked : Stack) :
    (lock env locking unlocking unlocked).AsksWithin env.flags 2 := by
  refine .after ?_ _
  refine Report.asksWithin_bind fun script => ?_
  refine Report.asksWithin_running fun left => ?_
  exact Report.asksWithin_bind fun _ => afterLocking_asksWithin locking unlocking unlocked left

/-- A verification runs three scripts at most. -/
theorem verify_asksWithin (locking unlocking : Bytes) :
    (verify env locking unlocking).AsksWithin env.flags 3 := by
  unfold verify
  split
  · exact Report.asksWithin_of_silent rfl
  · refine .after ?_ _
    refine Report.asksWithin_bind fun script => ?_
    exact Report.asksWithin_running fun unlocked => lock_asksWithin locking script unlocked

/-- Every question of a verification is about a signature and a key that keep the encoding rules. A
run in a fresh context asks no more than it has counted and no more than may be counted, however it
ends, so that a verification stays within three times the limit. -/
theorem questions_are_encoded_and_counted (env : Environment) :
    (∀ locking unlocking : Bytes, ∀ q ∈ (verify env locking unlocking).queries,
      SignatureEncoding.check env.flags q.signature = .ok () ∧
        KeyEncoding.check env.flags q.key = .ok ()) ∧
    (∀ (script : Script) (stack : Stack),
      let o := script.execute env (.start stack)
      o.queries.length ≤ o.context.opCount ∧ o.queries.length ≤ Limits.opsPerScript) ∧
    ∀ locking unlocking : Bytes,
      (verify env locking unlocking).queries.length ≤ 3 * Limits.opsPerScript := by
  refine ⟨fun locking unlocking q asked => ?_, fun script stack => ?_, fun locking unlocking => ?_⟩
  · exact checkEncodings_eq_ok_iff.1 ((verify_asksWithin locking unlocking).encoded q asked)
  · exact script.execute_queries_length_le stack
  · exact (verify_asksWithin locking unlocking).few

end Spend
end SpendScript
