import SpendScript.Proofs.OpcodeTable
import SpendScript.Proofs.Questions
import SpendScript.Proofs.Serialization
import SpendScript.Transaction.Checker

/-!
# What signatures commit to

A context keeps the index from which on the operations of the script are signed. Over a run this
index tells the history of the separators: it stands behind the last one that was executed, and one
that was skipped leaves no trace. What a question hands to the checker is the bytes of some
operations of the script, so the checker can always read them back.
-/
set_option autoImplicit false

namespace SpendScript

section Steps

variable {env : Environment} {script : Script} {index : Nat} {ctx : Context}

theorem Context.checkSig_codeStart (demand : Bool) :
    (ctx.checkSig env script demand).context.codeStart = ctx.codeStart := by
  rcases ctx.checkSig_cases demand with ⟨error, fails⟩ | ⟨_, _, rest, query, _, _, _, asks⟩
  · rw [fails]
    rfl
  · rw [asks]
    exact codeStart_eq_of_counters (Outcome.conclude_counters _ _ _)

theorem Context.checkMultiSig_codeStart (demand : Bool) :
    (ctx.checkMultiSig env script demand).context.codeStart = ctx.codeStart := by
  rcases ctx.checkMultiSig_cases demand with
    ⟨error, n, _, fails⟩ | ⟨keyCount, args, _, _, _, judges⟩
  · rw [fails]
    rfl
  · rw [judges, codeStart_eq_of_counters (MultiSig.judge_counters _ _)]

theorem Instruction.run_codeStart {instruction : Instruction}
    (moves : instruction ≠ .codeSeparator) :
    (instruction.run env script index ctx).context.codeStart = ctx.codeStart := by
  by_cases silent : instruction.asks = false
  · exact Context.codeStart_eq_of_counters (run_counters silent moves)
  · cases instruction with
    | checkSig demand => exact Context.checkSig_codeStart demand
    | checkMultiSig demand => exact Context.checkMultiSig_codeStart demand
    | _ => exact absurd rfl silent

/-- Where the signed code starts after the operation at an index. -/
def Operation.nextCodeStart (op : Operation) (index : Nat) (ctx : Context) : Nat :=
  if op = .code 0xab ∧ ctx.isExecuting = true then index + 1 else ctx.codeStart

/-- A step moves the start of the code behind a separator that it executes, and not otherwise. -/
theorem Operation.step_codeStart (op : Operation) :
    (op.step env script index ctx).Meets
      (fun after => after.codeStart = op.nextCodeStart index ctx) fun _ _ => True := by
  have ran : (op.run env script index ctx).Meets
      (fun after => after.codeStart = op.nextCodeStart index ctx) fun _ _ => True := by
    cases op with
    | push form data =>
      exact Outcome.meets_of_context
        (Context.codeStart_eq_of_counters (ctx.pushData_counters env.flags form data))
    | code opcode =>
      have counted : ((Operation.code opcode).count ctx).Meets
          (fun after => ∃ n, ctx.opCount ≤ n ∧ after = { ctx with opCount := n })
          fun _ _ => True :=
        Outcome.meets_of_context (Operation.code opcode).count_context
      unfold run
      refine counted.andThen fun after reached => ?_
      obtain ⟨n, _, rfl⟩ := reached
      have executing : Context.isExecuting { ctx with opCount := n } = ctx.isExecuting := rfl
      dsimp only
      rw [executing]
      unfold nextCodeStart
      split
      · trivial
      · by_cases separator : Instruction.ofOpcode opcode = .codeSeparator
        · have same : opcode = 0xab := Instruction.ofOpcode_eq_codeSeparator_iff.1 separator
          subst same
          cases ctx.isExecuting
          · exact rfl
          · exact rfl
        · have other : ¬(Operation.code opcode = .code 0xab ∧ ctx.isExecuting = true) := by
            rintro ⟨same, _⟩
            cases same
            exact separator rfl
          rw [if_neg other]
          split
          · exact Outcome.meets_of_context (Instruction.run_codeStart separator)
          · exact rfl
  refine ran.andThen fun after moved => ?_
  unfold Context.checkDepth
  split
  · trivial
  · exact moved

end Steps

theorem Outcome.andThen_queries_of_silent {o : Outcome} {next : Context → Outcome}
    (silent : (next o.context).queries = []) : (o.andThen next).queries = o.queries := by
  cases result : o.result with
  | error error => rw [andThen_of_error next result]
  | ok => rw [andThen_queries_of_ok next result, silent, List.append_nil]

namespace Script

/-- What the operations before index `i` make of the context. -/
def before (script : Script) (env : Environment) (ctx : Context) (i : Nat) : Outcome :=
  script.runFrom env 0 (script.take i) ctx

/-- The questions asked by the operation at index `i`, if the run gets there. -/
def queriesAt (script : Script) (env : Environment) (ctx : Context) (i : Nat) :
    List SignatureQuery :=
  match (script.before env ctx i).result, script[i]? with
  | .ok (), some op => (op.step env script i (script.before env ctx i).context).queries
  | _, _ => []

/-- Whether the operation at index `i` is a separator that is executed: the run gets there, and
every open branch is taken. -/
def separatesAt (script : Script) (env : Environment) (ctx : Context) (i : Nat) : Bool :=
  script[i]? == some (.code 0xab) && (script.before env ctx i).result.isOk &&
    (script.before env ctx i).context.isExecuting

/-- Where the code that is signed at index `i` starts: behind the last separator executed before, or
where it started in the first context. -/
def codeStartAt (script : Script) (env : Environment) (ctx : Context) (i : Nat) : Nat :=
  match ((List.range i).filter (script.separatesAt env ctx)).getLast? with
  | some j => j + 1
  | none => ctx.codeStart

variable {script : Script} {env : Environment} {ctx : Context} {i : Nat}

theorem before_succ {op : Operation} (found : script[i]? = some op) :
    script.before env ctx (i + 1) = (script.before env ctx i).andThen (op.step env script i) := by
  obtain ⟨inRange, _⟩ := List.getElem?_eq_some_iff.1 found
  have length : (script.take i).length = i := List.length_take_of_le (Nat.le_of_lt inRange)
  have front : script.take (i + 1) = script.take i ++ [op] := by
    rw [List.take_add_one, found]
    rfl
  unfold before
  rw [front, runFrom_append, length, Nat.zero_add, runFrom_singleton]

theorem before_succ_of_le (past : script.length ≤ i) :
    script.before env ctx (i + 1) = script.before env ctx i := by
  unfold before
  rw [List.take_of_length_le past, List.take_of_length_le (Nat.le_succ_of_le past)]

theorem codeStartAt_succ :
    script.codeStartAt env ctx (i + 1) =
      if script.separatesAt env ctx i = true then i + 1 else script.codeStartAt env ctx i := by
  unfold codeStartAt
  rw [List.range_succ, List.filter_append]
  cases separates : script.separatesAt env ctx i with
  | true =>
    rw [List.filter_cons_of_pos separates, List.filter_nil, List.getLast?_concat]
    rfl
  | false =>
    rw [List.filter_cons_of_neg (by rw [separates]; exact Bool.false_ne_true), List.filter_nil,
      List.append_nil]
    rfl

theorem separatesAt_iff {op : Operation} (found : script[i]? = some op)
    (succeeds : (script.before env ctx i).result = .ok ()) :
    script.separatesAt env ctx i = true ↔
      op = .code 0xab ∧ (script.before env ctx i).context.isExecuting = true := by
  unfold separatesAt
  rw [found, succeeds]
  simp [Except.isOk, Except.toBool]

/-- In the course of a run the context keeps where the signed code starts. -/
theorem before_codeStart (i : Nat) :
    (script.before env ctx i).Meets
      (fun reached => reached.codeStart = script.codeStartAt env ctx i) fun _ _ => True := by
  induction i with
  | zero => exact rfl
  | succ i ih =>
    rw [codeStartAt_succ]
    cases found : script[i]? with
    | none =>
      have separates : ¬script.separatesAt env ctx i = true := by
        unfold separatesAt
        rw [found]
        exact Bool.false_ne_true
      rw [before_succ_of_le (List.getElem?_eq_none_iff.1 found), if_neg separates]
      exact ih
    | some op =>
      rw [before_succ found]
      cases result : (script.before env ctx i).result with
      | error error =>
        rw [Outcome.andThen_of_error _ result]
        unfold Outcome.Meets
        rw [result]
        trivial
      | ok =>
        refine Outcome.meets_andThen_of_ok result ?_
        have start := ih.of_ok result
        have step : (op.step env script i (script.before env ctx i).context).Meets
            (fun after => after.codeStart =
              op.nextCodeStart i (script.before env ctx i).context) fun _ _ => True :=
          op.step_codeStart
        unfold Operation.nextCodeStart at step
        simp only [← separatesAt_iff found result, start] at step
        exact step

/-- The questions of a run are those of its operations, in the order of the operations. -/
theorem before_queries (i : Nat) :
    (script.before env ctx i).queries = (List.range i).flatMap (script.queriesAt env ctx) := by
  induction i with
  | zero => rfl
  | succ i ih =>
    rw [List.range_succ, List.flatMap_append, ← ih, List.flatMap_singleton]
    unfold queriesAt
    cases found : script[i]? with
    | none =>
      rw [before_succ_of_le (List.getElem?_eq_none_iff.1 found)]
      cases (script.before env ctx i).result <;> exact (List.append_nil _).symm
    | some op =>
      rw [before_succ found]
      cases result : (script.before env ctx i).result with
      | error error =>
        rw [Outcome.andThen_of_error _ result]
        exact (List.append_nil _).symm
      | ok => exact Outcome.andThen_queries_of_ok _ result

theorem execute_queries :
    (script.execute env ctx).queries =
      (List.range script.length).flatMap (script.queriesAt env ctx) := by
  have whole : script.before env ctx script.length = script.runFrom env 0 script ctx := by
    unfold before
    rw [List.take_length]
  rw [← before_queries, whole]
  exact Outcome.andThen_queries_of_silent Context.checkClosed_queries

/-- Every question of a run is asked by a check that the run gets to. -/
theorem question_of_mem_queriesAt {q : SignatureQuery} (asked : q ∈ script.queriesAt env ctx i) :
    (script.before env ctx i).result = .ok () ∧
      ∃ op, script[i]? = some op ∧ ∃ signatures,
        op.instruction.Question env script (script.before env ctx i).context signatures q := by
  unfold queriesAt at asked
  split at asked
  · next op result found =>
    obtain ⟨_, question⟩ := op.mem_step_queries asked
    exact ⟨result, op, found, question⟩
  · cases asked

/-- The questions of a run are asked one operation after the other, each by a check about one of
the signatures that it takes. What is signed are the operations behind the last separator executed
before, without the canonical pushes of those signatures. If the script was decoded, the checker
decodes what it is given to the same operations, and can leave out the separators. -/
theorem questions_sign_code_behind_separator (script : Script) (env : Environment)
    (ctx : Context) :
    (script.execute env ctx).queries =
      (List.range script.length).flatMap (script.queriesAt env ctx) ∧
    ∀ i, ∀ q ∈ script.queriesAt env ctx i, ∃ op signatures,
      script[i]? = some op ∧
      op.instruction.TakesSignatures env.flags (script.before env ctx i).context.stack
        signatures ∧
      q.signature ∈ signatures ∧
      let signed : Script := (script.drop (script.codeStartAt env ctx i)).filter fun op =>
        !signatures.any op.isCanonicalPushOf
      q.code = encode signed ∧
      ∀ bs, decode bs = .ok script →
        decode q.code = .ok signed ∧
          stripSeparators? q.code = some (signed.encodeFiltered (· != .code 0xab)) := by
  refine ⟨execute_queries, fun i q asked => ?_⟩
  obtain ⟨result, op, found, signatures, question⟩ := question_of_mem_queriesAt asked
  have start := (before_codeStart i).of_ok result
  refine ⟨op, signatures, found, question.taken, question.mem, ?_⟩
  intro signed
  have code : q.code = encode signed := by
    rw [question.asked]
    show script.codeFrom _ signatures = _
    rw [start]
    rfl
  refine ⟨code, fun bs decoded => ?_⟩
  have sub : signed.Sublist script := List.filter_sublist.trans (List.drop_sublist _ _)
  have again : decode q.code = .ok signed := by
    rw [code]
    exact decode_of_sublist decoded sub
  refine ⟨again, ?_⟩
  unfold stripSeparators?
  rw [again]

/-- A separator in a branch that is skipped, one that is executed, and a push of the signature. -/
theorem questions_sign_code_behind_executed_separator :
    let script : Script := [.push .direct [], .code 0x63, .code 0xab, .code 0x68, .code 0xab,
      .code 0xac, .push .direct [1], .code 0x61]
    let ctx : Context := { stack := [[2], [1]] }
    script.codeStartAt {} ctx 5 = 5 ∧ ∃ q, (script.execute {} ctx).queries = [q] ∧
      decode q.code = .ok [.code 0xac, .code 0x61] := by
  intro script ctx
  have start : script.codeStartAt {} ctx 5 = 5 := by decide +kernel
  have stack : (script.before {} ctx 5).context.stack = [[2], [1]] := by decide +kernel
  have asked : ⟨[1], [2], [0xac, 0x61], false⟩ ∈ script.queriesAt {} ctx 5 := by decide +kernel
  refine ⟨start, ⟨[1], [2], [0xac, 0x61], false⟩, by decide +kernel, ?_⟩
  obtain ⟨op, signatures, found, taken, _, _, decodes⟩ :=
    (questions_sign_code_behind_separator script {} ctx).2 5 _ asked
  have check : op = .code 0xac := Option.some.inj (found.symm.trans rfl)
  rw [check, stack] at taken
  obtain ⟨key, signature, rest, two, one⟩ :
    (Instruction.checkSig false).TakesSignatures _ _ _ := taken
  cases two
  have signed : ((script.drop (script.codeStartAt {} ctx 5)).filter fun op =>
      !signatures.any op.isCanonicalPushOf) = [.code 0xac, .code 0x61] := by
    rw [start, one]
    decide
  rw [← signed]
  exact (decodes script.encode (decode_encode (by decide) (by decide))).1

end Script
end SpendScript
