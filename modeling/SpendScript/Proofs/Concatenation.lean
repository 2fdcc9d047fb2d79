import SpendScript.Proofs.SignedCode

/-!
# Scripts one after the other

The bytes of two scripts put together are decoded to the operations of both, and running these is
running the one script and then the other. The place of an operation in its script and what
surrounds it show in one way only, namely in the code that signatures commit to. If the checker does
not look at the code, two runs of the same operations at different places, in different scripts, go
on side by side.
-/
set_option autoImplicit false

namespace SpendScript

/-- The answers do not depend on the code that is signed. -/
def SignatureChecker.IgnoresCode (checker : SignatureChecker) : Prop :=
  ∀ signature key code code', checker signature key code = checker signature key code'

/-- What was asked and what was answered, whatever the code. -/
def SignatureQuery.answer (q : SignatureQuery) : Bytes × Bytes × Bool :=
  (q.signature, q.key, q.accepted)

/-- The context with another place where the signed code starts. -/
def Context.signedFrom (ctx : Context) (start : Nat) : Context :=
  { ctx with codeStart := start }

@[simp] theorem Context.signedFrom_stack (ctx : Context) (start : Nat) :
    (ctx.signedFrom start).stack = ctx.stack := rfl

@[simp] theorem Context.signedFrom_isExecuting (ctx : Context) (start : Nat) :
    (ctx.signedFrom start).isExecuting = ctx.isExecuting := rfl

namespace Outcome

/-- The answers that an outcome has got, in order. -/
def answers (o : Outcome) : List (Bytes × Bytes × Bool) :=
  o.queries.map SignatureQuery.answer

def signedFrom (o : Outcome) (start : Nat) : Outcome :=
  { o with context := o.context.signedFrom start }

/-- Two outcomes that differ at most in the signed code: in what the questions hand over, and in
where it starts, which are places related as given. -/
structure Agrees (starts : Nat → Nat → Prop) (o o' : Outcome) : Prop where
  result : o'.result = o.result
  answers : o'.answers = o.answers
  context : ∃ start, starts o.context.codeStart start ∧ o'.context = o.context.signedFrom start

variable {starts starts' : Nat → Nat → Prop} {o o' : Outcome} {ctx : Context} {start : Nat}

theorem agrees_signedFrom (h : starts o.context.codeStart start) :
    o.Agrees starts (o.signedFrom start) :=
  ⟨rfl, rfl, start, h, rfl⟩

theorem agrees_ok (h : starts ctx.codeStart start) :
    (ok ctx).Agrees starts (ok (ctx.signedFrom start)) :=
  agrees_signedFrom h

theorem agrees_fail {error : ScriptError} (h : starts ctx.codeStart start) :
    (fail error ctx).Agrees starts (fail error (ctx.signedFrom start)) :=
  agrees_signedFrom h

theorem answers_asked (queries : List SignatureQuery) (o : Outcome) :
    (o.asked queries).answers = queries.map SignatureQuery.answer ++ o.answers :=
  List.map_append

theorem Agrees.asked {queries queries' : List SignatureQuery} (h : o.Agrees starts o')
    (same : queries'.map SignatureQuery.answer = queries.map SignatureQuery.answer) :
    (o.asked queries).Agrees starts (o'.asked queries') where
  result := h.result
  answers := by rw [answers_asked, answers_asked, same, h.answers]
  context := h.context

theorem Agrees.mono (h : o.Agrees starts o') (le : ∀ i j, starts i j → starts' i j) :
    o.Agrees starts' o' := by
  obtain ⟨start, related, context⟩ := h.context
  exact ⟨h.result, h.answers, start, le _ _ related, context⟩

theorem Agrees.andThen {next next' : Context → Outcome} (h : o.Agrees starts o')
    (hnext : ∀ ctx start, starts ctx.codeStart start →
      (next ctx).Agrees starts (next' (ctx.signedFrom start))) :
    (o.andThen next).Agrees starts (o'.andThen next') := by
  cases result : o.result with
  | error error =>
    rw [andThen_of_error next result, andThen_of_error next' (h.result.trans result)]
    exact h
  | ok =>
    obtain ⟨start, related, context⟩ := h.context
    rw [andThen_of_ok next result, andThen_of_ok next' (h.result.trans result), context]
    exact (hnext _ _ related).asked h.answers

theorem conclude_signedFrom (ctx : Context) (start : Nat) (demand : Bool) (error : ScriptError)
    (success : Bool) :
    conclude (ctx.signedFrom start) demand error success =
      (conclude ctx demand error success).signedFrom start := by
  unfold conclude
  cases demand
  · rfl
  · cases success <;> rfl

theorem agrees_conclude {demand success : Bool} {error : ScriptError}
    (h : starts ctx.codeStart start) :
    (conclude ctx demand error success).Agrees starts
      (conclude (ctx.signedFrom start) demand error success) := by
  rw [conclude_signedFrom]
  refine agrees_signedFrom ?_
  rw [Context.codeStart_eq_of_counters (conclude_counters demand error success)]
  exact h

end Outcome

section Steps

variable {starts : Nat → Nat → Prop} {env : Environment} {script script' : Script}
  {index shift start : Nat} {ctx : Context}

/-- What neither asks nor separates sees nothing of the signed code, and not where it stands
itself. -/
theorem Instruction.run_signedFrom {instruction : Instruction} {index' : Nat}
    (silent : instruction.asks = false) (moves : instruction ≠ .codeSeparator) (start : Nat) :
    instruction.run env script' index' (ctx.signedFrom start) =
      (instruction.run env script index ctx).signedFrom start := by
  by_cases stackOnly : instruction.isStackOnly = true
  · calc
      instruction.run env script' index' (ctx.signedFrom start)
        = (instruction.run env script index ctx).onto (ctx.signedFrom start) :=
          run_onto stackOnly ctx (ctx.signedFrom start)
      _ = ((instruction.run env script index ctx).onto ctx).signedFrom start := rfl
      _ = (instruction.run env script index ctx).signedFrom start := by
          rw [← run_eq_onto stackOnly]
  · have changes (r : Except ScriptError Conditionals) (ctx : Context) :
        (ctx.signedFrom start).setConditionals r = (ctx.setConditionals r).signedFrom start := by
      cases r <;> rfl
    cases instruction with
    | openIf negated =>
      show (ctx.signedFrom start).openIf negated = (ctx.openIf negated).signedFrom start
      unfold Context.openIf
      rw [Context.signedFrom_isExecuting, Context.signedFrom_stack]
      split
      · split
        · next x rest _ => exact changes _ { ctx with stack := rest }
        · rfl
      · exact changes _ ctx
    | otherwise => exact changes _ ctx
    | endIf => exact changes _ ctx
    | codeSeparator => exact absurd rfl moves
    | checkSig demand => cases silent
    | checkMultiSig demand => cases silent
    | _ => exact absurd rfl stackOnly

theorem Environment.ask_answer (ignores : env.checker.IgnoresCode)
    (signature key code code' : Bytes) :
    (env.ask signature key code').answer = (env.ask signature key code).answer := by
  have same : env.checker signature key code' = env.checker signature key code :=
    ignores signature key code' code
  show (signature, key, env.checker signature key code') = _
  rw [same]
  rfl

theorem Context.checkSig_agrees (ignores : env.checker.IgnoresCode) (demand : Bool)
    (h : starts ctx.codeStart start) :
    (ctx.checkSig env script demand).Agrees starts
      ((ctx.signedFrom start).checkSig env script' demand) := by
  unfold checkSig
  rw [signedFrom_stack]
  split
  · next key signature rest _ =>
    split
    · have same : (env.ask signature key
            (script'.codeFrom (ctx.signedFrom start).codeStart [signature])).accepted =
          (env.ask signature key (script.codeFrom ctx.codeStart [signature])).accepted :=
        ignores _ _ _ _
      dsimp only
      rw [same]
      refine (@Outcome.agrees_conclude _ { ctx with stack := rest } _ _ _ _ h).asked ?_
      exact congrArg (fun answer => [answer]) (Environment.ask_answer ignores _ _ _ _)
    · exact Outcome.agrees_fail h
  · exact Outcome.agrees_fail h

/-- The code is handed through a scan and never looked at by it. -/
theorem MultiSig.scan_code (ignores : env.checker.IgnoresCode) (code code' : Bytes)
    (signatures keys : List Bytes) :
    (scan env code' signatures keys).result = (scan env code signatures keys).result ∧
      (scan env code' signatures keys).queries.map SignatureQuery.answer =
        (scan env code signatures keys).queries.map SignatureQuery.answer := by
  induction keys generalizing signatures with
  | nil => cases signatures <;> exact ⟨rfl, rfl⟩
  | cons key keys ih =>
    cases signatures with
    | nil => exact ⟨rfl, rfl⟩
    | cons signature signatures =>
      unfold scan
      split
      · exact ⟨rfl, rfl⟩
      · split
        · have same : (env.ask signature key code').accepted =
              (env.ask signature key code).accepted := ignores signature key code' code
          dsimp only
          rw [same]
          obtain ⟨result, answers⟩ := ih
            (if (env.ask signature key code).accepted then signatures else signature :: signatures)
          refine ⟨result, ?_⟩
          rw [List.map_cons, List.map_cons, answers, Environment.ask_answer ignores]
        · exact ⟨rfl, rfl⟩

theorem MultiSig.judge_agrees (ignores : env.checker.IgnoresCode) (demand : Bool)
    (args : Arguments) (h : starts ctx.codeStart start) :
    (judge env script demand ctx args).Agrees starts
      (judge env script' demand (ctx.signedFrom start) args) := by
  obtain ⟨result, answers⟩ := scan_code ignores
    (script.codeFrom ctx.codeStart args.signatures)
    (script'.codeFrom (ctx.signedFrom start).codeStart args.signatures) args.signatures args.keys
  unfold judge
  dsimp only
  rw [result]
  split
  · refine Outcome.Agrees.asked ?_ answers
    unfold finish
    split
    · exact @Outcome.agrees_fail _ { ctx with stack := args.spare :: args.rest } _ _ h
    · exact @Outcome.agrees_conclude _ { ctx with stack := args.rest } _ _ _ _ h
  · exact (Outcome.agrees_fail h).asked answers

theorem Context.countOps_signedFrom (ctx : Context) (n start : Nat) :
    (ctx.signedFrom start).countOps n = (ctx.countOps n).signedFrom start := by
  unfold countOps signedFrom
  dsimp only
  split <;> rfl

theorem Context.countOps_agrees (n : Nat) (h : starts ctx.codeStart start) :
    (ctx.countOps n).Agrees starts ((ctx.signedFrom start).countOps n) := by
  rw [countOps_signedFrom]
  refine Outcome.agrees_signedFrom ?_
  rw [countOps_context]
  exact h

theorem Context.checkMultiSig_agrees (ignores : env.checker.IgnoresCode) (demand : Bool)
    (h : starts ctx.codeStart start) :
    (ctx.checkMultiSig env script demand).Agrees starts
      ((ctx.signedFrom start).checkMultiSig env script' demand) := by
  unfold checkMultiSig
  rw [signedFrom_stack]
  split
  · refine (countOps_agrees _ h).andThen fun ctx start h => ?_
    rw [signedFrom_stack]
    split
    · exact MultiSig.judge_agrees ignores demand _ h
    · exact Outcome.agrees_fail h
  · exact Outcome.agrees_fail h

/-- The same instruction at two places; a separator there moves the start of the code to places that
are related. -/
theorem Instruction.run_agrees (ignores : env.checker.IgnoresCode)
    (places : ∀ i, starts i (i + shift)) (instruction : Instruction)
    (h : starts ctx.codeStart start) :
    (instruction.run env script index ctx).Agrees starts
      (instruction.run env script' (index + shift) (ctx.signedFrom start)) := by
  by_cases separates : instruction = .codeSeparator
  · subst separates
    have behind : starts (index + 1) (index + shift + 1) := by
      rw [Nat.add_right_comm]
      exact places (index + 1)
    exact @Outcome.agrees_ok _ { ctx with codeStart := index + 1 } _ behind
  · by_cases silent : instruction.asks = false
    · rw [run_signedFrom silent separates]
      refine Outcome.agrees_signedFrom ?_
      rw [run_codeStart separates]
      exact h
    · cases instruction with
      | checkSig demand => exact Context.checkSig_agrees ignores demand h
      | checkMultiSig demand => exact Context.checkMultiSig_agrees ignores demand h
      | _ => exact absurd rfl silent

theorem Context.pushData_agrees (flags : Flags) (form : PushForm) (data : Bytes)
    (h : starts ctx.codeStart start) :
    (ctx.pushData flags form data).Agrees starts
      ((ctx.signedFrom start).pushData flags form data) := by
  unfold pushData
  rw [signedFrom_isExecuting]
  split
  · exact Outcome.agrees_fail h
  · split
    · exact Outcome.agrees_ok h
    · split
      · exact Outcome.agrees_fail h
      · exact @Outcome.agrees_ok _ (ctx.push data) _ h

theorem Operation.count_agrees (op : Operation) (h : starts ctx.codeStart start) :
    (op.count ctx).Agrees starts (op.count (ctx.signedFrom start)) := by
  unfold count
  split
  · exact Context.countOps_agrees 1 h
  · exact Outcome.agrees_ok h

theorem Context.checkDepth_agrees (ctx : Context) (start : Nat) (h : starts ctx.codeStart start) :
    ctx.checkDepth.Agrees starts (ctx.signedFrom start).checkDepth := by
  have depth : (ctx.signedFrom start).depth = ctx.depth := rfl
  unfold checkDepth
  rw [depth]
  split
  · exact Outcome.agrees_fail h
  · exact Outcome.agrees_ok h

theorem Operation.step_agrees (ignores : env.checker.IgnoresCode)
    (places : ∀ i, starts i (i + shift)) (op : Operation) (h : starts ctx.codeStart start) :
    (op.step env script index ctx).Agrees starts
      (op.step env script' (index + shift) (ctx.signedFrom start)) := by
  refine Outcome.Agrees.andThen ?_ Context.checkDepth_agrees
  cases op with
  | push form data => exact Context.pushData_agrees _ form data h
  | code opcode =>
    unfold run
    refine (count_agrees _ h).andThen fun ctx start h => ?_
    dsimp only
    rw [Context.signedFrom_isExecuting]
    split
    · exact Outcome.agrees_fail h
    · split
      · exact Instruction.run_agrees ignores places _ h
      · exact Outcome.agrees_ok h

theorem Context.checkClosed_agrees (ctx : Context) (start : Nat) (h : starts ctx.codeStart start) :
    ctx.checkClosed.Agrees starts (ctx.signedFrom start).checkClosed := by
  have conditionals : (ctx.signedFrom start).conditionals = ctx.conditionals := rfl
  unfold checkClosed
  rw [conditionals]
  split
  · exact Outcome.agrees_ok h
  · exact Outcome.agrees_fail h

end Steps

namespace Script

variable {starts : Nat → Nat → Prop} {env : Environment} {script script' : Script}
  {ctx : Context}

/-- Operations do the same wherever they stand and whatever stands around them. -/
theorem runFrom_agrees (ignores : env.checker.IgnoresCode) {shift : Nat}
    (places : ∀ i, starts i (i + shift)) (ops : List Operation) (index : Nat) (ctx : Context)
    (start : Nat) (h : starts ctx.codeStart start) :
    (script.runFrom env index ops ctx).Agrees starts
      (script'.runFrom env (index + shift) ops (ctx.signedFrom start)) := by
  induction ops generalizing index ctx start with
  | nil => exact Outcome.agrees_ok h
  | cons op ops ih =>
    have next : index + shift + 1 = index + 1 + shift := Nat.add_right_comm index shift 1
    rw [runFrom, runFrom, next]
    exact (op.step_agrees ignores places h).andThen (ih (index + 1))

theorem decode_append {a b : Bytes} {first second : Script} (ha : decode a = .ok first)
    (hb : decode b = .ok second) (short : (a ++ b).length ≤ Limits.scriptSize) :
    decode (a ++ b) = .ok (first ++ second) := by
  obtain ⟨_, rfl, wellFormedFirst⟩ := decode_eq_ok_iff.1 ha
  obtain ⟨_, rfl, wellFormedSecond⟩ := decode_eq_ok_iff.1 hb
  refine decode_eq_ok_iff.2 ⟨short, List.flatMap_append, fun op mem => ?_⟩
  rcases List.mem_append.1 mem with mem | mem
  · exact wellFormedFirst op mem
  · exact wellFormedSecond op mem

/-- The operations of the first script do the same with the second one behind them. -/
theorem runFrom_append_left (ignores : env.checker.IgnoresCode) (first second : Script)
    (ctx : Context) :
    (first.runFrom env 0 first ctx).Agrees Eq (runFrom (first ++ second) env 0 first ctx) :=
  @runFrom_agrees Eq env first (first ++ second) ignores 0 (fun _ => rfl) first 0 ctx
    ctx.codeStart rfl

/-- The whole script goes through the operations of the first one, then through those of the second
one at the places behind. -/
theorem execute_append (first second : Script) (ctx : Context) :
    (first ++ second).execute env ctx = (runFrom (first ++ second) env 0 first ctx).andThen
      fun ctx => (runFrom (first ++ second) env (0 + first.length) second ctx).andThen
        Context.checkClosed := by
  unfold execute
  rw [runFrom_append, Outcome.andThen_assoc]

theorem execute_of_runFrom_error {error : ScriptError}
    (fails : (script.runFrom env 0 script ctx).result = .error error) :
    script.execute env ctx = script.runFrom env 0 script ctx :=
  Outcome.andThen_of_error _ fails

/-- A script that succeeds has closed its conditionals, so nothing is done at its end. -/
theorem execute_eq_runFrom (succeeds : (script.execute env ctx).result = .ok ()) :
    script.execute env ctx = script.runFrom env 0 script ctx := by
  cases ran : (script.runFrom env 0 script ctx).result with
  | error error => exact execute_of_runFrom_error ran
  | ok =>
    have closes : (script.runFrom env 0 script ctx).context.checkClosed.result = .ok () := by
      unfold execute at succeeds
      rwa [Outcome.andThen_of_ok _ ran] at succeeds
    have closed : (script.runFrom env 0 script ctx).context.checkClosed =
        .ok (script.runFrom env 0 script ctx).context := by
      unfold Context.checkClosed at closes ⊢
      split
      · rfl
      · next isOpen =>
        rw [if_neg isOpen] at closes
        cases closes
    calc
      script.execute env ctx
        = (Outcome.ok (script.runFrom env 0 script ctx).context).asked
            (script.runFrom env 0 script ctx).queries := by
          unfold execute
          rw [Outcome.andThen_of_ok _ ran, closed]
      _ = (script.runFrom env 0 script ctx).andThen .ok := (Outcome.andThen_of_ok _ ran).symm
      _ = script.runFrom env 0 script ctx := Outcome.andThen_ok _

/-- Up to the places in the signed code, the whole script does what its parts do in order. -/
theorem execute_append_agrees (ignores : env.checker.IgnoresCode) (first second : Script)
    (succeeds : (first.execute env ctx).result = .ok ()) :
    ((first.execute env ctx).andThen (second.execute env)).Agrees (fun _ _ => True)
      ((first ++ second).execute env ctx) := by
  rw [execute_eq_runFrom succeeds, execute_append]
  refine ((runFrom_append_left ignores first second ctx).mono fun _ _ _ => trivial).andThen
    fun ctx start _ => ?_
  exact (runFrom_agrees ignores (fun _ => trivial) second 0 ctx start trivial).andThen
    fun ctx start _ => ctx.checkClosed_agrees start trivial

/-- The bytes of two scripts one after the other are those of one script, and for a checker that
does not look at the signed code its run is the two runs in order. If the first script succeeds,
then all is the same but the place where the signed code starts; if one of its operations fails,
then the whole script fails there as well. -/
theorem execute_concatenation {a b : Bytes} {first second : Script} (ha : decode a = .ok first)
    (hb : decode b = .ok second) (short : (a ++ b).length ≤ Limits.scriptSize) :
    decode (a ++ b) = .ok (first ++ second) ∧
      ∀ (env : Environment) (ctx : Context), env.checker.IgnoresCode →
        let whole := (first ++ second).execute env ctx
        let inOrder := (first.execute env ctx).andThen (second.execute env)
        ((first.execute env ctx).result = .ok () →
          whole.result = inOrder.result ∧ whole.answers = inOrder.answers ∧
            ∃ start, whole.context = inOrder.context.signedFrom start) ∧
        ∀ error, (first.runFrom env 0 first ctx).result = .error error →
          whole.result = .error error ∧ whole.context = (first.execute env ctx).context ∧
            whole.answers = (first.execute env ctx).answers := by
  refine ⟨decode_append ha hb short, fun env ctx ignores => ⟨fun succeeds => ?_, ?_⟩⟩
  · obtain ⟨result, answers, start, _, context⟩ :=
      execute_append_agrees ignores first second succeeds
    exact ⟨result, answers, start, context⟩
  · intro error fails
    obtain ⟨result, answers, start, same, context⟩ :=
      runFrom_append_left ignores first second ctx
    have stops := Outcome.andThen_of_error
      (fun ctx => (runFrom (first ++ second) env (0 + first.length) second ctx).andThen
        Context.checkClosed) (result.trans fails)
    rw [execute_append, stops, execute_of_runFrom_error fails]
    refine ⟨result.trans fails, ?_, answers⟩
    rw [context, ← same]
    rfl

/-- The second script alone signs its own code, and in the whole script what stands behind the
separator; the answers are the same. -/
theorem execute_concatenation_separator :
    let env : Environment := { checker := fun signature key _ => signature == [1] && key == [2] }
    let whole := execute [.code 0xab, .code 0xac] env { stack := [[2], [1]] }
    decode [0xab, 0xac] = .ok [.code 0xab, .code 0xac] ∧ whole.result = .ok () ∧
      whole.context.stack = [[1]] ∧ whole.answers = [([1], [2], true)] := by
  intro env whole
  have separator : decode [0xab] = .ok [.code 0xab] :=
    @decode_encode [.code 0xab] (by decide) (by decide)
  have check : decode [0xac] = .ok [.code 0xac] :=
    @decode_encode [.code 0xac] (by decide) (by decide)
  have ignores : env.checker.IgnoresCode := fun _ _ _ _ => rfl
  let inOrder := (execute [.code 0xab] env { stack := [[2], [1]] }).andThen
    (execute [.code 0xac] env)
  have accepts : inOrder.result = .ok () := by decide +kernel
  have pushes : inOrder.context.stack = [[1]] := by decide +kernel
  have asks : inOrder.answers = [([1], [2], true)] := by decide +kernel
  obtain ⟨decoded, runs⟩ := execute_concatenation separator check (by decide)
  obtain ⟨result, answers, start, context⟩ := (runs env { stack := [[2], [1]] } ignores).1 rfl
  have stack : whole.context.stack = (inOrder.context.signedFrom start).stack :=
    congrArg Context.stack context
  rw [Context.signedFrom_stack] at stack
  exact ⟨decoded, result.trans accepts, stack.trans pushes, answers.trans asks⟩

end Script
end SpendScript
