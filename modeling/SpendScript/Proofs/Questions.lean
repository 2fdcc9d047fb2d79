import SpendScript.Proofs.Frames
import SpendScript.Proofs.KeyMatching

/-!
# What operations ask

Only the checks of signatures ask the checker, and only where they are executed. A question is about
a signature that the check finds on the stack, and the pair has passed the encoding rules before it
is asked. What the signature commits to is the code from the context's start on, without the
pushes of all signatures of the check.
-/
set_option autoImplicit false

namespace SpendScript

/-- The element can be read as a number, and it is this one. -/
def Flags.Reads (flags : Flags) (x : Bytes) (n : Nat) : Prop :=
  ∃ number, flags.readNumber x = .ok number ∧ number.value = n

/-- The instruction is a check, and these are the signatures that it finds on the stack: the one
below a key, or those below a number, as many keys and their own number. -/
def Instruction.TakesSignatures (instruction : Instruction) (flags : Flags) (stack : Stack)
    (signatures : List Bytes) : Prop :=
  match instruction with
  | .checkSig _ => ∃ key signature rest, stack = key :: signature :: rest ∧ signatures = [signature]
  | .checkMultiSig _ => ∃ n keys m rest, stack = n :: (keys ++ m :: (signatures ++ rest)) ∧
      flags.Reads n keys.length ∧ flags.Reads m signatures.length
  | _ => False

theorem Instruction.TakesSignatures.asks {instruction : Instruction} {flags : Flags} {stack : Stack}
    {signatures : List Bytes} (h : instruction.TakesSignatures flags stack signatures) :
    instruction.asks = true := by
  cases instruction with
  | checkSig demand => rfl
  | checkMultiSig demand => rfl
  | _ => cases h

theorem Instruction.isConditional_of_asks {instruction : Instruction}
    (asks : instruction.asks = true) : instruction.isConditional = false := by
  cases instruction with
  | checkSig demand => rfl
  | checkMultiSig demand => rfl
  | _ => cases asks

/-- A question that the instruction may ask about one of the signatures that it takes. -/
structure Instruction.Question (instruction : Instruction) (env : Environment) (script : Script)
    (ctx : Context) (signatures : List Bytes) (q : SignatureQuery) : Prop where
  taken : instruction.TakesSignatures env.flags ctx.stack signatures
  mem : q.signature ∈ signatures
  allowed : env.flags.checkEncodings q.signature q.key = .ok ()
  asked : q = env.ask q.signature q.key (script.codeFrom ctx.codeStart signatures)

section Queries

variable {env : Environment} {script : Script} {index : Nat} {ctx : Context}

@[simp] theorem Outcome.asked_queries (queries : List SignatureQuery) (o : Outcome) :
    (o.asked queries).queries = queries ++ o.queries := rfl

@[simp] theorem Outcome.ofStack_queries (r : Except ScriptError Stack) :
    (ofStack ctx r).queries = [] := by
  cases r <;> rfl

@[simp] theorem Outcome.conclude_queries (demand : Bool) (error : ScriptError) (success : Bool) :
    (conclude ctx demand error success).queries = [] := by
  unfold conclude
  cases demand
  · rfl
  · cases success <;> rfl

@[simp] theorem Context.setConditionals_queries (r : Except ScriptError Conditionals) :
    (ctx.setConditionals r).queries = [] := by
  cases r <;> rfl

@[simp] theorem Context.countOps_queries (n : Nat) : (ctx.countOps n).queries = [] := by
  unfold countOps
  dsimp only
  split <;> rfl

/-- The count stays, whether or not it passes the limit. -/
@[simp] theorem Context.countOps_context (n : Nat) :
    (ctx.countOps n).context = { ctx with opCount := ctx.opCount + n } := by
  unfold countOps
  dsimp only
  split <;> rfl

@[simp] theorem Operation.count_queries (op : Operation) : (op.count ctx).queries = [] := by
  unfold count
  split
  · exact Context.countOps_queries 1
  · rfl

theorem Operation.count_context (op : Operation) :
    ∃ n, ctx.opCount ≤ n ∧ (op.count ctx).context = { ctx with opCount := n } := by
  unfold count
  split
  · exact ⟨ctx.opCount + 1, Nat.le_succ _, Context.countOps_context 1⟩
  · exact ⟨ctx.opCount, Nat.le_refl _, rfl⟩

@[simp] theorem Context.checkDepth_queries : ctx.checkDepth.queries = [] := by
  unfold checkDepth
  split <;> rfl

@[simp] theorem Context.checkClosed_queries : ctx.checkClosed.queries = [] := by
  unfold checkClosed
  split <;> rfl

theorem Outcome.andThen_queries_of_ok {o : Outcome} (next : Context → Outcome)
    (succeeds : o.result = .ok ()) :
    (o.andThen next).queries = o.queries ++ (next o.context).queries := by
  rw [andThen_of_ok next succeeds]
  rfl

/-- A question of two parts is one of the first, or one of the second after the first succeeded. -/
theorem Outcome.mem_andThen_queries {o : Outcome} {next : Context → Outcome} {q : SignatureQuery}
    (h : q ∈ (o.andThen next).queries) :
    q ∈ o.queries ∨ o.result = .ok () ∧ q ∈ (next o.context).queries := by
  cases result : o.result with
  | error error =>
    rw [andThen_of_error next result] at h
    exact Or.inl h
  | ok =>
    rw [andThen_queries_of_ok next result] at h
    exact (List.mem_append.1 h).imp_right fun later => ⟨rfl, later⟩

theorem Context.pickOrRoll_queries (flags : Flags) (move : Bool) :
    (ctx.pickOrRoll flags move).queries = [] := by
  unfold pickOrRoll
  split
  · split
    · dsimp only
      split
      · exact Outcome.ofStack_queries _
      · rfl
    · rfl
  · rfl

theorem Context.openIf_queries (negated : Bool) : (ctx.openIf negated).queries = [] := by
  unfold openIf
  split
  · split
    · exact setConditionals_queries _
    · rfl
  · exact setConditionals_queries _

/-- An instruction that is no check asks nothing. -/
theorem Instruction.run_queries {instruction : Instruction} (silent : instruction.asks = false) :
    (instruction.run env script index ctx).queries = [] := by
  cases instruction with
  | checkSig demand => cases silent
  | checkMultiSig demand => cases silent
  | openIf negated => exact Context.openIf_queries negated
  | pick => exact Context.pickOrRoll_queries _ _
  | roll => exact Context.pickOrRoll_queries _ _
  | otherwise => exact Context.setConditionals_queries _
  | endIf => exact Context.setConditionals_queries _
  | shuffle op => exact Outcome.ofStack_queries _
  | unary op => exact Outcome.ofStack_queries _
  | binary op => exact Outcome.ofStack_queries _
  | within => exact Outcome.ofStack_queries _
  | equal demand =>
    unfold run
    dsimp only
    split
    · exact Outcome.conclude_queries _ _ _
    · rfl
  | numEqualVerify =>
    unfold run
    dsimp only
    split
    · exact Outcome.conclude_queries _ _ _
    · rfl
  | verify =>
    unfold run
    dsimp only
    split
    · split <;> rfl
    · rfl
  | upgradableNop | toAltStack | fromAltStack | size | hash =>
    unfold run
    dsimp only
    split <;> rfl
  | _ => rfl

end Queries

namespace MultiSig

variable {env : Environment} {code : Bytes}

theorem mem_scan_queries {signatures keys : List Bytes} {q : SignatureQuery}
    (h : q ∈ (scan env code signatures keys).queries) :
    q.signature ∈ signatures ∧ env.flags.checkEncodings q.signature q.key = .ok () ∧
      q = env.ask q.signature q.key code := by
  induction keys generalizing signatures with
  | nil => cases signatures <;> cases h
  | cons key keys ih =>
    cases signatures with
    | nil => cases h
    | cons signature signatures =>
      rw [scan] at h
      split at h
      · cases h
      · split at h
        · next allowed =>
          rcases List.mem_cons.1 h with rfl | later
          · exact ⟨List.mem_cons_self, allowed, rfl⟩
          -- the first signature may be gone, but no other one has come
          · obtain ⟨mem, rest⟩ := ih later
            refine ⟨?_, rest⟩
            split at mem
            · exact List.mem_cons_of_mem _ mem
            · exact mem
        · cases h

theorem scan_queries_length_le (signatures keys : List Bytes) :
    (scan env code signatures keys).queries.length ≤ keys.length := by
  have asked : (scan env code signatures keys).queries <+:
      (attempts env code signatures keys).map (askPair env code) :=
    scan_queries_prefix signatures keys
  have tried : (attempts env code signatures keys).map Prod.snd <+: keys :=
    attempts_keys_prefix signatures keys
  have few := asked.length_le
  have fewer := tried.length_le
  rw [List.length_map] at few fewer
  exact few.trans fewer

/-- Where a check of several signatures finds what it takes from the stack. -/
theorem stack_eq_of_readArguments {flags : Flags} {stack : Stack} {keyCount : Nat}
    {args : Arguments} (counted : readKeyCount flags stack = .ok keyCount)
    (read : readArguments flags keyCount stack = .ok args) :
    ∃ n m, stack = n :: (args.keys ++ m :: (args.signatures ++ args.spare :: args.rest)) ∧
      flags.Reads n args.keys.length ∧ flags.Reads m args.signatures.length := by
  have many : args.keys.length = keyCount := keys_length read
  obtain ⟨m, hm, sigsCounted, hkeys, hsigs, hbelow⟩ := readArguments_eq_ok read
  cases stack with
  | nil => cases counted
  | cons n tail =>
    obtain ⟨number, hn, value, _⟩ := readCount_eq_ok_iff.1 counted
    obtain ⟨number', hm', value', _⟩ := readCount_eq_ok_iff.1 sigsCounted
    refine ⟨n, m, ?_, ⟨number, hn, many ▸ value⟩, ⟨number', hm', value'⟩⟩
    have keys : args.keys = tail.take keyCount := hkeys
    have found : tail[keyCount]? = some m := hm
    have sigs : args.signatures = (tail.drop (keyCount + 1)).take args.signatures.length := hsigs
    have below : args.spare :: args.rest =
        (tail.drop (keyCount + 1)).drop args.signatures.length := by
      rw [hbelow, List.drop_drop]
      have same : keyCount + 2 + args.signatures.length =
          keyCount + 1 + args.signatures.length + 1 := by omega
      rw [same, List.drop_succ_cons]
    have middle : tail.drop keyCount = m :: tail.drop (keyCount + 1) := by
      obtain ⟨inRange, same⟩ := List.getElem?_eq_some_iff.1 found
      rw [← same]
      exact List.drop_eq_getElem_cons inRange
    have lower : args.signatures ++ args.spare :: args.rest = tail.drop (keyCount + 1) :=
      calc
        args.signatures ++ args.spare :: args.rest
          = (tail.drop (keyCount + 1)).take args.signatures.length ++
              (tail.drop (keyCount + 1)).drop args.signatures.length := by rw [below, ← sigs]
        _ = tail.drop (keyCount + 1) := List.take_append_drop _ _
    rw [lower, ← middle, keys, List.take_append_drop]

end MultiSig

section Asking

variable {env : Environment} {script : Script} {index : Nat} {ctx : Context} {q : SignatureQuery}

/-- A single check fails and leaves everything as it was, or asks about the pair on top. -/
theorem Context.checkSig_cases (demand : Bool) :
    (∃ error, ctx.checkSig env script demand = .fail error ctx) ∨
    ∃ key signature rest query, ctx.stack = key :: signature :: rest ∧
      env.flags.checkEncodings signature key = .ok () ∧
      query = env.ask signature key (script.codeFrom ctx.codeStart [signature]) ∧
      ctx.checkSig env script demand =
        (Outcome.conclude { ctx with stack := rest } demand .checkSigVerify query.accepted).asked
          [query] := by
  unfold checkSig
  split
  · next key signature rest stack =>
    split
    · next allowed => exact Or.inr ⟨key, signature, rest, _, stack, allowed, rfl, rfl⟩
    · next error _ => exact Or.inl ⟨error, rfl⟩
  · exact Or.inl ⟨_, rfl⟩

/-- A check of several signatures fails without a question, and then it has changed the count at
most, or it has counted its keys within the limit and judges what it found below them. -/
theorem Context.checkMultiSig_cases (demand : Bool) :
    (∃ error n, ctx.opCount ≤ n ∧
      ctx.checkMultiSig env script demand = .fail error { ctx with opCount := n }) ∨
    ∃ keyCount args, MultiSig.readKeyCount env.flags ctx.stack = .ok keyCount ∧
      ctx.opCount + keyCount ≤ Limits.opsPerScript ∧
      MultiSig.readArguments env.flags keyCount ctx.stack = .ok args ∧
      ctx.checkMultiSig env script demand =
        MultiSig.judge env script demand { ctx with opCount := ctx.opCount + keyCount } args := by
  unfold checkMultiSig
  split
  · next keyCount counted =>
    by_cases within : ctx.opCount + keyCount ≤ Limits.opsPerScript
    · rw [countOps_of_le within, Outcome.ok_andThen]
      split
      · next args read => exact Or.inr ⟨keyCount, args, counted, within, read, rfl⟩
      · next error _ => exact Or.inl ⟨error, _, Nat.le_add_right _ _, rfl⟩
    · rw [countOps_of_lt (Nat.lt_of_not_le within), Outcome.fail_andThen]
      exact Or.inl ⟨_, _, Nat.le_add_right _ _, rfl⟩
  · next error _ => exact Or.inl ⟨error, ctx.opCount, Nat.le_refl _, rfl⟩

theorem Context.mem_checkSig_queries {demand : Bool}
    (h : q ∈ (ctx.checkSig env script demand).queries) :
    ∃ signatures, (Instruction.checkSig demand).Question env script ctx signatures q := by
  rcases ctx.checkSig_cases demand with
    ⟨error, fails⟩ | ⟨key, signature, rest, query, stack, allowed, asked, asks⟩
  · rw [fails] at h
    cases h
  · rw [asks, Outcome.asked_queries, Outcome.conclude_queries, List.append_nil] at h
    have same : q = query := List.mem_singleton.1 h
    rw [same, asked]
    exact ⟨[signature], ⟨key, signature, rest, stack, rfl⟩, List.mem_singleton_self signature,
      allowed, rfl⟩

theorem Context.mem_checkMultiSig_queries {demand : Bool}
    (h : q ∈ (ctx.checkMultiSig env script demand).queries) :
    ∃ signatures, (Instruction.checkMultiSig demand).Question env script ctx signatures q := by
  rcases ctx.checkMultiSig_cases demand with
    ⟨error, n, _, fails⟩ | ⟨keyCount, args, counted, _, read, judges⟩
  · rw [fails] at h
    cases h
  · rw [judges, MultiSig.judge_queries] at h
    obtain ⟨n, m, taken⟩ := MultiSig.stack_eq_of_readArguments counted read
    obtain ⟨mem, allowed, asked⟩ := MultiSig.mem_scan_queries h
    exact ⟨args.signatures, ⟨n, args.keys, m, args.spare :: args.rest, taken⟩, mem, allowed, asked⟩

theorem Instruction.mem_run_queries {instruction : Instruction}
    (h : q ∈ (instruction.run env script index ctx).queries) :
    ∃ signatures, instruction.Question env script ctx signatures q := by
  by_cases silent : instruction.asks = false
  · rw [run_queries silent] at h
    cases h
  · cases instruction with
    | checkSig demand => exact Context.mem_checkSig_queries h
    | checkMultiSig demand => exact Context.mem_checkMultiSig_queries h
    | _ => exact absurd rfl silent

theorem Context.pushData_queries (flags : Flags) (form : PushForm) (data : Bytes) :
    (ctx.pushData flags form data).queries = [] := by
  unfold pushData
  split
  · rfl
  · split
    · rfl
    · split <;> rfl

/-- Every question of a step is one of a check that is executed, about a signature that the check
takes from the stack before it. -/
theorem Operation.mem_step_queries {op : Operation}
    (h : q ∈ (op.step env script index ctx).queries) :
    ctx.isExecuting = true ∧
      ∃ signatures, op.instruction.Question env script ctx signatures q := by
  rcases Outcome.mem_andThen_queries h with h | ⟨_, deep⟩
  · cases op with
    | push form data =>
      have none : ((Operation.push form data).run env script index ctx).queries = [] :=
        Context.pushData_queries _ form data
      rw [none] at h
      cases h
    | code opcode =>
      rcases Outcome.mem_andThen_queries h with before | ⟨_, h⟩
      · rw [count_queries] at before
        cases before
      · -- the count of the operation is no part of what a question depends on
        obtain ⟨n, _, counted⟩ : ∃ n, ctx.opCount ≤ n ∧
            ((Operation.code opcode).count ctx).context = { ctx with opCount := n } :=
          (Operation.code opcode).count_context
        rw [counted] at h
        dsimp only at h
        split at h
        · cases h
        · split at h
          · next looked =>
            obtain ⟨signatures, question⟩ := Instruction.mem_run_queries h
            have straight := Instruction.isConditional_of_asks question.taken.asks
            rw [straight, Bool.or_false] at looked
            exact ⟨looked, signatures, question.taken, question.mem, question.allowed,
              question.asked⟩
          · cases h
  · rw [Context.checkDepth_queries] at deep
    cases deep

/-- A run asks what its operations ask, in the contexts in which it does them. -/
theorem Script.mem_execute_queries (h : q ∈ (script.execute env ctx).queries) :
    ∃ op index ctx, q ∈ (Operation.step op env script index ctx).queries := by
  have asked : ∀ (index : Nat) (ops : List Operation) (ctx : Context),
      q ∈ (script.runFrom env index ops ctx).queries →
        ∃ op index ctx, q ∈ (Operation.step op env script index ctx).queries := by
    intro index ops
    induction ops generalizing index with
    | nil => exact fun _ none => nomatch none
    | cons op ops ih =>
      intro ctx h
      rcases Outcome.mem_andThen_queries h with now | ⟨_, later⟩
      · exact ⟨op, index, ctx, now⟩
      · exact ih (index + 1) _ later
  rcases Outcome.mem_andThen_queries h with h | ⟨_, closed⟩
  · exact asked 0 script ctx h
  · rw [Context.checkClosed_queries] at closed
    cases closed

end Asking
end SpendScript
