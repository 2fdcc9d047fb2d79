import SpendScript.Proofs.EncodingRules
import SpendScript.Proofs.Operands
import SpendScript.Proofs.ValidSpends

/-!
# Runs under more flags

No flag changes what an operation computes: it can only make the operation fail, and then with one
of a few reasons. Two runs of a script under flags one of which contains the other are therefore
in lock step until the stricter one gives up for such a reason. The relation below says so of a
single answer, of a scan and of an outcome, and each way to put outcomes together preserves it.
-/
set_option autoImplicit false

namespace SpendScript

/-- The reasons for which a rule behind a flag refuses. A number in a longer form than needed has
no reason of its own. -/
def ScriptError.isFlagReason : ScriptError → Bool
  | .sigDer | .sigHighS | .sigHashType | .pubkeyType | .sigNullDummy | .minimalData
  | .discourageUpgradableNops | .unknown => true
  | _ => false

theorem ScriptError.isFlagReason_iff {error : ScriptError} :
    error.isFlagReason = true ↔
      error ∈ [.sigDer, .sigHighS, .sigHashType, .pubkeyType, .sigNullDummy, .minimalData,
        .discourageUpgradableNops, .unknown] := by
  cases error <;> decide

/-- The stricter of two answers is the other one, or a refusal for the reason of a flag. -/
def Tightens {α : Type} (strict lax : Except ScriptError α) : Prop :=
  strict = lax ∨ ∃ error, error.isFlagReason = true ∧ strict = .error error

/-- The stricter of two outcomes is the other one, or it gives up early for the reason of a flag,
with no question asked that the other one does not ask. -/
def Outcome.Tightens (strict lax : Outcome) : Prop :=
  strict = lax ∨ ∃ error, error.isFlagReason = true ∧ strict.result = .error error ∧
    strict.queries <+: lax.queries

/-- The same for scans. -/
def MultiSig.Scan.Tightens (strict lax : MultiSig.Scan) : Prop :=
  strict = lax ∨ ∃ error, error.isFlagReason = true ∧ strict.result = .error error ∧
    strict.queries <+: lax.queries

theorem Tightens.bind {α β : Type} {strict lax : Except ScriptError α}
    {strictNext laxNext : α → Except ScriptError β} (h : Tightens strict lax)
    (next : ∀ a, Tightens (strictNext a) (laxNext a)) :
    Tightens (strict.bind strictNext) (lax.bind laxNext) := by
  rcases h with rfl | ⟨error, flagged, rfl⟩
  · cases strict with
    | ok a => exact next a
    | error error => exact Or.inl rfl
  · exact Or.inr ⟨error, flagged, rfl⟩

namespace Outcome

variable {strict lax : Outcome}

theorem Tightens.refl (o : Outcome) : o.Tightens o := Or.inl rfl

/-- A failure for the reason of a flag, before any question, is stricter than everything. -/
theorem Tightens.of_fail {error : ScriptError} (flagged : error.isFlagReason = true)
    (ctx : Context) (lax : Outcome) : (fail error ctx).Tightens lax :=
  Or.inr ⟨error, flagged, rfl, List.nil_prefix⟩

/-- A refusal that a flag of the laxer set asks for is one that the stricter set asks for too. -/
theorem Tightens.refusal {wanted wantedLax : Bool} {error : ScriptError}
    (flagged : error.isFlagReason = true) (h : wantedLax = true → wanted = true) (ctx : Context)
    (o : Outcome) : (if wanted then fail error ctx else o).Tightens
      (if wantedLax then fail error ctx else o) := by
  by_cases refused : wanted = true
  · rw [if_pos refused]
    exact Tightens.of_fail flagged ctx _
  · have allowed : ¬wantedLax = true := fun asked => refused (h asked)
    rw [if_neg refused, if_neg allowed]
    exact Tightens.refl o

theorem queries_prefix_andThen (o : Outcome) (next : Context → Outcome) :
    o.queries <+: (o.andThen next).queries := by
  rcases o with ⟨_ | _, ctx, queries⟩
  · exact List.prefix_rfl
  · exact List.prefix_append queries (next ctx).queries

theorem Tightens.asked (queries : List SignatureQuery) (h : strict.Tightens lax) :
    (strict.asked queries).Tightens (lax.asked queries) := by
  rcases h with rfl | ⟨error, flagged, failed, before⟩
  · exact Tightens.refl _
  · exact Or.inr ⟨error, flagged, failed, (List.prefix_append_right_inj queries).2 before⟩

theorem Tightens.andThen {strictNext laxNext : Context → Outcome} (h : strict.Tightens lax)
    (next : ∀ ctx, (strictNext ctx).Tightens (laxNext ctx)) :
    (strict.andThen strictNext).Tightens (lax.andThen laxNext) := by
  rcases h with rfl | ⟨error, flagged, failed, before⟩
  · rcases strict with ⟨_ | _, ctx, queries⟩
    · exact Tightens.refl _
    · exact (next ctx).asked queries
  · have stopped : strict.andThen strictNext = strict := by simp only [Outcome.andThen, failed]
    rw [stopped]
    exact Or.inr ⟨error, flagged, failed, before.trans (queries_prefix_andThen lax laxNext)⟩

/-- A success of the stricter outcome is one of the other. -/
theorem Tightens.eq_of_ok (h : strict.Tightens lax) (ok : strict.result = .ok ()) :
    lax = strict := by
  rcases h with rfl | ⟨error, _, failed, _⟩
  · rfl
  · rw [ok] at failed
    cases failed

theorem Tightens.ofStack {strict lax : Except ScriptError Stack} (ctx : Context)
    (h : SpendScript.Tightens strict lax) : (ofStack ctx strict).Tightens (ofStack ctx lax) := by
  rcases h with rfl | ⟨error, flagged, rfl⟩
  · exact Tightens.refl _
  · exact Tightens.of_fail flagged ctx _

end Outcome

theorem MultiSig.Scan.Tightens.cons {strict lax : MultiSig.Scan} (h : strict.Tightens lax)
    (query : SignatureQuery) :
    MultiSig.Scan.Tightens { strict with queries := query :: strict.queries }
      { lax with queries := query :: lax.queries } := by
  rcases h with rfl | ⟨error, flagged, failed, before⟩
  · exact Or.inl rfl
  · exact Or.inr ⟨error, flagged, failed, (List.prefix_cons_inj query).2 before⟩

section Flags

variable {lax strict : Flags}

theorem readNumber_tightens (h : lax ⊆ strict) (x : Bytes) :
    Tightens (strict.readNumber x) (lax.readNumber x) := by
  cases read : strict.readNumber x with
  | error error => exact Or.inr ⟨error, by rw [Flags.readNumber_error read]; rfl, rfl⟩
  | ok n =>
    obtain ⟨short, minimal, value⟩ := ScriptNum.decode_eq_ok_iff.1 read
    exact Or.inl (ScriptNum.decode_eq_ok_iff.2
      ⟨short, fun demanded => minimal (h .minimalData demanded), value⟩).symm

theorem UnaryOp.run_tightens (h : lax ⊆ strict) (op : UnaryOp) (stack : Stack) :
    Tightens (op.run strict stack) (op.run lax stack) := by
  cases stack with
  | nil => exact Or.inl rfl
  | cons x rest =>
    rw [run_cons, run_cons]
    exact (readNumber_tightens h x).bind fun n => Or.inl rfl

theorem readTwo_tightens (h : lax ⊆ strict) (stack : Stack) :
    Tightens (strict.readTwo stack) (lax.readTwo stack) := by
  rcases stack with _ | ⟨y, _ | ⟨x, rest⟩⟩
  · exact Or.inl rfl
  · exact Or.inl rfl
  · rw [Flags.readTwo_cons, Flags.readTwo_cons]
    exact (readNumber_tightens h x).bind fun a => (readNumber_tightens h y).bind fun b => Or.inl rfl

theorem BinaryOp.run_tightens (h : lax ⊆ strict) (op : BinaryOp) (stack : Stack) :
    Tightens (op.run strict stack) (op.run lax stack) := by
  rw [run_eq_bind, run_eq_bind]
  exact (readTwo_tightens h stack).bind fun operands => Or.inl rfl

theorem within_tightens (h : lax ⊆ strict) (stack : Stack) :
    Tightens (stack.within strict) (stack.within lax) := by
  rcases stack with _ | ⟨upper, _ | ⟨lower, _ | ⟨x, rest⟩⟩⟩
  · exact Or.inl rfl
  · exact Or.inl rfl
  · exact Or.inl rfl
  · rw [Stack.within_cons, Stack.within_cons]
    exact (readNumber_tightens h x).bind fun n => (readNumber_tightens h lower).bind fun least =>
      (readNumber_tightens h upper).bind fun bound => Or.inl rfl

theorem wantsStrictDer_mono (h : lax ⊆ strict)
    (wanted : SignatureEncoding.wantsStrictDer lax = true) :
    SignatureEncoding.wantsStrictDer strict = true := by
  unfold SignatureEncoding.wantsStrictDer at *
  simp only [Bool.or_eq_true] at *
  rcases wanted with (derSig | lowS) | strictEnc
  · exact Or.inl (Or.inl (h .derSig derSig))
  · exact Or.inl (Or.inr (h .lowS lowS))
  · exact Or.inr (h .strictEnc strictEnc)

theorem checkEncodings_tightens (h : lax ⊆ strict) (signature key : Bytes) :
    Tightens (strict.checkEncodings signature key) (lax.checkEncodings signature key) := by
  cases checked : strict.checkEncodings signature key with
  | error error =>
    refine Or.inr ⟨error, ?_, rfl⟩
    rcases checkEncodings_error checked with rfl | rfl | rfl | rfl <;> rfl
  | ok =>
    left
    obtain ⟨hsig, hkey⟩ := checkEncodings_eq_ok_iff.1 checked
    refine (checkEncodings_eq_ok_iff.2 ⟨?_, ?_⟩).symm
    · rw [SignatureEncoding.check_eq_ok_iff] at hsig ⊢
      refine hsig.imp_right fun ⟨der, lowS, hashType⟩ => ⟨?_, ?_, ?_⟩
      · exact fun wanted => der (wantsStrictDer_mono h wanted)
      · exact fun wanted => lowS (h .lowS wanted)
      · exact fun wanted => hashType (h .strictEnc wanted)
    · rw [KeyEncoding.check_eq_ok_iff] at hkey ⊢
      exact fun wanted => hkey (h .strictEnc wanted)

end Flags

section Operations

variable {lax strict : Flags} {checker : SignatureChecker}

theorem MultiSig.scan_tightens (h : lax ⊆ strict) (code : Bytes) (signatures keys : List Bytes) :
    (scan { flags := strict, checker } code signatures keys).Tightens
      (scan { flags := lax, checker } code signatures keys) := by
  induction keys generalizing signatures with
  | nil => cases signatures <;> exact Or.inl rfl
  | cons key keys ih =>
    cases signatures with
    | nil => exact Or.inl rfl
    | cons signature signatures =>
      unfold scan
      split
      · exact Or.inl rfl
      · rcases checkEncodings_tightens h signature key with same | ⟨error, flagged, refused⟩
        · dsimp only
          rw [same]
          cases lax.checkEncodings signature key with
          | error error => exact Or.inl rfl
          -- both scans ask the same question, so they go on with the same signatures
          | ok => exact (ih _).cons _
        · dsimp only
          rw [refused]
          exact Or.inr ⟨error, flagged, rfl, List.nil_prefix⟩

theorem MultiSig.readCount_tightens (h : lax ⊆ strict) (limit : Nat) (error : ScriptError)
    (x : Bytes) :
    Tightens (readCount strict limit error x) (readCount lax limit error x) := by
  rw [readCount]
  rcases readNumber_tightens h x with same | ⟨reason, flagged, refused⟩
  · rw [same]
    exact Or.inl rfl
  · rw [refused]
    exact Or.inr ⟨reason, flagged, rfl⟩

theorem MultiSig.readKeyCount_tightens (h : lax ⊆ strict) (stack : Stack) :
    Tightens (readKeyCount strict stack) (readKeyCount lax stack) := by
  cases stack with
  | nil => exact Or.inl rfl
  | cons x rest => exact readCount_tightens h _ _ x

theorem MultiSig.readArguments_tightens (h : lax ⊆ strict) (keyCount : Nat) (stack : Stack) :
    Tightens (readArguments strict keyCount stack) (readArguments lax keyCount stack) := by
  unfold readArguments
  cases stack.drop (keyCount + 1) with
  | nil => exact Or.inl rfl
  | cons x below =>
    dsimp only
    rcases readCount_tightens h keyCount .sigCount x with same | ⟨reason, flagged, refused⟩
    · rw [same]
      exact Or.inl rfl
    · rw [refused]
      exact Or.inr ⟨reason, flagged, rfl⟩

theorem MultiSig.finish_tightens (h : lax ⊆ strict) (verify : Bool) (ctx : Context)
    (args : Arguments) (success : Bool) :
    (finish { flags := strict, checker } verify ctx args success).Tightens
      (finish { flags := lax, checker } verify ctx args success) := by
  rw [finish, finish]
  refine Outcome.Tightens.refusal rfl ?_ _ _
  intro wanted
  rw [Bool.and_eq_true] at wanted ⊢
  exact ⟨h .nullDummy wanted.1, wanted.2⟩

theorem MultiSig.judge_tightens (h : lax ⊆ strict) (script : Script) (verify : Bool)
    (ctx : Context) (args : Arguments) :
    (judge { flags := strict, checker } script verify ctx args).Tightens
      (judge { flags := lax, checker } script verify ctx args) := by
  unfold judge
  dsimp only
  rcases scan_tightens h (script.codeFrom ctx.codeStart args.signatures) args.signatures
    args.keys with same | ⟨error, flagged, failed, before⟩
  · rw [same]
    split
    · exact (finish_tightens h verify ctx args _).asked _
    · exact Outcome.Tightens.refl _
  · rw [failed]
    refine Or.inr ⟨error, flagged, rfl, ?_⟩
    simp only [Outcome.asked, Outcome.fail, List.append_nil]
    split
    · exact before.trans (List.prefix_append _ _)
    · exact before

theorem Context.checkMultiSig_tightens (h : lax ⊆ strict) (ctx : Context) (script : Script)
    (verify : Bool) :
    (ctx.checkMultiSig { flags := strict, checker } script verify).Tightens
      (ctx.checkMultiSig { flags := lax, checker } script verify) := by
  unfold checkMultiSig
  dsimp only
  rcases MultiSig.readKeyCount_tightens h ctx.stack with same | ⟨error, flagged, refused⟩
  · rw [same]
    cases MultiSig.readKeyCount lax ctx.stack with
    | error error => exact Outcome.Tightens.refl _
    | ok keyCount =>
      refine (Outcome.Tightens.refl _).andThen fun ctx => ?_
      rcases MultiSig.readArguments_tightens h keyCount ctx.stack with
        same | ⟨error, flagged, refused⟩
      · rw [same]
        cases MultiSig.readArguments lax keyCount ctx.stack with
        | error error => exact Outcome.Tightens.refl _
        | ok args => exact MultiSig.judge_tightens h script verify ctx args
      · rw [refused]
        exact Outcome.Tightens.of_fail flagged _ _
  · rw [refused]
    exact Outcome.Tightens.of_fail flagged _ _

theorem Context.checkSig_tightens (h : lax ⊆ strict) (ctx : Context) (script : Script)
    (verify : Bool) :
    (ctx.checkSig { flags := strict, checker } script verify).Tightens
      (ctx.checkSig { flags := lax, checker } script verify) := by
  unfold checkSig
  rcases ctx.stack with _ | ⟨key, _ | ⟨signature, rest⟩⟩
  · exact Outcome.Tightens.refl _
  · exact Outcome.Tightens.refl _
  · dsimp only
    rcases checkEncodings_tightens h signature key with same | ⟨error, flagged, refused⟩
    · rw [same]
      exact Outcome.Tightens.refl _
    · rw [refused]
      exact Outcome.Tightens.of_fail flagged _ _

theorem Context.pickOrRoll_tightens (h : lax ⊆ strict) (ctx : Context) (move : Bool) :
    (ctx.pickOrRoll strict move).Tightens (ctx.pickOrRoll lax move) := by
  unfold pickOrRoll
  rcases ctx.stack with _ | ⟨x, _ | ⟨y, rest⟩⟩
  · exact Outcome.Tightens.refl _
  · exact Outcome.Tightens.refl _
  · dsimp only
    rcases readNumber_tightens h x with same | ⟨error, flagged, refused⟩
    · rw [same]
      exact Outcome.Tightens.refl _
    · rw [refused]
      exact Outcome.Tightens.of_fail flagged _ _

theorem Context.pushData_tightens (h : lax ⊆ strict) (ctx : Context) (form : PushForm)
    (data : Bytes) : (ctx.pushData strict form data).Tightens (ctx.pushData lax form data) := by
  unfold pushData
  split
  · exact Outcome.Tightens.refl _
  · split
    · exact Outcome.Tightens.refl _
    · refine Outcome.Tightens.refusal rfl ?_ _ _
      intro wanted
      rw [Bool.and_eq_true] at wanted ⊢
      exact ⟨h .minimalData wanted.1, wanted.2⟩

/-- The instructions that read a flag are named; no other one sees the flags at all. -/
theorem Instruction.run_tightens (h : lax ⊆ strict) (instruction : Instruction) (script : Script)
    (index : Nat) (ctx : Context) :
    (instruction.run { flags := strict, checker } script index ctx).Tightens
      (instruction.run { flags := lax, checker } script index ctx) := by
  cases instruction with
  | upgradableNop =>
    rw [run, run]
    exact Outcome.Tightens.refusal rfl (h .discourageUpgradableNops) _ _
  | pick => exact ctx.pickOrRoll_tightens h false
  | roll => exact ctx.pickOrRoll_tightens h true
  | unary op => exact Outcome.Tightens.ofStack ctx (op.run_tightens h ctx.stack)
  | binary op => exact Outcome.Tightens.ofStack ctx (op.run_tightens h ctx.stack)
  | numEqualVerify =>
    unfold run
    dsimp only
    rcases readTwo_tightens h ctx.stack with same | ⟨error, flagged, refused⟩
    · rw [same]
      exact Outcome.Tightens.refl _
    · rw [refused]
      exact Outcome.Tightens.of_fail flagged _ _
  | within => exact Outcome.Tightens.ofStack ctx (within_tightens h ctx.stack)
  | checkSig demand => exact ctx.checkSig_tightens h script demand
  | checkMultiSig demand => exact ctx.checkMultiSig_tightens h script demand
  | _ => exact Outcome.Tightens.refl _

theorem Operation.step_tightens (h : lax ⊆ strict) (op : Operation) (script : Script)
    (index : Nat) (ctx : Context) :
    (op.step { flags := strict, checker } script index ctx).Tightens
      (op.step { flags := lax, checker } script index ctx) := by
  refine Outcome.Tightens.andThen ?_ fun ctx => Outcome.Tightens.refl _
  cases op with
  | push form data => exact ctx.pushData_tightens h form data
  | code opcode =>
    unfold run
    dsimp only
    refine Outcome.Tightens.andThen (Outcome.Tightens.refl _) fun ctx => ?_
    split
    · exact Outcome.Tightens.refl _
    · split
      · exact (Instruction.ofOpcode opcode).run_tightens h script index ctx
      · exact Outcome.Tightens.refl _

theorem Script.runFrom_tightens (h : lax ⊆ strict) (script : Script) (index : Nat)
    (ops : List Operation) (ctx : Context) :
    (script.runFrom { flags := strict, checker } index ops ctx).Tightens
      (script.runFrom { flags := lax, checker } index ops ctx) := by
  induction ops generalizing index ctx with
  | nil => exact Outcome.Tightens.refl _
  | cons op ops ih => exact (op.step_tightens h script index ctx).andThen (ih (index + 1))

theorem Script.execute_tightens (h : lax ⊆ strict) (script : Script) (ctx : Context) :
    (script.execute { flags := strict, checker } ctx).Tightens
      (script.execute { flags := lax, checker } ctx) :=
  (script.runFrom_tightens h 0 script ctx).andThen fun _ => Outcome.Tightens.refl _

/-- More flags leave a run as it is in every respect, or they end it for the reason of a flag. Its
questions are then the first ones of the run under fewer flags, whatever that run comes to. -/
theorem Script.execute_same_or_refused (h : lax ⊆ strict) (script : Script) (ctx : Context) :
    let loose := script.execute { flags := lax, checker } ctx
    let tight := script.execute { flags := strict, checker } ctx
    tight.result = loose.result ∧ tight.context = loose.context ∧ tight.queries = loose.queries ∨
      ∃ error ∈ [.sigDer, .sigHighS, .sigHashType, .pubkeyType, .sigNullDummy, .minimalData,
          .discourageUpgradableNops, .unknown],
        tight.result = .error error ∧ tight.queries <+: loose.queries := by
  intro loose tight
  have tightens : tight.Tightens loose := script.execute_tightens h ctx
  rcases tightens with same | ⟨error, flagged, failed, before⟩
  · rw [same]
    exact Or.inl ⟨rfl, rfl, rfl⟩
  · exact Or.inr ⟨error, ScriptError.isFlagReason_iff.1 flagged, failed, before⟩

/-- Under strict encoding a check of one signature under two keys stops at the second key, which
without flags is asked about. -/
theorem Script.execute_same_or_refused_second_key :
    let ctx : Context := { stack := [[2], 2 :: List.replicate 32 0, [4], [1], [], []] }
    let loose := execute [.code 0xae] { flags := {} } ctx
    let tight := execute [.code 0xae] { flags := { strictEnc := true } } ctx
    loose.result = .ok () ∧ loose.queries.length = 2 ∧
      tight.result = .error .pubkeyType ∧ tight.queries.length = 1 ∧
      tight.queries <+: loose.queries := by
  intro ctx loose tight
  have more : ({} : Flags) ⊆ { strictEnc := true } := Flags.contains_iff.1 rfl
  have refused : tight.result = .error .pubkeyType := rfl
  have fewer : tight.queries.length = 1 := by decide +kernel
  have all : loose.queries.length = 2 := by decide +kernel
  refine ⟨rfl, all, refused, fewer, ?_⟩
  rcases execute_same_or_refused more [.code 0xae] ctx with ⟨_, _, same⟩ | ⟨_, _, _, before⟩
  · have lengths : tight.queries.length = loose.queries.length := congrArg List.length same
    omega
  · exact before

theorem Script.Leaves.of_subset (h : lax ⊆ strict) {script : Script} {stack left : Stack}
    (leaves : script.Leaves { flags := strict, checker } stack left) :
    script.Leaves { flags := lax, checker } stack left := by
  have same := (script.execute_tightens h (.start stack)).eq_of_ok leaves.1
  rw [Leaves, same]
  exact leaves

end Operations

namespace Spend

variable {lax strict : Flags} {checker : SignatureChecker}

theorem Clean.of_subset (h : lax ⊆ strict) {stack : Stack} (clean : Clean strict stack) :
    Clean lax stack :=
  fun wanted => clean (h .cleanStack wanted)

theorem Redeems.of_subset (h : lax ⊆ strict) {unlocked : Stack}
    (redeems : Redeems { flags := strict, checker } unlocked) :
    Redeems { flags := lax, checker } unlocked := by
  obtain ⟨serialized, rest, script, left, rfl, decoded, leaves, top, clean⟩ := redeems
  exact ⟨serialized, rest, script, left, rfl, decoded, leaves.of_subset h, top, clean.of_subset h⟩

theorem Locks.of_subset (h : lax ⊆ strict) {locking : Bytes} {unlocked left : Stack}
    (locks : Locks { flags := strict, checker } locking unlocked left) :
    Locks { flags := lax, checker } locking unlocked left := by
  obtain ⟨script, decoded, leaves, top⟩ := locks
  exact ⟨script, decoded, leaves.of_subset h, top⟩

theorem validated_eq_ok_iff {flags : Flags} :
    flags.validated = .ok flags ↔ (flags.cleanStack = true → flags.p2sh = true) := by
  rw [Flags.validated]
  cases flags.cleanStack <;> cases flags.p2sh <;> simp

/-- Flags only ever narrow the set of valid spends. Without the rule that ties a clean stack to
script hashes this fails: the stricter flags may demand the clean stack of the script behind the
hash, and the laxer ones of the locking script. -/
theorem verify_valid_of_subset (h : lax ⊆ strict) (tied : lax.validated = .ok lax)
    (locking unlocking : Bytes)
    (valid : (verify { flags := strict, checker } locking unlocking).verdict.valid = true) :
    (verify { flags := lax, checker } locking unlocking).verdict.valid = true := by
  rw [verify_valid_iff] at valid ⊢
  obtain ⟨pushOnly, script, unlocked, left, decoded, leaves, locks, rest⟩ := valid
  refine ⟨fun wanted => pushOnly (h .sigPushOnly wanted), script, unlocked, left, decoded,
    leaves.of_subset h, locks.of_subset h, ?_⟩
  by_cases laxHash : resolvesHash lax locking = true
  · have strictHash : resolvesHash strict locking = true := by
      unfold resolvesHash at laxHash ⊢
      rw [Bool.and_eq_true] at laxHash ⊢
      exact ⟨h .p2sh laxHash.1, laxHash.2⟩
    rw [if_pos strictHash] at rest
    rw [if_pos laxHash]
    exact ⟨rest.1, rest.2.of_subset h⟩
  · rw [if_neg laxHash]
    by_cases strictHash : resolvesHash strict locking = true
    -- the laxer flags do not ask for script hashes, so they cannot ask for a clean stack
    · intro wanted
      have p2sh := validated_eq_ok_iff.1 tied wanted
      unfold resolvesHash at laxHash strictHash
      rw [Bool.and_eq_true] at laxHash strictHash
      exact absurd ⟨p2sh, strictHash.2⟩ laxHash
    · rw [if_neg strictHash] at rest
      exact rest.of_subset h

/-- A zero is pushed and negated under all flags, and so under two of them. -/
theorem verify_valid_of_subset_not :
    (verify { flags := Flags.ofPred fun _ => true } [0x91] [0x00]).verdict.valid = true ∧
      (verify { flags := { p2sh := true, cleanStack := true } } [0x91] [0x00]).verdict.valid
        = true := by
  have zero : Script.decode [0x00] = .ok [.push .direct []] :=
    @Script.decode_encode [.push .direct []] (by decide) (by decide)
  have negation : Script.decode [0x91] = .ok [.code 0x91] :=
    @Script.decode_encode [.code 0x91] (by decide) (by decide)
  have valid : (verify { flags := Flags.ofPred fun _ => true } [0x91] [0x00]).verdict.valid
      = true := by
    refine verify_valid_iff.2 ⟨fun _ => ?_, _, [[]], [[1]], zero, ⟨rfl, rfl⟩, ?_, fun _ => rfl⟩
    · rw [Script.isPushOnlyBytes_of_decode zero]
      rfl
    · exact ⟨_, negation, ⟨rfl, by decide +kernel⟩, rfl⟩
  have fewer : ({ p2sh := true, cleanStack := true } : Flags) ⊆ Flags.ofPred fun _ => true :=
    Flags.contains_iff.1 rfl
  exact ⟨valid, verify_valid_of_subset fewer rfl _ _ valid⟩

end Spend
end SpendScript
