import SpendScript.Proofs.EncodingRules
import SpendScript.Proofs.Questions

/-!
# What a check of several signatures leaves

How much of the stack the check takes depends on two numbers, and the place of the second on the
first. Arguments that are laid out on a stack, with the bytes of both numbers, are read back as
they are; everything below them stays. The spare element is looked at last, so a pair that breaks
an encoding rule is what a check fails for, whatever the spare element is.
-/
set_option autoImplicit false

namespace SpendScript

namespace MultiSig

/-- The arguments on a stack, with the bytes of the number of keys and of the number of
signatures. -/
def Arguments.onStack (args : Arguments) (n m : Bytes) : Stack :=
  n :: (args.keys ++ m :: (args.signatures ++ args.spare :: args.rest))

/-- The spare element has to be empty and is not. -/
def Arguments.SpareRefused (args : Arguments) (flags : Flags) : Prop :=
  flags.nullDummy = true ∧ args.spare ≠ []

/-- The signatures are good for some of the keys, in the order of the keys. -/
def Matching (env : Environment) (code : Bytes) (signatures keys : List Bytes) : Prop :=
  ∃ φ : Fin signatures.length → Fin keys.length, StrictMono φ ∧
    ∀ i, env.checker (signatures.get i) (keys.get (φ i)) code = true

variable {env : Environment} {code : Bytes} {args : Arguments} {n m : Bytes}

theorem Arguments.length_onStack :
    (args.onStack n m).length =
      args.keys.length + args.signatures.length + 3 + args.rest.length := by
  simp only [onStack, List.length_cons, List.length_append]
  omega

theorem readCount_of_reads {flags : Flags} {limit count : Nat} {error : ScriptError} {x : Bytes}
    (read : flags.Reads x count) (small : count ≤ limit) :
    readCount flags limit error x = .ok count := by
  obtain ⟨number, decoded, value⟩ := read
  exact readCount_eq_ok_iff.2 ⟨number, decoded, value, small⟩

theorem readKeyCount_onStack {flags : Flags} (keysRead : flags.Reads n args.keys.length)
    (few : args.keys.length ≤ Limits.keysPerMultiSig) :
    readKeyCount flags (args.onStack n m) = .ok args.keys.length :=
  readCount_of_reads keysRead few

/-- Arguments are read back from where they are laid out. -/
theorem readArguments_onStack {flags : Flags} (signaturesRead : flags.Reads m args.signatures.length)
    (few : args.signatures.length ≤ args.keys.length) :
    readArguments flags args.keys.length (args.onStack n m) = .ok args := by
  have belowKeys : (args.onStack n m).drop (args.keys.length + 1) =
      m :: (args.signatures ++ args.spare :: args.rest) := by
    rw [Arguments.onStack, List.drop_succ_cons, List.drop_left]
  have keys : ((args.onStack n m).drop 1).take args.keys.length = args.keys := by
    rw [Arguments.onStack, List.drop_one, List.tail_cons, List.take_left]
  rw [readArguments, belowKeys]
  dsimp only
  rw [readCount_of_reads signaturesRead few]
  dsimp only
  rw [List.drop_left, List.take_left, keys]

/-- A scan ends with the first pair that breaks an encoding rule, and there is no other one. -/
theorem scan_of_refused {signatures keys : List Bytes} {pair : Bytes × Bytes} {error : ScriptError}
    (tried : pair ∈ attempts env code signatures keys)
    (refused : env.flags.checkEncodings pair.1 pair.2 = .error error) :
    (scan env code signatures keys).result = .error error := by
  induction keys generalizing signatures with
  | nil => cases signatures <;> cases tried
  | cons key keys ih =>
    cases signatures with
    | nil => cases tried
    | cons signature signatures =>
      rw [attempts] at tried
      rw [scan]
      split at tried
      · cases tried
      · next enough =>
        rw [if_neg enough]
        rcases List.mem_cons.1 tried with rfl | later
        · rw [refused]
        · cases allowed : env.flags.checkEncodings signature key with
          | ok =>
            rw [allowed] at later
            exact ih later
          | error _ =>
            rw [allowed] at later
            cases later

theorem finish_of_spareRefused {demand success : Bool} {ctx : Context}
    (refused : args.SpareRefused env.flags) :
    finish env demand ctx args success =
      .fail .sigNullDummy { ctx with stack := args.spare :: args.rest } :=
  finish_eq.trans (if_pos refused)

theorem finish_of_not_spareRefused {demand success : Bool} {ctx : Context}
    (fine : ¬args.SpareRefused env.flags) :
    finish env demand ctx args success =
      .conclude { ctx with stack := args.rest } demand .checkMultiSigVerify success :=
  finish_eq.trans (if_neg fine)

variable {script : Script} {demand : Bool} {ctx : Context}

/-- What judging changes of a context is the stack. -/
theorem judge_context :
    (judge env script demand ctx args).context =
      { ctx with stack := (judge env script demand ctx args).context.stack } := by
  unfold judge
  dsimp only
  split
  · rw [finish_eq]
    split
    · rfl
    · split
      · split <;> rfl
      · rfl
  · rfl

theorem judge_of_answer {success : Bool}
    (answer : (scan env (script.codeFrom ctx.codeStart args.signatures) args.signatures
      args.keys).result = .ok success) :
    judge env script demand ctx args =
      (finish env demand ctx args success).asked
        (scan env (script.codeFrom ctx.codeStart args.signatures) args.signatures
          args.keys).queries := by
  rw [judge, answer]

theorem judge_of_refusal {error : ScriptError}
    (refusal : (scan env (script.codeFrom ctx.codeStart args.signatures) args.signatures
      args.keys).result = .error error) :
    judge env script demand ctx args =
      (Outcome.fail error ctx).asked
        (scan env (script.codeFrom ctx.codeStart args.signatures) args.signatures
          args.keys).queries := by
  rw [judge, refusal]

/-- Where the spare element may be anything, it shows on a stack that a broken rule leaves as it
was, and nowhere else. -/
theorem judge_of_any_spare (stack : Stack) (spare : Bytes) (unwanted : env.flags.nullDummy = false) :
    let o := judge env script demand ctx args
    let o' := judge env script demand { ctx with stack := stack } { args with spare := spare }
    o'.result = o.result ∧ o'.queries = o.queries ∧
      ((∃ success, (scan env (script.codeFrom ctx.codeStart args.signatures) args.signatures
        args.keys).result = .ok success) → o' = o) := by
  have fine (args : Arguments) : ¬args.SpareRefused env.flags :=
    fun refused => Bool.false_ne_true (unwanted.symm.trans refused.1)
  intro o o'
  cases scanned : (scan env (script.codeFrom ctx.codeStart args.signatures) args.signatures
    args.keys).result with
  | ok success =>
    have same : o' = o := by
      have left : o' = _ := judge_of_answer scanned
      have right : o = _ := judge_of_answer scanned
      rw [left, right, finish_of_not_spareRefused (fine _), finish_of_not_spareRefused (fine _)]
    exact ⟨congrArg Outcome.result same, congrArg Outcome.queries same, fun _ => same⟩
  | error error =>
    have left : o' = _ := judge_of_refusal scanned
    have right : o = _ := judge_of_refusal scanned
    rw [left, right]
    exact ⟨rfl, rfl, nofun⟩

end MultiSig

open MultiSig

variable {env : Environment} {script : Script} {index : Nat} {ctx : Context}
  {args : MultiSig.Arguments} {n m : Bytes}

/-- A check of several signatures whose arguments are laid out on the stack finds them. -/
theorem Operation.run_checkMultiSig_onStack {demand : Bool} (executing : ctx.isExecuting = true)
    (laidOut : ctx.stack = args.onStack n m) (keysRead : env.flags.Reads n args.keys.length)
    (signaturesRead : env.flags.Reads m args.signatures.length)
    (keysBounded : args.keys.length ≤ Limits.keysPerMultiSig)
    (signaturesBounded : args.signatures.length ≤ args.keys.length)
    (withinLimit : ctx.opCount + 1 + args.keys.length ≤ Limits.opsPerScript) :
    (Operation.checkMultiSig demand).run env script index ctx =
      judge env script demand { ctx with opCount := ctx.opCount + 1 + args.keys.length } args := by
  refine Operation.run_checkMultiSig executing ?_ withinLimit ?_
  · rw [laidOut]
    exact readKeyCount_onStack keysRead keysBounded
  · rw [laidOut]
    exact readArguments_onStack signaturesRead signaturesBounded

/-- A check takes both numbers, the keys, the signatures and the spare element off the stack, and
leaves an answer there or, where the answer is demanded, fails if it is negative. The spare element
matters only if it has to be empty, and only after every pair that is tried has passed the encoding
rules. -/
theorem Operation.checkMultiSig_effect {demand : Bool} (executing : ctx.isExecuting = true)
    (laidOut : ctx.stack = args.onStack n m) (keysRead : env.flags.Reads n args.keys.length)
    (signaturesRead : env.flags.Reads m args.signatures.length)
    (keysBounded : args.keys.length ≤ Limits.keysPerMultiSig)
    (signaturesBounded : args.signatures.length ≤ args.keys.length)
    (withinLimit : ctx.opCount + 1 + args.keys.length ≤ Limits.opsPerScript) :
    let code := script.codeFrom ctx.codeStart args.signatures
    let pairs := MultiSig.attempts env code args.signatures args.keys
    let allPass := ∀ pair ∈ pairs, env.flags.checkEncodings pair.1 pair.2 = .ok ()
    let o := (Operation.checkMultiSig demand).run env script index ctx
    ctx.stack.length = args.keys.length + args.signatures.length + 3 + args.rest.length ∧
    o.context = { ctx with
      stack := o.context.stack, opCount := ctx.opCount + 1 + args.keys.length } ∧
    (allPass → args.SpareRefused env.flags →
      o.result = .error .sigNullDummy ∧ o.context.stack = args.spare :: args.rest) ∧
    (allPass → ¬args.SpareRefused env.flags →
      ∃ success, (success = true ↔ MultiSig.Matching env code args.signatures args.keys) ∧
        if demand then
          o.context.stack = args.rest ∧
            o.result = if success then .ok () else .error .checkMultiSigVerify
        else o.result = .ok () ∧ o.context.stack = Stack.ofBool success :: args.rest) ∧
    (∀ pair ∈ pairs, ∀ error, env.flags.checkEncodings pair.1 pair.2 = .error error →
      o.result = .error error ∧ error ≠ .sigNullDummy ∧ o.context.stack = ctx.stack) ∧
    (env.flags.nullDummy = false → ∀ spare,
      let o' := (Operation.checkMultiSig demand).run env script index
        { ctx with stack := { args with spare := spare }.onStack n m }
      o'.result = o.result ∧ o'.queries = o.queries ∧ (allPass → o' = o)) := by
  intro code pairs allPass o
  let counted : Context := { ctx with opCount := ctx.opCount + 1 + args.keys.length }
  have judged : o = judge env script demand counted args :=
    run_checkMultiSig_onStack executing laidOut keysRead signaturesRead keysBounded
      signaturesBounded withinLimit
  have answers (pass : allPass) :
      ∃ success, (scan env code args.signatures args.keys).result = .ok success := by
    obtain ⟨success, answer⟩ := scan_of_checked pass
    exact ⟨success, congrArg Scan.result answer⟩
  refine ⟨?_, ?_, fun pass refused => ?_, fun pass fine => ?_, fun pair tried error refused => ?_,
    fun unwanted spare => ?_⟩
  · rw [laidOut, Arguments.length_onStack]
  · rw [judged]
    exact judge_context
  · obtain ⟨success, answer⟩ := answers pass
    have finished : o = _ := judged.trans (judge_of_answer answer)
    rw [finished, finish_of_spareRefused refused]
    exact ⟨rfl, rfl⟩
  · obtain ⟨success, answer⟩ := answers pass
    have finished : o = _ := judged.trans (judge_of_answer answer)
    refine ⟨success, ?_, ?_⟩
    · rw [scan_ok_iff answer, sublistForall₂_iff_strictMono]
      rfl
    · rw [finished, finish_of_not_spareRefused fine]
      cases demand
      · exact ⟨rfl, rfl⟩
      · cases success <;> exact ⟨rfl, rfl⟩
  · have failed : o = _ := judged.trans (judge_of_refusal (scan_of_refused tried refused))
    rw [failed]
    refine ⟨rfl, ?_, rfl⟩
    rcases checkEncodings_error refused with rfl | rfl | rfl | rfl
    all_goals nofun
  · intro o'
    have judged' : o' = judge env script demand
        { counted with stack := { args with spare := spare }.onStack n m }
        { args with spare := spare } :=
      @run_checkMultiSig_onStack env script index
        { ctx with stack := { args with spare := spare }.onStack n m } { args with spare := spare }
        n m demand executing rfl keysRead signaturesRead keysBounded signaturesBounded withinLimit
    obtain ⟨result, queries, same⟩ := @judge_of_any_spare env args script demand counted
      ({ args with spare := spare }.onStack n m) spare unwanted
    rw [judged, judged']
    exact ⟨result, queries, fun pass => same (answers pass)⟩

/-- A signature that is good for the second of two keys, above a spare element that is not empty:
the element is refused where it has to be empty, unless the signature is refused first. -/
theorem Operation.checkMultiSig_effect_one_of_two :
    let env (flags : Flags) : Environment :=
      { flags := flags, checker := fun _ key _ => key == [2] }
    let ctx : Context := { stack := [[2], [1], [2], [1], [0xaa], [5], [7]], altStack := [[9]] }
    let o (flags : Flags) := (Operation.checkMultiSig false).run (env flags) [] 0 ctx
    (o Flags.empty).context = { ctx with stack := [[1], [7]], opCount := 3 } ∧
      (o { Flags.empty with nullDummy := true }).result = .error .sigNullDummy ∧
      (o { Flags.empty with nullDummy := true, strictEnc := true }).result = .error .sigDer := by
  intro env ctx o
  let args : MultiSig.Arguments :=
    { keys := [[1], [2]], signatures := [[0xaa]], spare := [5], rest := [[7]] }
  have effect (flags : Flags) (two : flags.Reads [2] 2) (one : flags.Reads [1] 1) :=
    @checkMultiSig_effect (env flags) [] 0 ctx args [2] [1] false rfl rfl two one (by decide)
      (by decide) (by decide)
  refine ⟨?_, ?_, ?_⟩
  · obtain ⟨_, context, _, answer, _⟩ := effect Flags.empty ⟨_, rfl, rfl⟩ ⟨_, rfl, rfl⟩
    obtain ⟨success, matching, _, stack⟩ :=
      answer (by decide) fun refused => Bool.false_ne_true refused.1
    have good : success = true := by
      refine matching.2 ⟨fun _ => 1, ?_, fun i => ?_⟩
      · exact Subsingleton.strictMono (α := Fin 1) _
      · rfl
    rw [context, stack, good]
    rfl
  · obtain ⟨_, _, refused, _⟩ :=
      effect { Flags.empty with nullDummy := true } ⟨_, rfl, rfl⟩ ⟨_, rfl, rfl⟩
    exact (refused (by decide) ⟨rfl, by decide⟩).1
  · obtain ⟨_, _, _, _, broken, _⟩ :=
      effect { Flags.empty with nullDummy := true, strictEnc := true } ⟨_, rfl, rfl⟩ ⟨_, rfl, rfl⟩
    exact (broken ([0xaa], [1]) (by decide) .sigDer rfl).1

end SpendScript
