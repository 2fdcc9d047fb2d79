import SpendScript.Proofs.ScriptHashSpends

/-!
# What a verification reports

The events of a verification tell its way along the stages, in their order and without a gap, and
the failure, if there is one, comes after them and names the stage that was entered last. No run
ends for a reason that belongs to the verification itself, so the reason that is reported also
tells much about the stage: the log, the verdict and the reason never contradict each other.
-/
set_option autoImplicit false

namespace SpendScript

/-- The events of a way through the given stages. When the redeem stage is entered it is told that
a script hash is resolved, if it is. -/
def Event.trail (resolves : Bool) : List Stage → List Event
  | before :: after :: rest =>
    .entered before after ::
      ((if after == .redeem && resolves then [.resolvesScriptHash] else []) ++
        trail resolves (after :: rest))
  | _ => []

namespace Stage

/-- The stages up to the given one, in the order in which they are entered. -/
def upTo (last : Stage) : List Stage :=
  chain.takeWhile (· != last) ++ [last]

/-- The events of a verification that gets as far as the given stage. -/
def trace (last : Stage) (resolves : Bool) : List Event :=
  Event.trail resolves last.upTo

/-- Entering the next stage adds one event, and a second one where a script hash is resolved. -/
theorem trace_enter (before after : Stage) {resolves : Bool}
    (next : [before, after] <:+: chain) (plain : after = .redeem → resolves = false) :
    before.trace resolves ++ [.entered before after] = after.trace resolves := by
  revert next plain
  cases resolves <;> cases before <;> cases after <;> decide

theorem trace_redeem :
    locking.trace true ++ [.entered .locking .redeem] ++ [.resolvesScriptHash] =
      redeem.trace true := by
  decide

example :
    done.trace true =
      [.entered .start .unlocking, .entered .unlocking .locking, .entered .locking .redeem,
        .resolvesScriptHash, .entered .redeem .postCheck, .entered .postCheck .done] := by
  decide

theorem trace_prefix (last : Stage) (resolves : Bool) :
    last.trace resolves <+: done.trace resolves := by
  cases resolves <;> cases last <;> decide

theorem level_of_mem_trace {last : Stage} {resolves : Bool} {event : Event}
    (h : event ∈ last.trace resolves) : event.level = .trace := by
  have all : ∀ resolves, ∀ event ∈ done.trace resolves, event.level = .trace := by decide
  exact all resolves event ((last.trace_prefix resolves).subset h)

/-- What the reason for a failure and the stage that is named with it tell about each other. -/
structure Fits (last : Stage) (error : ScriptError) : Prop where
  notOk : error ≠ .ok
  notDone : last ≠ .done
  start : last = .start → error = .sigPushOnly
  postCheck_iff : last = .postCheck ↔ error = .cleanStack
  sigPushOnly : error = .sigPushOnly → last = .start ∨ last = .redeem
  evalFalse : error = .evalFalse → last = .locking ∨ last = .redeem

instance (last : Stage) (error : ScriptError) : Decidable (last.Fits error) :=
  decidable_of_iff
    (error ≠ .ok ∧ last ≠ .done ∧ (last = .start → error = .sigPushOnly) ∧
      (last = .postCheck ↔ error = .cleanStack) ∧
      (error = .sigPushOnly → last = .start ∨ last = .redeem) ∧
      (error = .evalFalse → last = .locking ∨ last = .redeem))
    ⟨fun ⟨notOk, notDone, unread, unclean, pushOnly, value⟩ =>
        ⟨notOk, notDone, unread, unclean, pushOnly, value⟩,
      fun ⟨notOk, notDone, unread, unclean, pushOnly, value⟩ =>
        ⟨notOk, notDone, unread, unclean, pushOnly, value⟩⟩

/-- Whether a script is run in the stage. -/
def runsScript : Stage → Bool
  | .unlocking | .locking | .redeem => true
  | _ => false

/-- A script that is not read, or that fails, does so for a reason of its own. -/
theorem fits_of_runsScript {last : Stage} {error : ScriptError} (runs : last.runsScript = true)
    (reason : error.isRunReason = true ∨ error = .scriptSize) : last.Fits error := by
  have own : error ≠ .ok ∧ error ≠ .sigPushOnly ∧ error ≠ .cleanStack ∧ error ≠ .evalFalse := by
    rcases reason with reason | rfl
    · refine ⟨?_, ?_, ?_, ?_⟩ <;> rintro rfl <;> cases reason
    · decide
  obtain ⟨notOk, pushOnly, clean, value⟩ := own
  have inside : last ≠ .start ∧ last ≠ .postCheck ∧ last ≠ .done := by
    refine ⟨?_, ?_, ?_⟩ <;> rintro rfl <;> cases runs
  obtain ⟨started, checked, notDone⟩ := inside
  exact ⟨notOk, notDone, fun h => absurd h started,
    iff_of_false checked clean, fun h => absurd h pushOnly, fun h => absurd h value⟩

end Stage

namespace Report

/-- The lines that the events of a report are logged as. -/
def lines (r : Report) : List (LogLevel × String) :=
  r.events.map fun event => (event.level, event.message)

/-- After what was written before, the report either goes on to the end of the way, or stops in a
stage for a reason that fits it. -/
inductive Tells (resolves : Bool) (written : List Event) (r : Report) : Prop where
  | done (accepted : r.verdict = .accepted)
      (events : written ++ r.events = Stage.done.trace resolves)
  | failed (last : Stage) (error : ScriptError) (refused : r.verdict = .refused error)
      (fits : last.Fits error)
      (events : written ++ r.events = last.trace resolves ++ [.failed last error])

variable {resolves : Bool} {written : List Event} {r : Report}

theorem lines_of_events {last : Stage} {others : List Event}
    (events : r.events = last.trace resolves ++ others) :
    r.lines = (last.trace resolves).map (fun event => (.trace, event.message)) ++
      others.map fun event => (event.level, event.message) := by
  rw [lines, events, List.map_append]
  refine congrArg (· ++ _) (List.map_congr_left fun event present => ?_)
  rw [Stage.level_of_mem_trace present]

theorem Tells.after {event : Event} (h : r.Tells resolves (written ++ [event])) :
    (r.after event).Tells resolves written := by
  have moved : written ++ (r.after event).events = written ++ [event] ++ r.events := by
    rw [after_events, List.append_assoc, List.singleton_append]
  cases h with
  | done accepted events => exact .done accepted (moved.trans events)
  | failed last error refused fits events =>
    exact .failed last error refused fits (moved.trans events)

theorem Tells.asked (h : r.Tells resolves written) (queries : List SignatureQuery) :
    (r.asked queries).Tells resolves written := by
  cases h with
  | done accepted events => exact .done accepted events
  | failed last error refused fits events => exact .failed last error refused fits events

theorem Tells.error_eq_ok_iff (h : r.Tells resolves written) :
    r.verdict.error = .ok ↔ r.verdict.valid = true := by
  cases h with
  | done accepted events =>
    rw [accepted]
    exact iff_of_true rfl rfl
  | failed last error refused fits events =>
    rw [refused]
    exact iff_of_false fits.notOk Bool.false_ne_true

variable {stage : Stage}

theorem tells_failed {error : ScriptError} (fits : stage.Fits error) :
    (failed stage error).Tells resolves (stage.trace resolves) :=
  .failed stage error rfl fits rfl

theorem tells_bind {α : Type} {value : Except ScriptError α} {next : α → Report}
    (fits : ∀ error, value = .error error → stage.Fits error)
    (goesOn : ∀ a, value = .ok a → (next a).Tells resolves (stage.trace resolves)) :
    (bind stage value next).Tells resolves (stage.trace resolves) := by
  cases value with
  | error error => exact tells_failed (fits error rfl)
  | ok a => exact goesOn a rfl

/-- A stage that reads a script and runs it on a stack within the limits. -/
theorem tells_running {env : Environment} {bs : Bytes} {stack : Stack}
    {next : Script → Stack → Report} (runs : stage.runsScript = true)
    (within : (Context.start stack).Within Limits.stackSize)
    (goesOn : ∀ script left, (Context.start left).Within Limits.stackSize →
      (next script left).Tells resolves (stage.trace resolves)) :
    (bind stage (Script.decode bs) fun script => running env stage script stack (next script)).Tells
      resolves (stage.trace resolves) := by
  refine tells_bind (fun error refused => ?_) fun script _ => ?_
  · refine Stage.fits_of_runsScript runs ?_
    rcases Nat.lt_or_ge Limits.scriptSize bs.length with long | short
    · rw [Script.decode_of_lt long] at refused
      exact Or.inr (Except.error.inj refused).symm
    · rw [Script.decode_error short refused]
      exact Or.inl rfl
  · refine (tells_bind (fun error stopped => ?_) fun _ succeeds => ?_).asked _
    · have reason := ((script.execute_within within).of_error stopped).reason
      exact Stage.fits_of_runsScript runs (Or.inl reason)
    · have leaves : script.Leaves env stack _ := ⟨succeeds, rfl⟩
      exact goesOn script _ (leaves.within within)

end Report

namespace Spend

variable {env : Environment} {resolves : Bool}

/-- A stage that demands a true element on top can only fail for want of one. -/
theorem tells_demandTrue {stage : Stage} {left : Stack} {next : Report}
    (fits : stage.Fits .evalFalse) (goesOn : next.Tells resolves (stage.trace resolves)) :
    (Report.bind stage (demandTrue left) fun _ => next).Tells resolves (stage.trace resolves) := by
  unfold demandTrue
  split
  · exact goesOn
  · exact Report.tells_failed fits

theorem postCheck_tells (left : Stack) :
    (postCheck env left).Tells resolves (Stage.redeem.trace resolves) := by
  refine .after ?_
  rw [Stage.trace_enter .redeem .postCheck (by decide) nofun]
  split
  · exact Report.tells_failed (by decide)
  · refine .after (.done rfl ?_)
    rw [Stage.trace_enter .postCheck .done (by decide) nofun]
    exact List.append_nil _

theorem redeem_tells (unlocking : Script) {unlocked : Stack}
    (within : (Context.start unlocked).Within Limits.stackSize) :
    (redeem env unlocking unlocked).Tells true
      (Stage.locking.trace true ++ [.entered .locking .redeem]) := by
  refine .after ?_
  rw [Stage.trace_redeem]
  split
  · exact Report.tells_failed (by decide)
  · split
    · exact Report.tells_failed (by decide)
    · next serialized rest =>
      have below : (Context.start rest).Within Limits.stackSize :=
        within.setSuffix (List.suffix_cons serialized rest)
      refine Report.tells_running rfl below fun script left _ => ?_
      exact tells_demandTrue (by decide) (postCheck_tells left)

theorem afterLocking_tells (locking : Bytes) (unlocking : Script) {unlocked : Stack} (left : Stack)
    (within : (Context.start unlocked).Within Limits.stackSize) :
    (afterLocking env locking unlocking unlocked left).Tells (resolvesHash env.flags locking)
      (Stage.locking.trace (resolvesHash env.flags locking)) := by
  refine .after ?_
  have condition : (env.flags.p2sh && Script.isScriptHashTemplate locking) =
      resolvesHash env.flags locking := rfl
  rw [condition]
  cases resolvesHash env.flags locking with
  | true => exact redeem_tells unlocking within
  | false =>
    rw [Stage.trace_enter .locking .redeem (by decide) fun _ => rfl]
    exact postCheck_tells left

theorem lock_tells (locking : Bytes) (unlocking : Script) {unlocked : Stack}
    (within : (Context.start unlocked).Within Limits.stackSize) :
    (lock env locking unlocking unlocked).Tells (resolvesHash env.flags locking)
      (Stage.unlocking.trace (resolvesHash env.flags locking)) := by
  refine .after ?_
  rw [Stage.trace_enter .unlocking .locking (by decide) nofun]
  refine Report.tells_running rfl within fun script left _ => ?_
  exact tells_demandTrue (by decide) (afterLocking_tells locking unlocking left within)

theorem verify_tells (locking unlocking : Bytes) :
    (verify env locking unlocking).Tells (resolvesHash env.flags locking)
      (Stage.start.trace (resolvesHash env.flags locking)) := by
  unfold verify
  split
  · exact Report.tells_failed (by decide)
  · refine .after ?_
    rw [Stage.trace_enter .start .unlocking (by decide) nofun]
    exact Report.tells_running rfl start_within fun script unlocked within =>
      lock_tells locking script within

/-- A verification reports the stages up to one of them in their fixed order and, exactly if the
verdict is not valid, then once the failure, with the stage that was entered last and the reason in
the verdict, which fit each other. The last stage is reached exactly if the verdict is valid, and
exactly then there is no reason. The lines of the whole way, and the names of the stages and of the
reasons in the line of a failure, are the ones that are spelled out here. -/
theorem verify_reports_stages (env : Environment) (locking unlocking : Bytes) :
    let r := verify env locking unlocking
    let resolves := resolvesHash env.flags locking
    (r.verdict.error = .ok ↔ r.verdict.valid = true) ∧
      (∃ last : Stage, last.trace resolves <+: Stage.done.trace resolves ∧
        r.events = last.trace resolves ++
          (if r.verdict.valid then [] else [.failed last r.verdict.error]) ∧
        r.lines = (last.trace resolves).map (fun event => (.trace, event.message)) ++
          (if r.verdict.valid then [] else
            [(.debug, "script verification failed in " ++ last.name ++ ": " ++
              r.verdict.error.name)]) ∧
        (last = .done ↔ r.verdict.valid = true) ∧
        (r.verdict.valid = false → last.Fits r.verdict.error)) ∧
      (Stage.done.trace resolves).map Event.message =
        ["verifier: start -> unlocking script",
          "verifier: unlocking script -> locking script",
          "verifier: locking script -> redeem script"] ++
        (if resolves then ["verifier: pay-to-script-hash output, evaluating redeem script"]
          else []) ++
        ["verifier: redeem script -> post check", "verifier: post check -> done"] ∧
      Stage.chain.map (fun stage => (stage, stage.name)) =
        [(.start, "start"), (.unlocking, "unlocking script"), (.locking, "locking script"),
          (.redeem, "redeem script"), (.postCheck, "post check"), (.done, "done")] ∧
      ScriptError.all.map (fun error => (error, error.name)) =
        [(.ok, "OK"), (.unknown, "UNKNOWN_ERROR"), (.evalFalse, "EVAL_FALSE"),
          (.opReturn, "OP_RETURN"), (.scriptSize, "SCRIPT_SIZE"), (.pushSize, "PUSH_SIZE"),
          (.opCount, "OP_COUNT"), (.stackSize, "STACK_SIZE"), (.sigCount, "SIG_COUNT"),
          (.pubkeyCount, "PUBKEY_COUNT"), (.verify, "VERIFY"), (.equalVerify, "EQUALVERIFY"),
          (.checkMultiSigVerify, "CHECKMULTISIGVERIFY"), (.checkSigVerify, "CHECKSIGVERIFY"),
          (.numEqualVerify, "NUMEQUALVERIFY"), (.badOpcode, "BAD_OPCODE"),
          (.disabledOpcode, "DISABLED_OPCODE"),
          (.invalidStackOperation, "INVALID_STACK_OPERATION"),
          (.invalidAltstackOperation, "INVALID_ALTSTACK_OPERATION"),
          (.unbalancedConditional, "UNBALANCED_CONDITIONAL"), (.sigHashType, "SIG_HASHTYPE"),
          (.sigDer, "SIG_DER"), (.minimalData, "MINIMALDATA"), (.sigPushOnly, "SIG_PUSHONLY"),
          (.sigHighS, "SIG_HIGH_S"), (.sigNullDummy, "SIG_NULLDUMMY"),
          (.pubkeyType, "PUBKEYTYPE"), (.cleanStack, "CLEANSTACK"),
          (.discourageUpgradableNops, "DISCOURAGE_UPGRADABLE_NOPS")] := by
  intro r resolves
  have tells : r.Tells resolves [] := verify_tells locking unlocking
  refine ⟨tells.error_eq_ok_iff, ?_, ?_, rfl, rfl⟩
  · cases tells with
    | done accepted events =>
      have told : r.events = Stage.done.trace resolves ++ [] :=
        events.trans (List.append_nil _).symm
      have lines := Report.lines_of_events told
      rw [accepted]
      exact ⟨.done, Stage.trace_prefix _ _, told, lines, by decide, nofun⟩
    | failed last error refused fits events =>
      have told : r.events = last.trace resolves ++ [.failed last error] := events
      have lines := Report.lines_of_events told
      rw [refused]
      exact ⟨last, Stage.trace_prefix _ _, told, lines,
        iff_of_false fits.notDone Bool.false_ne_true, fun _ => fits⟩
  · clear_value resolves
    cases resolves <;> rfl

/-- An opcode that always fails, in the script that is run first. -/
example :
    (verify {} [0x51] [0x6a]).lines =
      [(.trace, "verifier: start -> unlocking script"),
        (.debug, "script verification failed in unlocking script: OP_RETURN")] := by
  decide +kernel

end Spend
end SpendScript
