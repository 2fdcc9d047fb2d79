import SpendScript.Machine.Run
import SpendScript.Script.Template
import SpendScript.Spend.Stage
import SpendScript.Spend.Verdict

/-!
# Verifying a spend

An unlocking script is run on an empty stack and the locking script on what it leaves, which must
end with a true element on top. If the locking script pays to a script hash, the top element
left by the unlocking script is itself run as a script on the elements below it, with the same
demand. Only stacks pass from one script to the next. The report holds the verdict, the events
and every question put to the checker.
-/
set_option autoImplicit false

namespace SpendScript

structure Report where
  verdict : Verdict
  events : List Event := []
  queries : List SignatureQuery := []
  deriving DecidableEq, Repr

namespace Report

/-- Ends a verification with a failure in a stage. -/
def failed (stage : Stage) (error : ScriptError) : Report where
  verdict := .refused error
  events := [.failed stage error]

/-- The report with an event before its own. -/
def after (event : Event) (r : Report) : Report :=
  { r with events := event :: r.events }

/-- The report with questions before its own. -/
def asked (queries : List SignatureQuery) (r : Report) : Report :=
  { r with queries := queries ++ r.queries }

/-- Goes on with a value, or ends in a stage. -/
def bind {α : Type} (stage : Stage) (value : Except ScriptError α) (next : α → Report) : Report :=
  match value with
  | .ok a => next a
  | .error error => failed stage error

/-- Runs a script in a fresh context in a stage and goes on with the stack it leaves. -/
def running (env : Environment) (stage : Stage) (script : Script) (stack : Stack)
    (next : Stack → Report) : Report :=
  let o := script.execute env (Context.start stack)
  (Report.bind stage o.result fun _ => next o.context.stack).asked o.queries

end Report

namespace Spend

/-- What a script has to leave: an element on top, and a true one. -/
def demandTrue (stack : Stack) : Except ScriptError Unit :=
  if stack.topIsTrue = some true then .ok () else .error .evalFalse

/-- The last check, on the stack that all scripts left. -/
def postCheck (env : Environment) (stack : Stack) : Report :=
  .after (.entered .redeem .postCheck) <|
    if env.flags.cleanStack && stack.length != 1 then .failed .postCheck .cleanStack
    else .after (.entered .postCheck .done) { verdict := .accepted }

/-- Takes the script off the stack that the unlocking script left and runs it on the rest. -/
def redeem (env : Environment) (unlocking : Script) (stack : Stack) : Report :=
  .after .resolvesScriptHash <|
    if !unlocking.isPushOnly then .failed .redeem .sigPushOnly
    else match stack with
      | [] => .failed .redeem .evalFalse
      | serialized :: rest =>
        .bind .redeem (Script.decode serialized) fun script =>
          .running env .redeem script rest fun left =>
            .bind .redeem (demandTrue left) fun _ => postCheck env left

/-- Goes on after the locking script: `unlocked` is the stack before it and `left` the one after
it. -/
def afterLocking (env : Environment) (locking : Bytes) (unlocking : Script)
    (unlocked left : Stack) : Report :=
  .after (.entered .locking .redeem) <|
    if env.flags.p2sh && Script.isScriptHashTemplate locking then redeem env unlocking unlocked
    else postCheck env left

/-- Runs the locking script on the stack that the unlocking script left. -/
def lock (env : Environment) (locking : Bytes) (unlocking : Script) (unlocked : Stack) : Report :=
  .after (.entered .unlocking .locking) <|
    .bind .locking (Script.decode locking) fun script =>
      .running env .locking script unlocked fun left =>
        .bind .locking (demandTrue left) fun _ => afterLocking env locking unlocking unlocked left

/-- Verifies that the unlocking script satisfies the locking script. -/
def verify (env : Environment) (locking unlocking : Bytes) : Report :=
  if env.flags.sigPushOnly && !Script.isPushOnlyBytes unlocking then .failed .start .sigPushOnly
  else
    .after (.entered .start .unlocking) <|
      .bind .unlocking (Script.decode unlocking) fun script =>
        .running env .unlocking script [] fun unlocked => lock env locking script unlocked

end Spend
end SpendScript
