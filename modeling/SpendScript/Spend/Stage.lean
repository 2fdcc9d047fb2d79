import SpendScript.ScriptError

/-!
# Stages and events

A verification passes through a fixed chain of stages. It reports each step from one stage to
the next, that a script hash is resolved, and the failure that ends it.
-/
set_option autoImplicit false

namespace SpendScript

inductive Stage where
  | start
  | unlocking
  | locking
  | redeem
  | postCheck
  | done
  deriving DecidableEq, Repr

namespace Stage

def name : Stage → String
  | .start => "start"
  | .unlocking => "unlocking script"
  | .locking => "locking script"
  | .redeem => "redeem script"
  | .postCheck => "post check"
  | .done => "done"

/-- The stages in the order in which they are entered. -/
def chain : List Stage :=
  [.start, .unlocking, .locking, .redeem, .postCheck, .done]

end Stage

inductive LogLevel where
  | trace
  | debug
  deriving DecidableEq, Repr

/-- What a verification reports. -/
inductive Event where
  | entered (before after : Stage)
  | resolvesScriptHash
  | failed (stage : Stage) (error : ScriptError)
  deriving DecidableEq, Repr

namespace Event

/-- Only the failure is more than a trace. -/
def level : Event → LogLevel
  | .entered _ _ => .trace
  | .resolvesScriptHash => .trace
  | .failed _ _ => .debug

def message : Event → String
  | .entered before after => "verifier: " ++ before.name ++ " -> " ++ after.name
  | .resolvesScriptHash => "verifier: pay-to-script-hash output, evaluating redeem script"
  | .failed stage error => "script verification failed in " ++ stage.name ++ ": " ++ error.name

end Event
end SpendScript
