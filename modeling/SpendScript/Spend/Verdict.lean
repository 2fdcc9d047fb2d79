import SpendScript.ScriptError

/-!
# Verdicts

Whether a spend is valid, and if not, why.
-/
set_option autoImplicit false

namespace SpendScript

structure Verdict where
  valid : Bool
  error : ScriptError
  deriving DecidableEq, Repr

namespace Verdict

def accepted : Verdict where
  valid := true
  error := .ok

def refused (error : ScriptError) : Verdict where
  valid := false
  error := error

def ofResult : Except ScriptError Unit → Verdict
  | .ok () => accepted
  | .error error => refused error

def toResult (v : Verdict) : Except ScriptError Unit :=
  if v.valid then .ok () else .error v.error

@[simp] theorem toResult_ofResult (r : Except ScriptError Unit) :
    (ofResult r).toResult = r := by
  cases r <;> rfl

end Verdict
end SpendScript
