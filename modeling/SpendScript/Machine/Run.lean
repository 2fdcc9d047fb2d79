import SpendScript.Machine.Step

/-!
# Runs

A script is run by doing its operations once each, from the front. The run stops at the first
failure and fails at its end if a conditional is still open.
-/
set_option autoImplicit false

namespace SpendScript

/-- Fails if a conditional is still open. -/
def Context.checkClosed (ctx : Context) : Outcome :=
  if ctx.conditionals.isEmpty then .ok ctx else .fail .unbalancedConditional ctx

namespace Script

/-- Does operations of the script one after the other, the first one at the given index. -/
def runFrom (script : Script) (env : Environment) : Nat → List Operation → Context → Outcome
  | _, [], ctx => .ok ctx
  | index, op :: ops, ctx =>
    (op.step env script index ctx).andThen (runFrom script env (index + 1) ops)

/-- Runs the script in a context. -/
def execute (script : Script) (env : Environment) (ctx : Context) : Outcome :=
  (script.runFrom env 0 script ctx).andThen Context.checkClosed

/-- Decodes a script and runs it; if it does not decode, the context stays as it is. -/
def executeBytes (env : Environment) (bs : Bytes) (ctx : Context) : Outcome :=
  match decode bs with
  | .ok script => script.execute env ctx
  | .error error => .fail error ctx

/-- A list of operations is done by doing its parts in order. -/
theorem runFrom_append (script : Script) (env : Environment) (index : Nat)
    (as bs : List Operation) (ctx : Context) :
    script.runFrom env index (as ++ bs) ctx =
      (script.runFrom env index as ctx).andThen (script.runFrom env (index + as.length) bs) := by
  induction as generalizing index ctx with
  | nil => rfl
  | cons op as ih =>
    have next : index + (op :: as).length = index + 1 + as.length := by
      rw [List.length_cons]
      omega
    rw [List.cons_append, runFrom, runFrom, Outcome.andThen_assoc, next]
    exact congrArg _ (funext fun ctx => ih (index + 1) ctx)

end Script
end SpendScript
