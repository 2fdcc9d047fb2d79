import SpendScript.Machine.Run

/-!
# Structured conditionals

The evaluation of a conditional as a whole: its condition is taken from the stack, then its
branches are executed and passed over in turn. Passing over an operation looks at its size and
its count and at whether it is forbidden everywhere, and at nothing else.
-/
set_option autoImplicit false

namespace SpendScript

/-- Passes over an operation in a branch that is not taken. -/
def Operation.skip (op : Operation) (ctx : Context) : Outcome :=
  match op with
  | .push _ data => if Limits.elementSize < data.length then .fail .pushSize ctx else .ok ctx
  | .code opcode =>
    (op.count ctx).andThen fun ctx =>
      match Instruction.ofOpcode opcode with
      | .disabled => .fail .disabledOpcode ctx
      | .versionIf => .fail .badOpcode ctx
      | _ => .ok ctx

namespace Script

/-- Passes over operations. -/
def skipAll : List Operation → Context → Outcome
  | [], ctx => .ok ctx
  | op :: ops, ctx => (op.skip ctx).andThen (skipAll ops)

/-- Executes or passes over branches in turn, the first one if `taken`, and counts the operation
between two branches. The first branch begins at the given index. -/
def runBranches (script : Script) (env : Environment) :
    Bool → Nat → List (List Operation) → Context → Outcome
  | _, _, [], ctx => .ok ctx
  | taken, index, branch :: branches, ctx =>
    let o := if taken then script.runFrom env index branch ctx else skipAll branch ctx
    if branches.isEmpty then o
    else o.andThen fun ctx =>
      (ctx.countOps 1).andThen
        (runBranches script env (!taken) (index + branch.length + 1) branches)

/-- Evaluates a conditional whose opening operation is at the given index: counts the opening,
takes the condition from the stack, goes through the branches and counts the end. -/
def runConditional (script : Script) (env : Environment) (negated : Bool) (index : Nat)
    (branches : List (List Operation)) (ctx : Context) : Outcome :=
  (ctx.countOps 1).andThen fun ctx =>
    match ctx.stack with
    | [] => .fail .unbalancedConditional ctx
    | x :: rest =>
      (script.runBranches env (SignMagnitude.truthy x != negated) (index + 1) branches
        { ctx with stack := rest }).andThen fun ctx => ctx.countOps 1

/-- The operations of a conditional: the opening one, the branches with `otherwise` between them,
and the end. -/
def conditional (negated : Bool) (branches : List (List Operation)) : List Operation :=
  .code (if negated then 0x64 else 0x63)
    :: (branches.intersperse [.code 0x67]).flatten ++ [.code 0x68]

end Script
end SpendScript
