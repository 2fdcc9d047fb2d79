import SpendScript.Limits
import SpendScript.ScriptError

/-!
# Open conditionals

Every open conditional has a branch that is taken or skipped, and an operation is executed when
all of them are taken. A counter of skipped branches answers that without a look at the list.
-/
set_option autoImplicit false

namespace SpendScript

structure Conditionals where
  /-- Whether each open branch is taken, the innermost first. -/
  branches : List Bool := []
  /-- How many of them are skipped. -/
  skipped : Nat := 0
  deriving DecidableEq, Repr

namespace Conditionals

def isEmpty (c : Conditionals) : Bool :=
  c.branches.isEmpty

def allTaken (c : Conditionals) : Bool :=
  c.skipped == 0

/-- Opens a conditional with a first branch that is taken or skipped. -/
def push (c : Conditionals) (taken : Bool) : Except ScriptError Conditionals :=
  if Limits.stackSize ≤ c.branches.length then .error .stackSize
  else .ok
    { branches := taken :: c.branches
      skipped := if taken then c.skipped else c.skipped + 1 }

/-- Goes on to the other branch of the innermost conditional. -/
def toggle (c : Conditionals) : Except ScriptError Conditionals :=
  match c.branches with
  | [] => .error .unbalancedConditional
  | taken :: rest => .ok
    { branches := (!taken) :: rest
      skipped := if taken then c.skipped + 1 else c.skipped - 1 }

/-- Closes the innermost conditional. -/
def pop (c : Conditionals) : Except ScriptError Conditionals :=
  match c.branches with
  | [] => .error .unbalancedConditional
  | taken :: rest => .ok
    { branches := rest
      skipped := if taken then c.skipped else c.skipped - 1 }

end Conditionals
end SpendScript
