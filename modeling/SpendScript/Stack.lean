import SpendScript.Number.SignMagnitude
import SpendScript.ScriptError

/-!
# Stacks

A stack is a list of byte strings with the top at the head. Elements are addressed by their
depth: the top is at depth 0. An access below the bottom fails and leaves the stack as it was.
-/
set_option autoImplicit false

namespace SpendScript

/-- Byte strings, the top first. -/
abbrev Stack := List Bytes

namespace Stack

/-- The element that stands for a truth value. -/
def ofBool (b : Bool) : Bytes :=
  if b then [1] else []

def push (stack : Stack) (x : Bytes) : Stack :=
  x :: stack

def pushBool (stack : Stack) (b : Bool) : Stack :=
  stack.push (ofBool b)

/-- The top and what is below it. -/
def pop : Stack → Except ScriptError (Bytes × Stack)
  | [] => .error .invalidStackOperation
  | x :: rest => .ok (x, rest)

/-- The stack without its top. -/
def dropTop (stack : Stack) : Except ScriptError Stack :=
  stack.pop.map (·.2)

/-- Fails unless there are at least `n` elements. -/
def require (stack : Stack) (n : Nat) : Except ScriptError Unit :=
  if stack.length < n then .error .invalidStackOperation else .ok ()

/-- The element at a depth. -/
def top (stack : Stack) (depth : Nat) : Except ScriptError Bytes :=
  match stack[depth]? with
  | some x => .ok x
  | none => .error .invalidStackOperation

/-- The element at a depth and the stack without it. -/
def remove (stack : Stack) (depth : Nat) : Except ScriptError (Bytes × Stack) :=
  match stack[depth]? with
  | some x => .ok (x, stack.eraseIdx depth)
  | none => .error .invalidStackOperation

/-- The stack with `x` put in so that it ends up at the depth, which may be the stack's length. -/
def insert (stack : Stack) (depth : Nat) (x : Bytes) : Except ScriptError Stack :=
  if depth ≤ stack.length then .ok (stack.insertIdx depth x) else .error .invalidStackOperation

/-- The stack with the elements at two depths exchanged. -/
def swap (stack : Stack) (a b : Nat) : Except ScriptError Stack :=
  match stack[a]?, stack[b]? with
  | some x, some y => .ok ((stack.set a y).set b x)
  | _, _ => .error .invalidStackOperation

/-- The truth value of the top, if there is one. -/
def topIsTrue (stack : Stack) : Option Bool :=
  stack.head?.map SignMagnitude.truthy

/-- Builds a stack from elements listed from the bottom up. -/
def ofBottomUp (items : List Bytes) : Stack :=
  items.reverse

/-- The elements from the bottom up. -/
def bottomUp (stack : Stack) : List Bytes :=
  stack.reverse

end Stack
end SpendScript
