import SpendScript.Stack

/-!
# Stacks by index

The accesses by depth on a row of items with the bottom at the front, which is changed in place. A depth
is turned into an index from the front; an index outside the items, and a sum that no word of the machine
holds, give no answer at all. Nothing is taken back when an access fails: the items are as they were only
if they have not been changed before.
-/
set_option autoImplicit false

namespace SpendScript.Stack

/-- An access to the items: it succeeds or fails and leaves items either way, or has no answer. -/
abbrev Access := ExceptT ScriptError (StateT (List Bytes) Option)

namespace Access

/-- One more than a number, if `maxWord`, the greatest number that a word holds, is not exceeded. -/
def successor? (maxWord n : Nat) : Option Nat :=
  if n < maxWord then some (n + 1) else none

/-- The index of the element at a depth. -/
def indexFromTop (maxWord depth : Nat) : Access Nat := do
  let items ← get
  let count ← successor? maxWord depth
  if items.length < count then throw .invalidStackOperation else return items.length - count

/-- The item with an index. -/
def item (index : Nat) : Access Bytes := do
  let items ← get
  items[index]?

/-- Puts an item in front of the one with the index, or behind the last. -/
def putAt (index : Nat) (x : Bytes) : Access Unit := do
  let items ← get
  if index ≤ items.length then set (items.insertIdx index x) else (none : Option Unit)

def top (maxWord depth : Nat) : Access Bytes := do
  let index ← indexFromTop maxWord depth
  item index

def remove (maxWord depth : Nat) : Access Bytes := do
  let index ← indexFromTop maxWord depth
  let x ← item index
  modify fun items => items.eraseIdx index
  return x

def insert (depth : Nat) (x : Bytes) : Access Unit := do
  let items ← get
  if items.length < depth then throw .invalidStackOperation else putAt (items.length - depth) x

def swap (maxWord a b : Nat) : Access Unit := do
  let i ← indexFromTop maxWord a
  let j ← indexFromTop maxWord b
  let x ← item i
  let y ← item j
  modify fun items => (items.set i y).set j x

/-- The access made on the items of a stack, with the stack that they are afterwards. -/
def on {α : Type} (access : Access α) (stack : Stack) : Option (Except ScriptError α × Stack) :=
  (access.run.run stack.bottomUp).map fun (answer, items) => (answer, ofBottomUp items)

end Access

/-- What an access answers and leaves that has another stack only where it succeeds. -/
def kept {α : Type} (stack : Stack) : Except ScriptError (α × Stack) → Except ScriptError α × Stack
  | .ok (answer, left) => (.ok answer, left)
  | .error error => (.error error, stack)

end SpendScript.Stack
