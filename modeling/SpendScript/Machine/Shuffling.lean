import SpendScript.Instruction
import SpendScript.Stack

/-!
# Shuffles

How each shuffle rearranges the top of the stack. A shuffle looks at a few elements, keeps what
is below them and fails on a stack that has fewer. Said by depth instead, it is a short sequence of
accesses; the depths count from the top as it is at that moment, so an element that was moved before
shifts the depths of the others.
-/
set_option autoImplicit false

namespace SpendScript.Shuffle

def apply : Shuffle → Stack → Except ScriptError Stack
  | .drop, _ :: s => .ok s
  | .twoDrop, _ :: _ :: s => .ok s
  | .dup, x :: s => .ok (x :: x :: s)
  | .ifDup, x :: s => .ok (if SignMagnitude.truthy x then x :: x :: s else x :: s)
  | .twoDup, y :: x :: s => .ok (y :: x :: y :: x :: s)
  | .threeDup, z :: y :: x :: s => .ok (z :: y :: x :: z :: y :: x :: s)
  | .over, y :: x :: s => .ok (x :: y :: x :: s)
  | .twoOver, d :: c :: b :: a :: s => .ok (b :: a :: d :: c :: b :: a :: s)
  | .rot, z :: y :: x :: s => .ok (x :: z :: y :: s)
  | .twoRot, f :: e :: d :: c :: b :: a :: s => .ok (b :: a :: f :: e :: d :: c :: s)
  | .swap, y :: x :: s => .ok (x :: y :: s)
  | .twoSwap, d :: c :: b :: a :: s => .ok (b :: a :: d :: c :: s)
  | .nip, y :: _ :: s => .ok (y :: s)
  | .tuck, y :: x :: s => .ok (y :: x :: y :: s)
  | _, _ => .error .invalidStackOperation

/-- The same with every element addressed by its depth. -/
def applyByDepth (op : Shuffle) (stack : Stack) : Except ScriptError Stack :=
  match op with
  | .drop => stack.dropTop
  | .twoDrop => do
    stack.require 2
    let stack ← stack.dropTop
    stack.dropTop
  | .dup => return stack.push (← stack.top 0)
  | .ifDup => do
    let x ← stack.top 0
    return if SignMagnitude.truthy x then stack.push x else stack
  | .twoDup => do
    stack.require 2
    let stack := stack.push (← stack.top 1)
    return stack.push (← stack.top 1)
  | .threeDup => do
    stack.require 3
    let stack := stack.push (← stack.top 2)
    let stack := stack.push (← stack.top 2)
    return stack.push (← stack.top 2)
  | .over => return stack.push (← stack.top 1)
  | .twoOver => do
    stack.require 4
    let stack := stack.push (← stack.top 3)
    return stack.push (← stack.top 3)
  | .rot => do
    stack.require 3
    let (x, stack) ← stack.remove 2
    return stack.push x
  | .twoRot => do
    stack.require 6
    let (x, stack) ← stack.remove 5
    let (y, stack) ← stack.remove 4
    return (stack.push x).push y
  | .swap => do
    stack.require 2
    stack.swap 0 1
  | .twoSwap => do
    stack.require 4
    let stack ← stack.swap 3 1
    stack.swap 2 0
  | .nip => do
    let (_, stack) ← stack.remove 1
    return stack
  | .tuck => do
    stack.require 2
    stack.insert 2 (← stack.top 0)

theorem applyByDepth_eq (op : Shuffle) (stack : Stack) : op.applyByDepth stack = op.apply stack := by
  rcases stack with _ | ⟨a, _ | ⟨b, _ | ⟨c, _ | ⟨d, _ | ⟨e, _ | ⟨f, below⟩⟩⟩⟩⟩⟩ <;> cases op <;> rfl

end SpendScript.Shuffle
