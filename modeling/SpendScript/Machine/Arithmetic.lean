import SpendScript.Flags
import SpendScript.Instruction
import SpendScript.Number
import SpendScript.Stack

/-!
# Arithmetic on the stack

Operands are numbers of at most four bytes, in shortest form if the flags demand it; results are
pushed in shortest form, whatever their width. An operation whose operands cannot be read leaves
the stack as it was.
-/
set_option autoImplicit false

namespace SpendScript

/-- Reads an operand. -/
def Flags.readNumber (flags : Flags) (x : Bytes) : Except ScriptError ScriptNum :=
  ScriptNum.decode x flags.minimalData Limits.numberSize

namespace UnaryOp

def apply (op : UnaryOp) (n : ScriptNum) : Except ScriptError ScriptNum :=
  match op with
  | .increment => n.add? .one
  | .decrement => n.sub? .one
  | .negate => n.neg?
  | .abs => n.abs?
  | .isZero => .ok (.ofBool n.isZero)
  | .isNonzero => .ok (.ofBool !n.isZero)

/-- Replaces the top by the result. -/
def run (op : UnaryOp) (flags : Flags) : Stack → Except ScriptError Stack
  | x :: rest =>
    match flags.readNumber x with
    | .ok n => (op.apply n).map fun result => result.encode :: rest
    | .error error => .error error
  | _ => .error .invalidStackOperation

end UnaryOp

namespace BinaryOp

def apply (op : BinaryOp) (a b : ScriptNum) : Except ScriptError ScriptNum :=
  match op with
  | .add => a.add? b
  | .sub => a.sub? b
  | .both => .ok (.ofBool (!a.isZero && !b.isZero))
  | .either => .ok (.ofBool (!a.isZero || !b.isZero))
  | .equal => .ok (.ofBool (a.value == b.value))
  | .notEqual => .ok (.ofBool (a.value != b.value))
  | .less => .ok (.ofBool (a.value < b.value))
  | .greater => .ok (.ofBool (a.value > b.value))
  | .lessOrEqual => .ok (.ofBool (a.value ≤ b.value))
  | .greaterOrEqual => .ok (.ofBool (a.value ≥ b.value))
  | .min => .ok (a.min b)
  | .max => .ok (a.max b)

end BinaryOp

/-- The numbers in the two topmost elements, the lower one first, and the stack below them. -/
def Flags.readTwo (flags : Flags) : Stack → Except ScriptError (ScriptNum × ScriptNum × Stack)
  | y :: x :: rest =>
    match flags.readNumber x, flags.readNumber y with
    | .ok a, .ok b => .ok (a, b, rest)
    | .error error, _ => .error error
    | .ok _, .error error => .error error
  | _ => .error .invalidStackOperation

/-- Replaces the two topmost elements by the result; the lower one is the first operand. -/
def BinaryOp.run (op : BinaryOp) (flags : Flags) (stack : Stack) : Except ScriptError Stack :=
  match flags.readTwo stack with
  | .ok (a, b, rest) => (op.apply a b).map fun result => result.encode :: rest
  | .error error => .error error

/-- Replaces a number and two bounds above it by whether it is at least the lower bound and below
the upper one. -/
def Stack.within (flags : Flags) : Stack → Except ScriptError Stack
  | upper :: lower :: x :: rest =>
    match flags.readNumber x, flags.readNumber lower, flags.readNumber upper with
    | .ok n, .ok least, .ok bound =>
      .ok (Stack.ofBool (least.value ≤ n.value && n.value < bound.value) :: rest)
    | .error error, _, _ => .error error
    | .ok _, .error error, _ => .error error
    | .ok _, .ok _, .error error => .error error
  | _ => .error .invalidStackOperation

end SpendScript
