import SpendScript.Flags
import SpendScript.Instruction
import SpendScript.Number.SignMagnitude

/-!
# Calculating with integers

What the instructions of arithmetic stand for when numbers are integers without bounds, and which
elements of the stack are taken for numbers at all.
-/
set_option autoImplicit false

namespace SpendScript

/-- The number that stands for the answer to a question. -/
def truthNumber (answer : Prop) [Decidable answer] : Int :=
  if answer then 1 else 0

def UnaryOp.eval (op : UnaryOp) (n : Int) : Int :=
  match op with
  | .increment => n + 1
  | .decrement => n - 1
  | .negate => -n
  | .abs => n.natAbs
  | .isZero => truthNumber (n = 0)
  | .isNonzero => truthNumber (n ≠ 0)

def BinaryOp.eval (op : BinaryOp) (a b : Int) : Int :=
  match op with
  | .add => a + b
  | .sub => a - b
  | .both => truthNumber (a ≠ 0 ∧ b ≠ 0)
  | .either => truthNumber (a ≠ 0 ∨ b ≠ 0)
  | .equal => truthNumber (a = b)
  | .notEqual => truthNumber (a ≠ b)
  | .less => truthNumber (a < b)
  | .greater => truthNumber (b < a)
  | .lessOrEqual => truthNumber (a ≤ b)
  | .greaterOrEqual => truthNumber (b ≤ a)
  | .min => Min.min a b
  | .max => Max.max a b

namespace Instruction

/-- How many operands the instruction takes from the stack, if it belongs to arithmetic. -/
def arity : Instruction → Nat
  | .unary _ => 1
  | .binary _ | .numEqualVerify => 2
  | .within => 3
  | _ => 0

/-- What the instruction leaves in the place of its operands, of which the one that was pushed
first comes first. There is no answer if it demands something that is not so. -/
def calculate : Instruction → List Int → Option (List Int)
  | .unary op, [n] => some [op.eval n]
  | .binary op, [a, b] => some [op.eval a b]
  | .numEqualVerify, [a, b] => if a = b then some [] else none
  | .within, [n, least, bound] => some [truthNumber (least ≤ n ∧ n < bound)]
  | _, _ => none

end Instruction

/-- Whether an element is taken for a number: it has at most four bytes, and where the flags ask
for it no more of them than its value needs. -/
def Flags.TakesForNumber (flags : Flags) (x : Bytes) : Prop :=
  x.length ≤ 4 ∧ (flags.minimalData = true → SignMagnitude.encode (SignMagnitude.value x) = x)

instance (flags : Flags) (x : Bytes) : Decidable (flags.TakesForNumber x) :=
  inferInstanceAs (Decidable (_ ∧ _))

end SpendScript
