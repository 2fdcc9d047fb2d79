import SpendScript.Instruction
import SpendScript.Script.Operation

/-!
# Nesting of conditionals

Whether the conditionals of a list of operations are matched, whatever is executed: each one that
is opened is closed, and the words for "otherwise" and "end" stand inside an open one.
-/
set_option autoImplicit false

namespace SpendScript

namespace Operation

/-- What the operation asks for; a push of data asks for nothing but the push. -/
def instruction : Operation → Instruction
  | .push _ _ => .push
  | .code opcode => Instruction.ofOpcode opcode

end Operation

namespace Script

/-- Whether the conditionals are matched when `depth` of them are open before the operations and
none after. -/
def isNestedFrom : Nat → List Operation → Bool
  | depth, [] => depth == 0
  | depth, op :: ops =>
    match op.instruction, depth with
    | .openIf _, _ => isNestedFrom (depth + 1) ops
    | .otherwise, 0 => false
    | .endIf, 0 => false
    | .endIf, depth + 1 => isNestedFrom depth ops
    | _, _ => isNestedFrom depth ops

/-- Whether the conditionals of the operations are matched among themselves. -/
def isNested (ops : List Operation) : Bool :=
  isNestedFrom 0 ops

end Script
end SpendScript
