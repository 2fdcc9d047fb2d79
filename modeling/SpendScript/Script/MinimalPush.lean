import SpendScript.Script.Operation

/-!
# Minimal pushes

Data is pushed minimally if no other operation that pushes it is shorter: a small number by its
own opcode, all else by the shortest form for its length.
-/
set_option autoImplicit false

namespace SpendScript.Script

/-- Whether a push of `data` that begins with `opcode` is as short as can be. -/
def isMinimalPush (opcode : UInt8) (data : Bytes) : Bool :=
  match data with
  | [] => opcode == 0
  | [b] =>
    if b == 0x81 then opcode == 0x4f
    else if 1 ≤ b ∧ b ≤ 16 then opcode == 0x50 + b
    else opcode == 1
  | _ =>
    if data.length ≤ 75 then opcode.toNat == data.length
    else if data.length ≤ 0xff then opcode == 0x4c
    else if data.length ≤ 0xffff then opcode == 0x4d
    else true

end SpendScript.Script
