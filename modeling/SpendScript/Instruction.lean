/-!
# Instructions

What an opcode asks for, one constructor per behaviour, and the class it belongs to. The table
gives every byte a meaning: bytes up to `0x4e` push data, and a byte that no row names is
reserved.
-/
set_option autoImplicit false

namespace SpendScript

/-- Rearrangements of the top of the main stack: elements are dropped, copied or moved. -/
inductive Shuffle where
  | drop
  | twoDrop
  | dup
  | ifDup
  | twoDup
  | threeDup
  | over
  | twoOver
  | rot
  | twoRot
  | swap
  | twoSwap
  | nip
  | tuck
  deriving DecidableEq, Repr

/-- Arithmetic on one number. -/
inductive UnaryOp where
  | increment
  | decrement
  | negate
  | abs
  | isZero
  | isNonzero
  deriving DecidableEq, Repr

/-- Arithmetic on two numbers that leaves a number. -/
inductive BinaryOp where
  | add
  | sub
  | both
  | either
  | equal
  | notEqual
  | less
  | greater
  | lessOrEqual
  | greaterOrEqual
  | min
  | max
  deriving DecidableEq, Repr

inductive HashFunction where
  | ripemd160
  | sha1
  | sha256
  | hash160
  | hash256
  deriving DecidableEq, Repr

inductive Instruction where
  /-- Pushes the data that follows; without data it means nothing. -/
  | push
  | pushNumber (n : Int)
  | nop
  /-- Does nothing until an upgrade gives it a meaning. -/
  | upgradableNop
  /-- Opens a conditional, which is taken when the top is true, or false if `negated`. -/
  | openIf (negated : Bool)
  | otherwise
  | endIf
  /-- A conditional on the version, forbidden even where it is skipped. -/
  | versionIf
  | verify
  | ret
  | toAltStack
  | fromAltStack
  | shuffle (op : Shuffle)
  | depth
  | pick
  | roll
  | size
  | equal (verify : Bool)
  | unary (op : UnaryOp)
  | binary (op : BinaryOp)
  | numEqualVerify
  | within
  | hash (h : HashFunction)
  | codeSeparator
  | checkSig (verify : Bool)
  | checkMultiSig (verify : Bool)
  /-- Switched off: forbidden even where it is skipped. -/
  | disabled
  /-- Without meaning: forbidden where it is executed. -/
  | reserved
  deriving DecidableEq, Repr

inductive OpcodeClass where
  | push
  | pushNumber
  | flowControl
  | upgradableNop
  | stack
  | splice
  | bitwise
  | arithmetic
  | crypto
  | disabled
  | reserved
  deriving DecidableEq, Repr

namespace Instruction

def opcodeClass : Instruction → OpcodeClass
  | .push => .push
  | .pushNumber _ => .pushNumber
  | .nop | .openIf _ | .otherwise | .endIf | .verify | .ret => .flowControl
  | .upgradableNop => .upgradableNop
  | .toAltStack | .fromAltStack | .shuffle _ | .depth | .pick | .roll => .stack
  | .size => .splice
  | .equal _ => .bitwise
  | .unary _ | .binary _ | .numEqualVerify | .within => .arithmetic
  | .hash _ | .codeSeparator | .checkSig _ | .checkMultiSig _ => .crypto
  | .disabled => .disabled
  | .versionIf | .reserved => .reserved

/-- Whether the instruction is looked at even in a branch that is not taken. -/
def isConditional : Instruction → Bool
  | .openIf _ | .otherwise | .endIf | .versionIf => true
  | _ => false

/-- The opcodes with a meaning of their own. -/
def table : List (UInt8 × Instruction) :=
  [(0x4f, .pushNumber (-1)),
   (0x61, .nop), (0x63, .openIf false), (0x64, .openIf true), (0x65, .versionIf),
   (0x66, .versionIf), (0x67, .otherwise), (0x68, .endIf), (0x69, .verify), (0x6a, .ret),
   (0x6b, .toAltStack), (0x6c, .fromAltStack), (0x6d, .shuffle .twoDrop),
   (0x6e, .shuffle .twoDup), (0x6f, .shuffle .threeDup), (0x70, .shuffle .twoOver),
   (0x71, .shuffle .twoRot), (0x72, .shuffle .twoSwap), (0x73, .shuffle .ifDup), (0x74, .depth),
   (0x75, .shuffle .drop), (0x76, .shuffle .dup), (0x77, .shuffle .nip), (0x78, .shuffle .over),
   (0x79, .pick), (0x7a, .roll), (0x7b, .shuffle .rot), (0x7c, .shuffle .swap),
   (0x7d, .shuffle .tuck), (0x7e, .disabled), (0x7f, .disabled), (0x80, .disabled),
   (0x81, .disabled), (0x82, .size), (0x83, .disabled), (0x84, .disabled), (0x85, .disabled),
   (0x86, .disabled), (0x87, .equal false), (0x88, .equal true), (0x8b, .unary .increment),
   (0x8c, .unary .decrement), (0x8d, .disabled), (0x8e, .disabled), (0x8f, .unary .negate),
   (0x90, .unary .abs), (0x91, .unary .isZero), (0x92, .unary .isNonzero), (0x93, .binary .add),
   (0x94, .binary .sub), (0x95, .disabled), (0x96, .disabled), (0x97, .disabled),
   (0x98, .disabled), (0x99, .disabled), (0x9a, .binary .both), (0x9b, .binary .either),
   (0x9c, .binary .equal), (0x9d, .numEqualVerify), (0x9e, .binary .notEqual),
   (0x9f, .binary .less), (0xa0, .binary .greater), (0xa1, .binary .lessOrEqual),
   (0xa2, .binary .greaterOrEqual), (0xa3, .binary .min), (0xa4, .binary .max), (0xa5, .within),
   (0xa6, .hash .ripemd160), (0xa7, .hash .sha1), (0xa8, .hash .sha256), (0xa9, .hash .hash160),
   (0xaa, .hash .hash256), (0xab, .codeSeparator), (0xac, .checkSig false),
   (0xad, .checkSig true), (0xae, .checkMultiSig false), (0xaf, .checkMultiSig true)]

/-- The meaning of an opcode. -/
def ofOpcode (opcode : UInt8) : Instruction :=
  if opcode ≤ 0x4e then .push
  else if 0x51 ≤ opcode ∧ opcode ≤ 0x60 then .pushNumber (opcode.toNat - 0x50)
  else if 0xb0 ≤ opcode ∧ opcode ≤ 0xb9 then .upgradableNop
  else (table.lookup opcode).getD .reserved

end Instruction
end SpendScript
