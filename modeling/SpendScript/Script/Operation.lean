import SpendScript.Bytes

/-!
# Operations

A script is a list of operations: bare opcodes and data pushes. A push says how its length is
written: in the opcode itself or in one, two or four bytes after it. Writing an operation and
reading it back agree exactly on the well-formed operations, and what is read is well formed.
-/
set_option autoImplicit false

namespace SpendScript

/-- Where a push keeps the length of its data. -/
inductive PushForm where
  | direct
  | length1
  | length2
  | length4
  deriving DecidableEq, Repr

namespace PushForm

/-- The opcode of a push of `n` bytes. -/
def opcode (form : PushForm) (n : Nat) : UInt8 :=
  match form with
  | .direct => UInt8.ofNat n
  | .length1 => 0x4c
  | .length2 => 0x4d
  | .length4 => 0x4e

/-- The number of bytes that hold the length. -/
def width : PushForm → Nat
  | .direct => 0
  | .length1 => 1
  | .length2 => 2
  | .length4 => 4

/-- The first length that the form cannot express. -/
def capacity : PushForm → Nat
  | .direct => 76
  | .length1 => 0x100
  | .length2 => 0x10000
  | .length4 => 0x100000000

/-- The form of the push that an opcode begins, if it begins one. -/
def ofOpcode? (opcode : UInt8) : Option PushForm :=
  if opcode ≤ 0x4b then some .direct
  else if opcode = 0x4c then some .length1
  else if opcode = 0x4d then some .length2
  else if opcode = 0x4e then some .length4
  else none

/-- The form with the fewest bytes for data of length `n`. -/
def shortest (n : Nat) : PushForm :=
  if n < 76 then .direct
  else if n < 0x100 then .length1
  else if n < 0x10000 then .length2
  else .length4

/-- The length of the data, given the opcode and the bytes after it, and what remains. -/
def readLength? (form : PushForm) (opcode : UInt8) (rest : Bytes) : Option (Nat × Bytes) :=
  match form with
  | .direct => some (opcode.toNat, rest)
  | _ => (Bytes.cut? form.width rest).map fun cut => (Bytes.toNatLE cut.1, cut.2)

end PushForm

/-- One step of a script. -/
inductive Operation where
  | push (form : PushForm) (data : Bytes)
  | code (opcode : UInt8)
  deriving DecidableEq, Repr

namespace Operation

def opcode : Operation → UInt8
  | .push form data => form.opcode data.length
  | .code opcode => opcode

/-- An operation that has a written form of its own. -/
def WellFormed : Operation → Prop
  | .push form data => data.length < form.capacity
  | .code opcode => 0x4e < opcode

instance (op : Operation) : Decidable op.WellFormed :=
  match op with
  | .push form data => inferInstanceAs (Decidable (data.length < form.capacity))
  | .code opcode => inferInstanceAs (Decidable (0x4e < opcode))

/-- The bytes of the operation. -/
def encode : Operation → Bytes
  | .push form data =>
    form.opcode data.length :: (Bytes.ofNatLE form.width data.length ++ data)
  | .code opcode => [opcode]

/-- The first operation of a byte string and the bytes after it. -/
def read? : Bytes → Option (Operation × Bytes)
  | [] => none
  | opcode :: rest =>
    match PushForm.ofOpcode? opcode with
    | none => some (.code opcode, rest)
    | some form => do
      let (length, rest) ← form.readLength? opcode rest
      let (data, rest) ← Bytes.cut? length rest
      return (.push form data, rest)

/-- Opcodes above the small-number pushes count against the limit on operations. -/
def countsTowardLimit (op : Operation) : Bool :=
  0x60 < op.opcode

/-- Whether the opcode is one of those that only push; the reserved opcode among them counts too. -/
def isPush (op : Operation) : Bool :=
  op.opcode ≤ 0x60

/-- The push of `data` in the shortest form for its length. -/
def canonicalPush (data : Bytes) : Operation :=
  .push (.shortest data.length) data

/-- Whether the operation is the canonical push of `data`. -/
def isCanonicalPushOf (op : Operation) (data : Bytes) : Bool :=
  op == canonicalPush data

theorem encode_ne_nil (op : Operation) : op.encode ≠ [] := by
  cases op <;> simp [encode]

end Operation

/-- The canonical push of `data` as bytes. -/
def Script.pushEncoding (data : Bytes) : Bytes :=
  (Operation.canonicalPush data).encode

end SpendScript
