import SpendScript.Transaction
import SpendScript.Transaction.CompactSize

/-!
# Reading transactions

Readers take a value off the front of a byte string and answer it with what follows. A
transaction is accepted only if it uses every byte.
-/
set_option autoImplicit false

namespace SpendScript

/-- Takes a value off the front of a byte string. -/
abbrev Reader (α : Type) := Bytes → Option (α × Bytes)

namespace Reader

def uint32 : Reader UInt32 := fun bs => do
  let (field, rest) ← Bytes.cut? 4 bs
  return (UInt32.ofNat (Bytes.toNatLE field), rest)

def uint64 : Reader UInt64 := fun bs => do
  let (field, rest) ← Bytes.cut? 8 bs
  return (UInt64.ofNat (Bytes.toNatLE field), rest)

/-- A byte string after its length. -/
def blob : Reader Bytes := fun bs => do
  let (n, rest) ← CompactSize.read? bs
  Bytes.cut? n rest

/-- A given number of items. -/
def replicate {α : Type} (read : Reader α) : Nat → Reader (List α)
  | 0, bs => some ([], bs)
  | n + 1, bs => do
    let (item, rest) ← read bs
    let (items, rest) ← replicate read n rest
    return (item :: items, rest)

/-- Items after their number. -/
def list {α : Type} (read : Reader α) : Reader (List α) := fun bs => do
  let (n, rest) ← CompactSize.read? bs
  replicate read n rest

end Reader

namespace OutPoint

def read? : Reader OutPoint := fun bs => do
  let (txid, rest) ← Bytes.cut? 32 bs
  let (index, rest) ← Reader.uint32 rest
  return (⟨txid, index⟩, rest)

end OutPoint

namespace TxInput

/-- The greatest number of elements in a witness, and of the bytes that they take. -/
def maxWitnessSize : Nat := 4000000

/-- The bytes that the elements of a witness take, each with its length in front. -/
def witnessSize : List Bytes → Nat
  | [] => 0
  | item :: others =>
    (CompactSize.encode item.length).length + item.length + witnessSize others

/-- An input, still without its witness. -/
def read? : Reader TxInput := fun bs => do
  let (outPoint, rest) ← OutPoint.read? bs
  let (script, rest) ← Reader.blob rest
  let (sequence, rest) ← Reader.uint32 rest
  return ({ outPoint, script, sequence }, rest)

/-- A witness after the number of its elements, unless it is too large. -/
def readWitness? : Reader (List Bytes) := fun bs => do
  let (n, rest) ← CompactSize.read? bs
  if n ≤ maxWitnessSize then
    let (witness, rest) ← Reader.replicate Reader.blob n rest
    if witnessSize witness ≤ maxWitnessSize then return (witness, rest) else none
  else none

/-- Gives each input its witness. -/
def readWitnesses? : List TxInput → Reader (List TxInput)
  | [], bs => some ([], bs)
  | input :: inputs, bs => do
    let (witness, rest) ← readWitness? bs
    let (inputs, rest) ← readWitnesses? inputs rest
    return ({ input with witness } :: inputs, rest)

end TxInput

namespace TxOutput

def read? : Reader TxOutput := fun bs => do
  let (value, rest) ← Reader.uint64 bs
  let (script, rest) ← Reader.blob rest
  return (⟨value, script⟩, rest)

end TxOutput

/-- Why no checker could be built. -/
inductive CheckerError where
  | inputIndex
  | deserialize
  deriving DecidableEq, Repr

def CheckerError.message : CheckerError → String
  | .inputIndex => "input index out of range"
  | .deserialize => "transaction failed to deserialize"

namespace Transaction

/-- What follows the mark of the form with witnesses: inputs, outputs, and a witness for each
input. If there is an input, one of the witnesses has to hold something. -/
def readWitnessForm? : Reader (List TxInput × List TxOutput) := fun bs => do
  let (inputs, rest) ← Reader.list TxInput.read? bs
  let (outputs, rest) ← Reader.list TxOutput.read? rest
  let (inputs, rest) ← TxInput.readWitnesses? inputs rest
  if !inputs.isEmpty && inputs.all (·.witness.isEmpty) then none
  else return ((inputs, outputs), rest)

/-- The inputs and outputs in either form: no input before the mark announces the form with
witnesses. -/
def readBody? : Reader (List TxInput × List TxOutput) := fun bs => do
  let (inputs, rest) ← Reader.list TxInput.read? bs
  if inputs.isEmpty then
    match rest with
    | 1 :: rest => readWitnessForm? rest
    | _ => none
  else
    let (outputs, rest) ← Reader.list TxOutput.read? rest
    return ((inputs, outputs), rest)

def read? : Reader Transaction := fun bs => do
  let (version, rest) ← Reader.uint32 bs
  let ((inputs, outputs), rest) ← readBody? rest
  let (lockTime, rest) ← Reader.uint32 rest
  return (⟨version.toInt32, inputs, outputs, lockTime⟩, rest)

/-- Reads a transaction that takes up all the bytes. -/
def parse (bs : Bytes) : Except CheckerError Transaction :=
  match read? bs with
  | some (tx, []) => .ok tx
  | _ => .error .deserialize

end Transaction
end SpendScript
