import SpendScript.Transaction
import SpendScript.Transaction.CompactSize

/-!
# The written form of transactions

All integers are little-endian; lists and byte strings follow their compact size. If an input
has a witness, or if there is no input, a zero and a one follow the version and the witnesses
stand before the lock time. Reading accepts only what writing produces: every byte is used, sizes
are shortest, and the form with witnesses needs a witness or has no input.
-/
set_option autoImplicit false

namespace SpendScript

namespace CompactSize

/-- A byte string after its length. -/
def encodeBlob (bs : Bytes) : Bytes :=
  encode bs.length ++ bs

/-- The items after their number. -/
def encodeList {α : Type} (item : α → Bytes) (items : List α) : Bytes :=
  encode items.length ++ items.flatMap item

end CompactSize

open CompactSize (encodeBlob encodeList)

namespace OutPoint

def encode (o : OutPoint) : Bytes :=
  o.txid ++ Bytes.ofNatLE 4 o.index.toNat

end OutPoint

namespace TxInput

/-- The input without its witness. -/
def encode (input : TxInput) : Bytes :=
  input.outPoint.encode ++ encodeBlob input.script ++ Bytes.ofNatLE 4 input.sequence.toNat

def encodeWitness (input : TxInput) : Bytes :=
  encodeList encodeBlob input.witness

end TxInput

namespace TxOutput

def encode (output : TxOutput) : Bytes :=
  Bytes.ofNatLE 8 output.value.toNat ++ encodeBlob output.script

end TxOutput

namespace Transaction

def encodeVersion (version : Int32) : Bytes :=
  Bytes.ofNatLE 4 version.toUInt32.toNat

/-- Whether the transaction is written in the form with witnesses. -/
def hasWitnessForm (tx : Transaction) : Bool :=
  tx.inputs.isEmpty || tx.inputs.any fun input => !input.witness.isEmpty

/-- The form that leaves all witnesses out. -/
def encodeStripped (tx : Transaction) : Bytes :=
  encodeVersion tx.version ++ encodeList TxInput.encode tx.inputs
    ++ encodeList TxOutput.encode tx.outputs ++ Bytes.ofNatLE 4 tx.lockTime.toNat

/-- The form that carries everything. -/
def encode (tx : Transaction) : Bytes :=
  if tx.hasWitnessForm then
    encodeVersion tx.version ++ [0, 1] ++ encodeList TxInput.encode tx.inputs
      ++ encodeList TxOutput.encode tx.outputs ++ tx.inputs.flatMap TxInput.encodeWitness
      ++ Bytes.ofNatLE 4 tx.lockTime.toNat
  else encodeStripped tx

end Transaction
end SpendScript
