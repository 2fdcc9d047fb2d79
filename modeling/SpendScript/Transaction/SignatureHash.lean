import SpendScript.Digest
import SpendScript.Transaction.Encoding

/-!
# Signature hashes

The digest that a signature of an input signs. The hash type says which inputs and outputs it
commits to: all outputs, none or the one beside the input, and either all inputs or the signed
one alone. Scripts and witnesses of inputs never enter, but the script code does.
-/
set_option autoImplicit false

namespace SpendScript

/-- The outputs that a signature commits to. -/
inductive OutputScope where
  | all
  | none
  | single
  deriving DecidableEq, Repr

structure HashType where
  outputs : OutputScope
  anyoneCanPay : Bool
  deriving DecidableEq, Repr

/-- The meaning of a hash type byte; what is not known commits to all outputs. -/
def HashType.ofByte (b : UInt8) : HashType where
  outputs :=
    if b &&& 0x1f = 0x02 then .none
    else if b &&& 0x1f = 0x03 then .single
    else .all
  anyoneCanPay := b &&& 0x80 != 0

namespace TxOutput

/-- Stands in for an output that a signature does not commit to. -/
def blank : TxOutput where
  value := 0xffffffffffffffff
  script := []

end TxOutput

namespace Transaction

/-- The inputs that are hashed: `code` in the signed one and no script in the others, whose
sequences count only where all outputs do. -/
def hashedInputs (tx : Transaction) (index : Nat) (code : Bytes) (type : HashType) :
    List TxInput :=
  let prepared := tx.inputs.mapIdx fun i input =>
    if i = index then { input with script := code }
    else
      let sequence := if type.outputs = .all then input.sequence else 0
      { input with script := [], sequence := sequence }
  if type.anyoneCanPay then (prepared.drop index).take 1 else prepared

/-- The outputs that are hashed. -/
def hashedOutputs (tx : Transaction) (index : Nat) (type : HashType) : List TxOutput :=
  match type.outputs with
  | .all => tx.outputs
  | .none => []
  | .single => List.replicate index TxOutput.blank ++ (tx.outputs.drop index).take 1

/-- The number one in 32 little-endian bytes, hashed in place of an output that is not there. -/
def missingOutputHash : Bytes :=
  Bytes.ofNatLE 32 1

/-- The digest that a signature of the input signs. -/
def signatureHash (tx : Transaction) (index : Nat) (code : Bytes) (hashType : UInt8) : Bytes :=
  let type := HashType.ofByte hashType
  if type.outputs = .single ∧ tx.outputs.length ≤ index then missingOutputHash
  else
    let hashed : Transaction :=
      { tx with
        inputs := tx.hashedInputs index code type
        outputs := tx.hashedOutputs index type }
    Digest.hash256 (hashed.encodeStripped ++ Bytes.ofNatLE 4 hashType.toNat)

end Transaction
end SpendScript
