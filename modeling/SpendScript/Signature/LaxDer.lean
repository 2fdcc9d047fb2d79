import SpendScript.Bytes
import SpendScript.Secp256k1.Ecdsa

/-!
# Lax DER signatures

Reads the numbers of a signature out of bytes that need not be strict DER: the length of the
sequence is ignored, lengths may take several bytes, integers may have any number of leading
zeros and are never negative, and whatever follows them is ignored. If either number is not
below the group order, both count as zero, which signs nothing.
-/
set_option autoImplicit false

namespace SpendScript.LaxDer

open Secp256k1 (Signature groupOrder)

/-- The number of bytes from which on a length, leading zeros apart, is refused. -/
def lengthLimit : Nat := 8

/-- Skips the length of the sequence, whatever it says. -/
def skipLength? : Bytes → Option Bytes
  | [] => none
  | b :: rest =>
    if b < 0x80 then some rest
    else (Bytes.cut? (b.toNat - 0x80) rest).map (·.2)

/-- A length in its short or its long form. -/
def readLength? : Bytes → Option (Nat × Bytes)
  | [] => none
  | b :: rest =>
    if b < 0x80 then some (b.toNat, rest)
    else
      match Bytes.cut? (b.toNat - 0x80) rest with
      | some (field, rest) =>
        let digits := Bytes.dropZeros field
        if digits.length < lengthLimit then some (Bytes.toNatBE digits, rest) else none
      | none => none

/-- The bytes of the integer at the front and what follows it. -/
def readInteger? : Bytes → Option (Bytes × Bytes)
  | [] => none
  | tag :: rest =>
    if tag = 0x02 then
      match readLength? rest with
      | some (length, rest) => Bytes.cut? length rest
      | none => none
    else none

/-- The signature of two integers, read as natural numbers. -/
def ofIntegers (r s : Bytes) : Signature :=
  let r := Bytes.toNatBE r
  let s := Bytes.toNatBE s
  if r < groupOrder ∧ s < groupOrder then ⟨r, s⟩ else ⟨0, 0⟩

/-- Reads a signature without its hash type. -/
def parse? : Bytes → Option Signature
  | [] => none
  | tag :: rest =>
    if tag = 0x30 then do
      let rest ← skipLength? rest
      let (r, rest) ← readInteger? rest
      let (s, _) ← readInteger? rest
      return ofIntegers r s
    else none

end SpendScript.LaxDer
