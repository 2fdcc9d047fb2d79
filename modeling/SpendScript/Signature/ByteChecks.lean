import SpendScript.Signature.EncodingRules

/-!
# Signatures, byte by byte

The encoding rules as a sequence of looks at single bytes, each at an index that is worked out from
the length bytes seen before. A look outside the bytes gives no answer at all. Only what has been
looked at so far says that the next look is safe, so the order of the checks matters: the bytes of
`s` are cut out without another check once the whole is known to be strict DER.
-/
set_option autoImplicit false

namespace SpendScript

namespace Bytes

/-- The bytes from one index up to another, if these are in order and none lies outside. -/
def slice? (bs : Bytes) (start stop : Nat) : Option Bytes :=
  if start ≤ stop ∧ stop ≤ bs.length then some ((bs.drop start).take (stop - start)) else none

/-- Compares the lengths and, where these are equal, the bytes from the front. -/
def compareByLength (a b : Bytes) : Ordering :=
  (compare a.length b.length).then (compare a b)

end Bytes

namespace StrictDer

/-- Whether the integer with its tag at the index `tag` and of the given length is in shortest form
and not negative. -/
def integerAt? (sig : Bytes) (tag length : Nat) : Option Bool := do
  if (← sig[tag]?) ≠ 0x02 then return false
  if length = 0 then return false
  if 0x80 ≤ (← sig[tag + 2]?) then return false
  if 1 < length then
    if (← sig[tag + 2]?) = 0 then
      if (← sig[tag + 3]?) < 0x80 then return false
  return true

/-- Whether the bytes are a signature in strict DER. Both length bytes are settled before any byte of
an integer is looked at. -/
def isValidAt? (sig : Bytes) : Option Bool := do
  if sig.length < 9 ∨ maxLength < sig.length then return false
  if (← sig[0]?) ≠ 0x30 then return false
  if (← sig[1]?).toNat ≠ sig.length - 3 then return false
  let rLength := (← sig[3]?).toNat
  if sig.length ≤ 5 + rLength then return false
  let sLength := (← sig[5 + rLength]?).toNat
  if rLength + sLength + 7 ≠ sig.length then return false
  if !(← integerAt? sig 2 rLength) then return false
  integerAt? sig (rLength + 4) sLength

end StrictDer

namespace SignatureEncoding

/-- The greatest `s` in the lower half of the group order, the most significant byte first. -/
def halfOrderBytes : Bytes :=
  [0x7f, 0xff, 0xff, 0xff, 0xff, 0xff, 0xff, 0xff, 0xff, 0xff, 0xff, 0xff, 0xff, 0xff, 0xff, 0xff,
   0x5d, 0x57, 0x6e, 0x73, 0x57, 0xa4, 0x50, 0x1d, 0xdf, 0xe9, 0x2f, 0x46, 0x68, 0x1b, 0x20, 0xa0]

/-- Whether the bytes where `s` should be are, without leading zeros, neither none at all nor behind
those of half the group order. -/
def hasLowSAt? (sig : Bytes) : Option Bool := do
  let rLength := (← sig[3]?).toNat
  let sLength := (← sig[5 + rLength]?).toNat
  let s := Bytes.dropZeros (← sig.slice? (6 + rLength) (6 + rLength + sLength))
  return !s.isEmpty && (s.compareByLength (Bytes.dropZeros halfOrderBytes)).isLE

/-- The first rule that a signature with its hash type breaks, each rule looked at byte by byte. -/
def checkAt? (flags : Flags) (sig : Bytes) : Option (Except ScriptError Unit) := do
  if sig.isEmpty then return .ok ()
  if wantsStrictDer flags then
    if !(← StrictDer.isValidAt? sig) then return .error .sigDer
  if flags.lowS then
    if !(← hasLowSAt? sig) then return .error .sigHighS
  if flags.strictEnc && !hasKnownHashType sig then return .error .sigHashType
  return .ok ()

end SignatureEncoding
end SpendScript
