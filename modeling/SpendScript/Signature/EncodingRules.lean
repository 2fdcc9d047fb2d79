import SpendScript.Flags
import SpendScript.ScriptError
import SpendScript.Secp256k1.Field
import SpendScript.Signature.StrictDer

/-!
# Encoding rules

What the flags demand of the bytes of a signature and of a key before anyone asks whether the
signature is good. The empty signature is always allowed: it is the proper way to give none.
-/
set_option autoImplicit false

namespace SpendScript

namespace SignatureEncoding

/-- Whether any flag demands strict DER. -/
def wantsStrictDer (flags : Flags) : Bool :=
  flags.derSig || flags.lowS || flags.strictEnc

/-- Whether `s` is positive and in the lower half of the group order. -/
def hasLowS (sig : Bytes) : Bool :=
  match StrictDer.parse? sig with
  | some fields =>
    let s := Bytes.toNatBE fields.s
    0 < s && s ≤ Secp256k1.halfOrder
  | none => false

/-- Whether the last byte, the bit for a single input left out, is one of the three hash types. -/
def hasKnownHashType (sig : Bytes) : Bool :=
  match sig.getLast? with
  | some hashType =>
    let base := hashType &&& 0x7f
    1 ≤ base && base ≤ 3
  | none => false

/-- The first rule that a signature with its hash type breaks. -/
def check (flags : Flags) (sig : Bytes) : Except ScriptError Unit :=
  if sig.isEmpty then .ok ()
  else if wantsStrictDer flags && !StrictDer.isValid sig then .error .sigDer
  else if flags.lowS && !hasLowS sig then .error .sigHighS
  else if flags.strictEnc && !hasKnownHashType sig then .error .sigHashType
  else .ok ()

end SignatureEncoding

namespace KeyEncoding

/-- Whether the bytes have the length and the tag of a compressed or of an uncompressed key. -/
def isStandard : Bytes → Bool
  | [] => false
  | tag :: body =>
    if body.length = 32 then tag == 2 || tag == 3
    else if body.length = 64 then tag == 4
    else false

def check (flags : Flags) (key : Bytes) : Except ScriptError Unit :=
  if flags.strictEnc && !isStandard key then .error .pubkeyType else .ok ()

end KeyEncoding

/-- The first rule that a signature and a key break, the signature first. -/
def Flags.checkEncodings (flags : Flags) (signature key : Bytes) : Except ScriptError Unit :=
  match SignatureEncoding.check flags signature with
  | .ok () => KeyEncoding.check flags key
  | .error error => .error error

end SpendScript
