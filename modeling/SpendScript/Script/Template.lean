import SpendScript.Script.Decoding

/-!
# Templates

Properties of serialized scripts that are decided from their bytes.
-/
set_option autoImplicit false

namespace SpendScript.Script

/-- Whether the bytes are a push-only script; bytes that do not decode are none. -/
def isPushOnlyBytes (bs : Bytes) : Bool :=
  match decode bs with
  | .ok script => script.isPushOnly
  | .error _ => false

/-- Whether the bytes pay to a script hash: hash the top, compare it with 20 given bytes. -/
def isScriptHashTemplate : Bytes → Bool
  | 0xa9 :: 0x14 :: rest => rest.length == 21 && rest.getLast? == some 0x87
  | _ => false

end SpendScript.Script
