import SpendScript.Script.Decoding
import SpendScript.Secp256k1.PublicKey
import SpendScript.Signature.LaxDer
import SpendScript.Transaction.Reading
import SpendScript.Transaction.SignatureHash

/-!
# Signature checkers

A checker says whether a signature, with its hash type, is good under a key for a script code.
One that knows no transaction refuses every signature; one for an input of a transaction decides
by ECDSA over the signature hash. Whatever cannot be read is no good signature.
-/
set_option autoImplicit false

namespace SpendScript

/-- The answer for a signature with its hash type, a key and a script code. -/
abbrev SignatureChecker := Bytes → Bytes → Bytes → Bool

/-- Refuses every signature. -/
def SignatureChecker.refuseAll : SignatureChecker := fun _ _ _ => false

/-- The script code as it is signed: without its separators. -/
def Script.stripSeparators? (code : Bytes) : Option Bytes :=
  match Script.decode code with
  | .ok script => some (script.encodeFiltered (· != .code 0xab))
  | .error _ => none

namespace Transaction

/-- Whether the signature is good for the input, unless something cannot be read. -/
def checkSignature? (tx : Transaction) (index : Nat) (signature key code : Bytes) :
    Option Bool := do
  let hashType ← signature.getLast?
  let point ← Secp256k1.PublicKey.parse? key
  let parsed ← LaxDer.parse? signature.dropLast
  let code ← Script.stripSeparators? code
  let message := Bytes.toNatBE (tx.signatureHash index code hashType)
  return parsed.normalize.verify message point

/-- The checker for an input of the transaction. -/
def checker (tx : Transaction) (index : Nat) : Except CheckerError SignatureChecker :=
  if index < tx.inputs.length then
    .ok fun signature key code => (tx.checkSignature? index signature key code).getD false
  else .error .inputIndex

theorem checker_apply {tx : Transaction} {index : Nat} {check : SignatureChecker}
    (found : tx.checker index = .ok check) (signature key code : Bytes) :
    check signature key code = (tx.checkSignature? index signature key code).getD false := by
  rw [checker] at found
  split at found
  · cases found
    rfl
  · cases found

end Transaction
end SpendScript
