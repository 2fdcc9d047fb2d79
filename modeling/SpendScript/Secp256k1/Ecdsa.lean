import SpendScript.Secp256k1.Point

/-!
# ECDSA

Whether a pair of numbers signs a message under a key. The pairs `(r, s)` and `(r, n - s)` sign
the same messages; the one with the lower `s` is the normal form.
-/
set_option autoImplicit false

namespace SpendScript.Secp256k1

structure Signature where
  r : Nat
  s : Nat
  deriving DecidableEq, Repr

namespace Signature

/-- The signature of the same messages whose `s` lies in the lower half. -/
def normalize (sig : Signature) : Signature :=
  if halfOrder < sig.s then { sig with s := groupOrder - sig.s } else sig

/-- Whether the signature is good for the message, a number, under the key. -/
def verify (sig : Signature) (message : Nat) (key : AffinePoint) : Bool :=
  if sig.r = 0 ∨ sig.s = 0 then false
  else
    let w := invMod groupOrder sig.s
    let u := message % groupOrder * w % groupOrder
    let v := sig.r * w % groupOrder
    match (JacobianPoint.combine u generator v key).affineX? with
    | some x => x % groupOrder == sig.r
    | none => false

end Signature
end SpendScript.Secp256k1
