import SpendScript.Bytes
import SpendScript.Secp256k1.Point

/-!
# Public keys

A key is a point of the curve in one of three written forms: the `x` with the parity of `y`,
both coordinates, or both coordinates with the parity of `y` once more.
-/
set_option autoImplicit false

namespace SpendScript.Secp256k1.PublicKey

/-- The point with the given `x` whose `y` has the given parity. -/
def decompress? (x : Nat) (odd : Bool) : Option AffinePoint :=
  if x < fieldPrime then
    (sqrt? (curveRhs x)).map fun y =>
      if (y % 2 == 1) == odd then ⟨x, y⟩ else ⟨x, fieldPrime - y⟩
  else none

/-- The point with the given coordinates, if it is on the curve. -/
def ofCoordinates? (x y : Nat) : Option AffinePoint :=
  let point : AffinePoint := ⟨x, y⟩
  if point.isOnCurve then some point else none

/-- Reads a key in any of its forms. -/
def parse? : Bytes → Option AffinePoint
  | [] => none
  | tag :: body =>
    if body.length = 32 then
      let x := Bytes.toNatBE body
      if tag = 2 then decompress? x false
      else if tag = 3 then decompress? x true
      else none
    else if body.length = 64 then
      let x := Bytes.toNatBE (body.take 32)
      let y := Bytes.toNatBE (body.drop 32)
      if tag = 4 ∨ (tag = 6 ∧ y % 2 = 0) ∨ (tag = 7 ∧ y % 2 = 1) then ofCoordinates? x y
      else none
    else none

end SpendScript.Secp256k1.PublicKey
