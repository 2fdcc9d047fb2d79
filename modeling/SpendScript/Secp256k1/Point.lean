import SpendScript.Secp256k1.Field

/-!
# Points of the curve

The curve is `y² = x³ + 7`. Sums are computed in Jacobian coordinates, where `(x, y, z)` stands
for the point `(x / z², y / z³)` and `z = 0` for the point at infinity, so that only the final
result needs a division.
-/
set_option autoImplicit false

namespace SpendScript.Secp256k1

structure AffinePoint where
  x : Nat
  y : Nat
  deriving DecidableEq, Repr

/-- The right-hand side of the curve's equation. -/
def curveRhs (x : Nat) : Nat :=
  (x * x % fieldPrime * x + 7) % fieldPrime

/-- Whether the coordinates are in range and satisfy the curve's equation. -/
def AffinePoint.isOnCurve (point : AffinePoint) : Bool :=
  point.x < fieldPrime && point.y < fieldPrime
    && point.y * point.y % fieldPrime == curveRhs point.x

/-- The point whose multiples are the group. -/
def generator : AffinePoint where
  x := 0x79be667ef9dcbbac55a06295ce870b07029bfcdb2dce28d959f2815b16f81798
  y := 0x483ada7726a3c4655da4fbfc0e1108a8fd17b448a68554199c47d08ffb10d4b8

structure JacobianPoint where
  x : Nat
  y : Nat
  z : Nat

namespace JacobianPoint

def infinity : JacobianPoint := ⟨1, 1, 0⟩

def ofAffine (point : AffinePoint) : JacobianPoint :=
  ⟨point.x, point.y, 1⟩

def double (a : JacobianPoint) : JacobianPoint :=
  if a.z = 0 then infinity
  else
    let m := fieldPrime
    let yy := a.y * a.y % m
    let s := 4 * a.x * yy % m
    let slope := 3 * a.x * a.x % m
    let x := subMod m (slope * slope % m) (2 * s % m)
    let y := subMod m (slope * subMod m s x % m) (8 * yy * yy % m)
    ⟨x, y, 2 * a.y * a.z % m⟩

def add (a b : JacobianPoint) : JacobianPoint :=
  if a.z = 0 then b
  else if b.z = 0 then a
  else
    let m := fieldPrime
    let az := a.z * a.z % m
    let bz := b.z * b.z % m
    let ux := a.x * bz % m
    let vx := b.x * az % m
    let uy := a.y * (bz * b.z % m) % m
    let vy := b.y * (az * a.z % m) % m
    if ux = vx then if uy = vy then double a else infinity
    else
      let h := subMod m vx ux
      let r := subMod m vy uy
      let hh := h * h % m
      let hhh := hh * h % m
      let v := ux * hh % m
      let x := subMod m (subMod m (r * r % m) hhh) (2 * v % m)
      let y := subMod m (r * subMod m v x % m) (uy * hhh % m)
      ⟨x, y, a.z * b.z % m * h % m⟩

/-- Doubles `acc` and adds `a` or `b` where the next lower bit of `u` or `v` is set, for the given
number of bits: from infinity and with enough bits, the result is `u • a + v • b`. -/
def combineFrom (u v : Nat) (a b ab : JacobianPoint) : Nat → JacobianPoint → JacobianPoint
  | 0, acc => acc
  | i + 1, acc =>
    let doubled := double acc
    let next := match u.testBit i, v.testBit i with
      | true, true => add doubled ab
      | true, false => add doubled a
      | false, true => add doubled b
      | false, false => doubled
    combineFrom u v a b ab i next

/-- The sum `u • a + v • b` for numbers of at most 256 bits. -/
def combine (u : Nat) (a : AffinePoint) (v : Nat) (b : AffinePoint) : JacobianPoint :=
  let ja := ofAffine a
  let jb := ofAffine b
  combineFrom u v ja jb (add ja jb) 256 infinity

/-- The affine `x`, unless the point is at infinity. -/
def affineX? (a : JacobianPoint) : Option Nat :=
  if a.z = 0 then none
  else
    let inverse := invMod fieldPrime a.z
    some (a.x * (inverse * inverse % fieldPrime) % fieldPrime)

end JacobianPoint
end SpendScript.Secp256k1
