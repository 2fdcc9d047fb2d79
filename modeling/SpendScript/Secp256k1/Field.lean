/-!
# Arithmetic modulo a prime

Sums, differences, powers and inverses of numbers below a prime, and the two primes of the curve:
the one of its coordinates and the order of its group.
-/
set_option autoImplicit false

namespace SpendScript.Secp256k1

/-- The prime of the coordinates. -/
def fieldPrime : Nat :=
  0xfffffffffffffffffffffffffffffffffffffffffffffffffffffffefffffc2f

/-- The number of points, the one at infinity included. -/
def groupOrder : Nat :=
  0xfffffffffffffffffffffffffffffffebaaedce6af48a03bbfd25e8cd0364141

/-- The greatest `s` in the lower half of the group order. -/
def halfOrder : Nat :=
  (groupOrder - 1) / 2

/-- The difference modulo `m` of numbers below `m`. -/
def subMod (m a b : Nat) : Nat :=
  (a + (m - b)) % m

/-- Powers by repeated squaring. -/
def powMod (m base exponent : Nat) : Nat :=
  if exponent = 0 then 1 % m
  else
    let half := powMod m (base * base % m) (exponent / 2)
    if exponent % 2 = 1 then half * base % m else half
termination_by exponent

/-- The inverse modulo a prime, by Fermat's little theorem. -/
def invMod (prime a : Nat) : Nat :=
  powMod prime a (prime - 2)

/-- A square root of `a` in the coordinates, if there is one: the prime is three modulo four, so
a power of `a` is a root of every square. -/
def sqrt? (a : Nat) : Option Nat :=
  let root := powMod fieldPrime a ((fieldPrime + 1) / 4)
  if root * root % fieldPrime = a then some root else none

end SpendScript.Secp256k1
