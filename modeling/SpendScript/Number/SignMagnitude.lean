import SpendScript.Bytes

/-!
# Sign and magnitude

Integers as byte strings: the magnitude little-endian, the sign in the top bit of the last byte,
and zero as the empty string. Every byte string has a value; every integer has one shortest
string. A string is shortest when its last byte carries more than a sign, or when the byte
before it has its own top bit in use.
-/
set_option autoImplicit false

namespace SpendScript.SignMagnitude

/-- The magnitude: the sign bit of the last byte is left out. -/
def magnitude : Bytes → Nat
  | [] => 0
  | [last] => last.toNat % 128
  | b :: next :: rest => b.toNat + 256 * magnitude (next :: rest)

/-- Whether the sign bit is set. -/
def isNegative : Bytes → Bool
  | [] => false
  | [last] => 128 ≤ last.toNat
  | _ :: next :: rest => isNegative (next :: rest)

/-- The integer that a byte string stands for. -/
def value (bs : Bytes) : Int :=
  if isNegative bs then -(magnitude bs : Int) else magnitude bs

/-- The shortest bytes of a positive magnitude. The last digit gets a byte of its own for the sign
when it reaches into the top bit. -/
def digits (negative : Bool) (n : Nat) : Bytes :=
  let sign := if negative then 128 else 0
  if n < 128 then [UInt8.ofNat (n + sign)]
  else if n < 256 then [UInt8.ofNat n, UInt8.ofNat sign]
  else UInt8.ofNat n :: digits negative (n / 256)
termination_by n

/-- The shortest bytes of an integer. -/
def encode (v : Int) : Bytes :=
  if v = 0 then [] else digits (v < 0) v.natAbs

/-- Whether no shorter string has the same value. -/
def isMinimal : Bytes → Bool
  | [] => true
  | [last] => last.toNat % 128 ≠ 0
  | [before, last] => last.toNat % 128 ≠ 0 || 128 ≤ before.toNat
  | _ :: next :: rest => isMinimal (next :: rest)

/-- Whether the value is not zero, decided at the first byte that is not zero: a sign bit alone in
the last byte is a negative zero. -/
def truthy : Bytes → Bool
  | [] => false
  | [last] => last ≠ 0 && last ≠ 0x80
  | b :: next :: rest => b ≠ 0 || truthy (next :: rest)

/-- The same by looks at single bytes, from the one with the index `i` on, in a string of the given
length: the index tells which byte is the last. -/
def truthyFrom (length i : Nat) : Bytes → Bool
  | [] => false
  | b :: rest => if b ≠ 0 then !(i = length - 1 && b = 0x80) else truthyFrom length (i + 1) rest

/-- One bit of the last byte is the sign, so the magnitude stays below half of what the bytes
could hold. -/
theorem magnitude_cons_lt (b : UInt8) (rest : Bytes) :
    magnitude (b :: rest) < 128 * Bytes.capacity rest.length := by
  induction rest generalizing b with
  | nil => exact Nat.mod_lt _ (by decide)
  | cons next rest ih =>
    have hb : b.toNat < 256 := b.toNat_lt
    have := ih next
    rw [magnitude, List.length_cons, Bytes.capacity]
    omega

theorem magnitude_lt {bs : Bytes} {width : Nat} (h : bs.length ≤ width + 1) :
    magnitude bs < 128 * Bytes.capacity width := by
  cases bs with
  | nil => exact Nat.mul_pos (by decide) (Bytes.capacity_pos width)
  | cons b rest =>
    have hr : rest.length ≤ width := by simpa using h
    exact Nat.lt_of_lt_of_le (magnitude_cons_lt b rest)
      (Nat.mul_le_mul_left _ (Bytes.capacity_le hr))

theorem natAbs_value (bs : Bytes) : (value bs).natAbs = magnitude bs := by
  unfold value
  split <;> simp

end SpendScript.SignMagnitude
