import SpendScript.Number

/-!
# Numbers in words

Reads and writes numbers in words of 64 bits: the bytes are shifted to their places, a sign bit is
masked out and the word is negated; the other way round, the digits of the absolute value are taken
off at the low end and the sign is put into the last one or behind it. A shift or a negation that
overflows has no answer at all.
-/
set_option autoImplicit false

namespace SpendScript

/-- 64 bits, which stand for a natural number or, in two's complement, for an integer. -/
abbrev Word := BitVec 64

namespace Word

/-- Moves the bits up. Nothing may get lost, and the distance is less than the width. -/
def shiftLeft? (w : Word) (places : Nat) : Option Word :=
  if places < 64 ∧ (w <<< places) >>> places = w then some (w <<< places) else none

/-- The integer with the other sign, which the least one does not have. -/
def neg? (w : Word) : Option Word :=
  if w = BitVec.intMin 64 then none else some (-w)

/-- Adds bytes to a word, the first of them at the place of the byte with the index `i`. -/
def gather? (w : Word) (i : Nat) : Bytes → Option Word
  | [] => some w
  | b :: rest => do
    let placed ← shiftLeft? (b.toBitVec.setWidth 64) (8 * i)
    gather? (w ||| placed) (i + 1) rest

/-- The integer that a byte string stands for. -/
def ofSignMagnitude? (bs : Bytes) : Option Word :=
  match bs.getLast? with
  | none => some 0
  | some last => do
    let w ← gather? 0 0 bs
    if last &&& 0x80 ≠ 0 then
      let sign ← shiftLeft? 0x80 (8 * (bs.length - 1))
      neg? (w &&& ~~~sign)
    else return w

/-- The bytes of a natural number, the lowest first. Zero has none. -/
def digits (w : Word) : Bytes :=
  if _h : w = 0 then [] else UInt8.ofNat (w &&& 0xff).toNat :: digits (w >>> 8)
termination_by w.toNat
decreasing_by
  have positive : w.toNat ≠ 0 := fun zero => _h (BitVec.eq_of_toNat_eq zero)
  rw [BitVec.toNat_ushiftRight, Nat.shiftRight_eq_div_pow]
  omega

/-- Puts a sign into the last byte of a magnitude, or behind it if its top bit is in use. -/
def withSign (negative : Bool) (magnitude : Bytes) : Bytes :=
  match magnitude.getLast? with
  | none => []
  | some last =>
    if last &&& 0x80 ≠ 0 then magnitude ++ [if negative then 0x80 else 0x00]
    else if negative then magnitude.dropLast ++ [last ||| 0x80]
    else magnitude

/-- The shortest bytes of an integer. -/
def toSignMagnitude (w : Word) : Bytes :=
  if w = 0 then [] else withSign (w.slt 0) (digits w.abs)

end Word

/-- Whether the last byte has a bit besides the sign, or its sign could not be in the byte before. -/
def SignMagnitude.hasMinimalEnd (bs : Bytes) : Bool :=
  match bs.getLast? with
  | none => true
  | some last =>
    if last &&& 0x7f = 0 then
      match bs.dropLast.getLast? with
      | none => false
      | some before => before &&& 0x80 ≠ 0
    else true

namespace ScriptNum

def toWord (n : ScriptNum) : Word :=
  BitVec.ofInt 64 n.value

/-- Reads a number as `decode` does, in words. -/
def decodeWord? (bs : Bytes) (minimal : Bool) (maxLen : Nat) : Option (Except ScriptError Word) :=
  if Nat.min maxLen maxWidth < bs.length then some (.error .unknown)
  else if minimal && !SignMagnitude.hasMinimalEnd bs then some (.error .unknown)
  else (Word.ofSignMagnitude? bs).map .ok

end ScriptNum
end SpendScript
