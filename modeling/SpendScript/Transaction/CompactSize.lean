import SpendScript.Bytes

/-!
# Compact sizes

Counts and lengths up to 64 bits in one, three, five or nine bytes. A size is written in the
fewest bytes that hold it, and no other form is read.
-/
set_option autoImplicit false

namespace SpendScript.CompactSize

/-- The written form of a size of at most 64 bits. -/
def encode (n : Nat) : Bytes :=
  if n < 0xfd then [UInt8.ofNat n]
  else if n < 0x10000 then 0xfd :: Bytes.ofNatLE 2 n
  else if n < 0x100000000 then 0xfe :: Bytes.ofNatLE 4 n
  else 0xff :: Bytes.ofNatLE 8 n

/-- A size of the given width that is too large for the next narrower form. -/
def readField? (width least : Nat) (bs : Bytes) : Option (Nat × Bytes) :=
  match Bytes.cut? width bs with
  | some (field, rest) =>
    let n := Bytes.toNatLE field
    if least ≤ n then some (n, rest) else none
  | none => none

/-- The size at the front and what follows it. -/
def read? : Bytes → Option (Nat × Bytes)
  | [] => none
  | b :: rest =>
    if b = 0xff then readField? 8 (0x100000000) rest
    else if b = 0xfe then readField? 4 (0x10000) rest
    else if b = 0xfd then readField? 2 0xfd rest
    else some (b.toNat, rest)

end SpendScript.CompactSize
