import SpendScript.Bytes

/-!
# Strict DER signatures

The one written form of two natural numbers and a hash type: a tagged sequence of two tagged
integers in shortest form, then the hash type. Every length fits in one byte and the whole has
at most 73 bytes.
-/
set_option autoImplicit false

namespace SpendScript.StrictDer

/-- The parts of a signature: the bytes of both integers and the hash type. -/
structure Fields where
  r : Bytes
  s : Bytes
  hashType : UInt8
  deriving DecidableEq, Repr

/-- The greatest length of a signature with its hash type. -/
def maxLength : Nat := 73

/-- Whether the bytes are an integer in shortest form that is not negative: the first bit is the
sign, and a zero byte comes first only where the next byte would show a sign. -/
def isNatural : Bytes → Bool
  | [] => false
  | [b] => b < 0x80
  | b :: next :: _ => b < 0x80 && (b != 0 || 0x80 ≤ next)

/-- The integer at the front and what follows it. -/
def readNatural? : Bytes → Option (Bytes × Bytes)
  | tag :: length :: rest =>
    if tag = 0x02 then
      match Bytes.cut? length.toNat rest with
      | some (digits, rest) => if isNatural digits then some (digits, rest) else none
      | none => none
    else none
  | _ => none

/-- The fields of the body of a signature. -/
def readBody? (body : Bytes) : Option Fields :=
  match readNatural? body with
  | some (r, rest) =>
    match readNatural? rest with
    | some (s, [hashType]) => some ⟨r, s, hashType⟩
    | _ => none
  | none => none

/-- Reads a signature with its hash type, if it is written in the one form there is. -/
def parse? (sig : Bytes) : Option Fields :=
  match sig with
  | tag :: length :: body =>
    if tag = 0x30 ∧ length.toNat + 3 = sig.length ∧ sig.length ≤ maxLength then readBody? body
    else none
  | _ => none

/-- Whether the bytes are a signature in strict DER. -/
def isValid (sig : Bytes) : Bool :=
  (parse? sig).isSome

/-- The shortest bytes of a natural number that leave the sign bit clear. -/
def natural (n : Nat) : Bytes :=
  if n < 128 then [UInt8.ofNat n] else natural (n / 256) ++ [UInt8.ofNat n]
termination_by n

/-- The written form of two numbers and a hash type. -/
def encode (r s : Nat) (hashType : UInt8) : Bytes :=
  let rBytes := natural r
  let sBytes := natural s
  [0x30, UInt8.ofNat (4 + rBytes.length + sBytes.length)]
    ++ [0x02, UInt8.ofNat rBytes.length] ++ rBytes
    ++ [0x02, UInt8.ofNat sBytes.length] ++ sBytes ++ [hashType]

end SpendScript.StrictDer
