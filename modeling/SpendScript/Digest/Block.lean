import SpendScript.Bytes

/-!
# Message blocks

What the digests share: a message is padded to whole blocks of sixteen 32-bit words, and a state
absorbs the blocks one after the other.
-/
set_option autoImplicit false

namespace SpendScript.Digest

/-- Bits that leave a word at the top come back at the bottom; `0 < n < 32`. -/
def rotateLeft (x n : UInt32) : UInt32 :=
  (x <<< n) ||| (x >>> (32 - n))

/-- The message, a set bit, as many clear bits as are needed, and the length in bits in eight
bytes: together a multiple of 64 bytes. -/
def pad (writeLength : Nat → Bytes) (message : Bytes) : Bytes :=
  let zeros := (119 - message.length % 64) % 64
  message ++ 0x80 :: (List.replicate zeros 0 ++ writeLength (8 * message.length))

def wordBE (a b c d : UInt8) : UInt32 :=
  (a.toUInt32 <<< 24) ||| (b.toUInt32 <<< 16) ||| (c.toUInt32 <<< 8) ||| d.toUInt32

/-- The words of four bytes each, most significant byte first. -/
def wordsBE : Bytes → List UInt32
  | a :: b :: c :: d :: rest => wordBE a b c d :: wordsBE rest
  | _ => []

/-- The words of four bytes each, least significant byte first. -/
def wordsLE : Bytes → List UInt32
  | a :: b :: c :: d :: rest => wordBE d c b a :: wordsLE rest
  | _ => []

def bytesBE (w : UInt32) : Bytes :=
  Bytes.ofNatBE 4 w.toNat

def bytesLE (w : UInt32) : Bytes :=
  Bytes.ofNatLE 4 w.toNat

/-- The state after all blocks of sixteen words. -/
def absorb {State : Type} (compress : State → List UInt32 → State) (state : State)
    (words : List UInt32) : State :=
  match words with
  | [] => state
  | w :: rest => absorb compress (compress state (w :: rest.take 15)) (rest.drop 15)
termination_by words.length
decreasing_by simp only [List.length_drop, List.length_cons]; omega

/-- Extends a message schedule, the latest word first, by `n` words. -/
def extendSchedule (next : List UInt32 → UInt32) : Nat → List UInt32 → List UInt32
  | 0, words => words
  | n + 1, words => extendSchedule next n (next words :: words)

@[simp] theorem length_bytesBE (w : UInt32) : (bytesBE w).length = 4 := by
  simp [bytesBE]

@[simp] theorem length_bytesLE (w : UInt32) : (bytesLE w).length = 4 := by
  simp [bytesLE]

end SpendScript.Digest
