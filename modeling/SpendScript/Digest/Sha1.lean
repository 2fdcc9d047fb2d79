import SpendScript.Digest.Block

/-!
# SHA-1

The digest of 20 bytes that mixes five words over 80 rounds for every block, in four groups of
twenty rounds that differ in their function and constant.
-/
set_option autoImplicit false

namespace SpendScript.Digest.Sha1

structure State where
  a : UInt32
  b : UInt32
  c : UInt32
  d : UInt32
  e : UInt32

def initial : State :=
  ⟨0x67452301, 0xefcdab89, 0x98badcfe, 0x10325476, 0xc3d2e1f0⟩

/-- The function and the constant of a round. -/
structure Group where
  mix : UInt32 → UInt32 → UInt32 → UInt32
  constant : UInt32

def choice (b c d : UInt32) : UInt32 :=
  (b &&& c) ||| (~~~b &&& d)

def parity (b c d : UInt32) : UInt32 :=
  b ^^^ c ^^^ d

def majority (b c d : UInt32) : UInt32 :=
  (b &&& c) ||| (b &&& d) ||| (c &&& d)

def groups : List Group :=
  [⟨choice, 0x5a827999⟩, ⟨parity, 0x6ed9eba1⟩, ⟨majority, 0x8f1bbcdc⟩, ⟨parity, 0xca62c1d6⟩]

/-- The group of each of the 80 rounds. -/
def rounds : List Group :=
  groups.flatMap (List.replicate 20)

/-- The next word of the schedule, from the words before it, the latest first. -/
def nextWord (words : List UInt32) : UInt32 :=
  rotateLeft (words.getD 2 0 ^^^ words.getD 7 0 ^^^ words.getD 13 0 ^^^ words.getD 15 0) 1

def schedule (block : List UInt32) : List UInt32 :=
  (extendSchedule nextWord 64 block.reverse).reverse

def round (s : State) (input : Group × UInt32) : State :=
  let (group, w) := input
  ⟨rotateLeft s.a 5 + group.mix s.b s.c s.d + s.e + group.constant + w,
   s.a, rotateLeft s.b 30, s.c, s.d⟩

def compress (s : State) (block : List UInt32) : State :=
  let t := (rounds.zip (schedule block)).foldl round s
  ⟨s.a + t.a, s.b + t.b, s.c + t.c, s.d + t.d, s.e + t.e⟩

def State.toBytes (s : State) : Bytes :=
  [s.a, s.b, s.c, s.d, s.e].flatMap bytesBE

def digest (message : Bytes) : Bytes :=
  (absorb compress initial (wordsBE (pad (Bytes.ofNatBE 8) message))).toBytes

@[simp] theorem length_digest (message : Bytes) : (digest message).length = 20 := by
  simp [digest, State.toBytes]

end SpendScript.Digest.Sha1
