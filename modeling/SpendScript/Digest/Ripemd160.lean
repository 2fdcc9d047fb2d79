import SpendScript.Digest.Block

/-!
# RIPEMD-160

The digest of 20 bytes that mixes five words along two independent lines of 80 rounds for every
block and joins the lines at the end of the block. Words and lengths are little-endian.
-/
set_option autoImplicit false

namespace SpendScript.Digest.Ripemd160

structure State where
  a : UInt32
  b : UInt32
  c : UInt32
  d : UInt32
  e : UInt32

def initial : State :=
  ⟨0x67452301, 0xefcdab89, 0x98badcfe, 0x10325476, 0xc3d2e1f0⟩

/-- Sixteen rounds: their function and constant, the word of the block each takes and the distance
each rotates by. -/
structure Group where
  mix : UInt32 → UInt32 → UInt32 → UInt32
  constant : UInt32
  order : List Nat
  distances : List UInt32

def parity (b c d : UInt32) : UInt32 :=
  b ^^^ c ^^^ d

def choice (b c d : UInt32) : UInt32 :=
  (b &&& c) ||| (~~~b &&& d)

def notOr (b c d : UInt32) : UInt32 :=
  (b ||| ~~~c) ^^^ d

def select (b c d : UInt32) : UInt32 :=
  (b &&& d) ||| (c &&& ~~~d)

def orNot (b c d : UInt32) : UInt32 :=
  b ^^^ (c ||| ~~~d)

def leftLine : List Group :=
  [⟨parity, 0x00000000,
     [0, 1, 2, 3, 4, 5, 6, 7, 8, 9, 10, 11, 12, 13, 14, 15],
     [11, 14, 15, 12, 5, 8, 7, 9, 11, 13, 14, 15, 6, 7, 9, 8]⟩,
   ⟨choice, 0x5a827999,
     [7, 4, 13, 1, 10, 6, 15, 3, 12, 0, 9, 5, 2, 14, 11, 8],
     [7, 6, 8, 13, 11, 9, 7, 15, 7, 12, 15, 9, 11, 7, 13, 12]⟩,
   ⟨notOr, 0x6ed9eba1,
     [3, 10, 14, 4, 9, 15, 8, 1, 2, 7, 0, 6, 13, 11, 5, 12],
     [11, 13, 6, 7, 14, 9, 13, 15, 14, 8, 13, 6, 5, 12, 7, 5]⟩,
   ⟨select, 0x8f1bbcdc,
     [1, 9, 11, 10, 0, 8, 12, 4, 13, 3, 7, 15, 14, 5, 6, 2],
     [11, 12, 14, 15, 14, 15, 9, 8, 9, 14, 5, 6, 8, 6, 5, 12]⟩,
   ⟨orNot, 0xa953fd4e,
     [4, 0, 5, 9, 7, 12, 2, 10, 14, 1, 3, 8, 11, 6, 15, 13],
     [9, 15, 5, 11, 6, 8, 13, 12, 5, 12, 13, 14, 11, 8, 5, 6]⟩]

def rightLine : List Group :=
  [⟨orNot, 0x50a28be6,
     [5, 14, 7, 0, 9, 2, 11, 4, 13, 6, 15, 8, 1, 10, 3, 12],
     [8, 9, 9, 11, 13, 15, 15, 5, 7, 7, 8, 11, 14, 14, 12, 6]⟩,
   ⟨select, 0x5c4dd124,
     [6, 11, 3, 7, 0, 13, 5, 10, 14, 15, 8, 12, 4, 9, 1, 2],
     [9, 13, 15, 7, 12, 8, 9, 11, 7, 7, 12, 7, 6, 15, 13, 11]⟩,
   ⟨notOr, 0x6d703ef3,
     [15, 5, 1, 3, 7, 14, 6, 9, 11, 8, 12, 2, 10, 0, 4, 13],
     [9, 7, 15, 11, 8, 6, 6, 14, 12, 13, 5, 14, 13, 13, 7, 5]⟩,
   ⟨choice, 0x7a6d76e9,
     [8, 6, 4, 1, 3, 11, 15, 0, 5, 12, 2, 13, 9, 7, 10, 14],
     [15, 5, 8, 11, 14, 14, 6, 14, 6, 9, 12, 9, 12, 5, 15, 8]⟩,
   ⟨parity, 0x00000000,
     [12, 15, 10, 4, 1, 5, 8, 7, 6, 2, 13, 14, 0, 3, 9, 11],
     [8, 5, 12, 9, 12, 5, 14, 6, 8, 13, 6, 5, 15, 13, 11, 11]⟩]

def round (group : Group) (s : State) (input : UInt32 × UInt32) : State :=
  let (w, distance) := input
  let t := rotateLeft (s.a + group.mix s.b s.c s.d + w + group.constant) distance + s.e
  ⟨s.e, t, s.b, rotateLeft s.c 10, s.d⟩

def runGroup (block : List UInt32) (s : State) (group : Group) : State :=
  ((group.order.map fun i => block.getD i 0).zip group.distances).foldl (round group) s

def compress (s : State) (block : List UInt32) : State :=
  let l := leftLine.foldl (runGroup block) s
  let r := rightLine.foldl (runGroup block) s
  ⟨s.b + l.c + r.d, s.c + l.d + r.e, s.d + l.e + r.a, s.e + l.a + r.b, s.a + l.b + r.c⟩

def State.toBytes (s : State) : Bytes :=
  [s.a, s.b, s.c, s.d, s.e].flatMap bytesLE

def digest (message : Bytes) : Bytes :=
  (absorb compress initial (wordsLE (pad (Bytes.ofNatLE 8) message))).toBytes

@[simp] theorem length_digest (message : Bytes) : (digest message).length = 20 := by
  simp [digest, State.toBytes]

end SpendScript.Digest.Ripemd160
