import SpendScript.Digest.Ripemd160
import SpendScript.Digest.Sha1
import SpendScript.Digest.Sha256
import SpendScript.Instruction

/-!
# Digests

The digest that each hash function of a script computes. None is longer than 32 bytes. What is
proved of scripts depends on nothing else about digests than their lengths, so evaluation takes the
hash functions together with these.
-/
set_option autoImplicit false

namespace SpendScript

namespace Digest

def ripemd160 (message : Bytes) : Bytes :=
  Ripemd160.digest message

def sha1 (message : Bytes) : Bytes :=
  Sha1.digest message

def sha256 (message : Bytes) : Bytes :=
  Sha256.digest message

/-- RIPEMD-160 of SHA-256. -/
def hash160 (message : Bytes) : Bytes :=
  ripemd160 (sha256 message)

/-- SHA-256 of SHA-256. -/
def hash256 (message : Bytes) : Bytes :=
  sha256 (sha256 message)

@[simp] theorem length_hash160 (message : Bytes) : (hash160 message).length = 20 := by
  simp [hash160, ripemd160]

end Digest

namespace HashFunction

def apply : HashFunction → Bytes → Bytes
  | .ripemd160 => Digest.ripemd160
  | .sha1 => Digest.sha1
  | .sha256 => Digest.sha256
  | .hash160 => Digest.hash160
  | .hash256 => Digest.hash256

/-- The length of every digest of the function. -/
def size : HashFunction → Nat
  | .ripemd160 | .sha1 | .hash160 => 20
  | .sha256 | .hash256 => 32

@[simp] theorem length_apply (h : HashFunction) (message : Bytes) :
    (h.apply message).length = h.size := by
  cases h <;> simp [apply, size, Digest.ripemd160, Digest.sha1, Digest.sha256, Digest.hash160,
    Digest.hash256]

end HashFunction

/-- Something to compute for each hash function of a script, with digests of the right lengths. -/
structure Hashing where
  digest : HashFunction → Bytes → Bytes
  length_digest (h : HashFunction) (message : Bytes) : (digest h message).length = h.size

namespace Hashing

/-- The hash functions themselves. -/
def standard : Hashing where
  digest := HashFunction.apply
  length_digest := HashFunction.length_apply

end Hashing
end SpendScript
