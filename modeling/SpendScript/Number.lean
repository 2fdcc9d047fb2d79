import SpendScript.Limits
import SpendScript.Number.SignMagnitude
import SpendScript.ScriptError

/-!
# Numbers

A number is an integer of 64 bits. It is read from a byte string of bounded length and written
in its shortest form; sums, differences, negations and absolute values fail when they leave the
range. All failures are of one kind.
-/
set_option autoImplicit false

namespace SpendScript

/-- Whether an integer fits in 64 bits. -/
def FitsInt64 (v : Int) : Prop :=
  -0x8000000000000000 ≤ v ∧ v < 0x8000000000000000

instance (v : Int) : Decidable (FitsInt64 v) :=
  inferInstanceAs (Decidable (_ ∧ _))

structure ScriptNum where
  value : Int
  fits : FitsInt64 value

namespace ScriptNum

theorem ext_value {a b : ScriptNum} (h : a.value = b.value) : a = b := by
  cases a
  cases b
  simp_all

instance : DecidableEq ScriptNum := fun a b =>
  if h : a.value = b.value then .isTrue (ext_value h) else .isFalse fun e => h (e ▸ rfl)

/-- No number is read from more bytes than this, whatever the caller allows. -/
def maxWidth : Nat := 8

def zero : ScriptNum := ⟨0, by decide⟩

def one : ScriptNum := ⟨1, by decide⟩

def ofBool (b : Bool) : ScriptNum :=
  if b then one else zero

/-- The number of an integer in range. -/
def ofInt? (v : Int) : Except ScriptError ScriptNum :=
  if h : FitsInt64 v then .ok ⟨v, h⟩ else .error .unknown

theorem fitsInt64_value {bs : Bytes} (h : bs.length ≤ maxWidth) :
    FitsInt64 (SignMagnitude.value bs) := by
  have bound : SignMagnitude.magnitude bs < 0x8000000000000000 := SignMagnitude.magnitude_lt h
  have abs := SignMagnitude.natAbs_value bs
  unfold FitsInt64
  omega

/-- Reads a number from at most `maxLen` bytes, and never more than eight. With `minimal`, a longer
form than needed is refused. -/
def decode (bs : Bytes) (minimal : Bool) (maxLen : Nat) : Except ScriptError ScriptNum :=
  if h : bs.length ≤ min maxLen maxWidth then
    if minimal && !SignMagnitude.isMinimal bs then .error .unknown
    else .ok ⟨SignMagnitude.value bs, fitsInt64_value (Nat.le_trans h (Nat.min_le_right _ _))⟩
  else .error .unknown

/-- The shortest bytes of the number. -/
def encode (n : ScriptNum) : Bytes :=
  SignMagnitude.encode n.value

def isZero (n : ScriptNum) : Bool :=
  n.value == 0

/-- The nearest number of 32 bits. -/
def toInt32 (n : ScriptNum) : Int :=
  if n.value < -0x80000000 then -0x80000000
  else if 0x7fffffff < n.value then 0x7fffffff
  else n.value

def add? (a b : ScriptNum) : Except ScriptError ScriptNum :=
  ofInt? (a.value + b.value)

def sub? (a b : ScriptNum) : Except ScriptError ScriptNum :=
  ofInt? (a.value - b.value)

def neg? (a : ScriptNum) : Except ScriptError ScriptNum :=
  ofInt? (-a.value)

def abs? (a : ScriptNum) : Except ScriptError ScriptNum :=
  ofInt? a.value.natAbs

def compare (a b : ScriptNum) : Ordering :=
  Ord.compare a.value b.value

def min (a b : ScriptNum) : ScriptNum :=
  if b.value < a.value then b else a

def max (a b : ScriptNum) : ScriptNum :=
  if b.value < a.value then a else b

end ScriptNum
end SpendScript
