/-!
# Limits

The bounds that keep the evaluation of a script small.
-/
set_option autoImplicit false

namespace SpendScript.Limits

/-- Operations above the small-number pushes that one run may count. -/
def opsPerScript : Nat := 201

/-- Keys that one multi-signature check may name. -/
def keysPerMultiSig : Nat := 20

/-- Bytes of a stack element that is read as a number. -/
def numberSize : Nat := 4

/-- Bytes of a pushed element. -/
def elementSize : Nat := 520

/-- Bytes of a serialized script. -/
def scriptSize : Nat := 10000

/-- Elements of the main and the alternate stack together. -/
def stackSize : Nat := 1000

end SpendScript.Limits
