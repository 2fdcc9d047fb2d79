import SpendScript.Script.Decoding

/-!
# Removal of a pattern

A pattern is removed from a serialized script by walking over it operation by operation: wherever
an operation would begin, the pattern is left out as often as it stands there, and otherwise one
whole operation is copied. A pattern that lies across operations, or inside the data of one, is
not touched.
-/
set_option autoImplicit false

namespace SpendScript.Script

/-- The bytes without the pattern; bytes that are no operation are copied as they are. -/
def removePattern (pattern : Bytes) (bs : Bytes) : Bytes :=
  if _h : pattern ≠ [] ∧ pattern <+: bs then removePattern pattern (bs.drop pattern.length)
  else
    match _h : Operation.read? bs with
    | none => bs
    | some (op, rest) => op.encode ++ removePattern pattern rest
termination_by bs.length
decreasing_by
  · have := List.length_pos_iff.2 _h.1
    have := _h.2.length_le
    rw [List.length_drop]
    omega
  · exact Operation.length_lt_of_read? _h

/-- The bytes without the canonical pushes of the signatures, removed one signature after the
other. -/
def removeSignatures (signatures : List Bytes) (bs : Bytes) : Bytes :=
  signatures.foldl (fun bs signature => removePattern (pushEncoding signature) bs) bs

end SpendScript.Script
