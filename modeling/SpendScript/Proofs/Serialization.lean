import SpendScript.Script.Decoding

/-!
# Scripts and their bytes

Between the byte strings of bounded length that are cut without remainder and the lists of
well-formed operations, decoding and writing are inverse to each other. A push keeps the form in
which it was written, short or long, so nothing is normalised on the way. Each operation is read
back whatever follows it, and so any selection of the operations of a decoded script is again the
decoding of its own bytes.
-/
set_option autoImplicit false

namespace SpendScript.Script

variable {bs : Bytes} {script part : Script}

/-- The bytes of well-formed operations are decoded, if they are not too many. -/
theorem decode_encode (wellFormed : ∀ op ∈ script, op.WellFormed)
    (short : script.encode.length ≤ Limits.scriptSize) : decode script.encode = .ok script := by
  unfold decode
  rw [if_neg (Nat.not_lt.2 short), read?_encode wellFormed]

theorem decode_of_lt (long : Limits.scriptSize < bs.length) : decode bs = .error .scriptSize := by
  unfold decode
  rw [if_pos long]

theorem decode_error {error : ScriptError} (short : bs.length ≤ Limits.scriptSize)
    (h : decode bs = .error error) : error = .badOpcode := by
  rw [decode, if_neg (Nat.not_lt.2 short)] at h
  split at h
  · cases h
  · cases h
    rfl

theorem decode_eq_ok_iff :
    decode bs = .ok script ↔
      bs.length ≤ Limits.scriptSize ∧ script.encode = bs ∧ ∀ op ∈ script, op.WellFormed := by
  constructor
  · intro decoded
    rcases Nat.lt_or_ge Limits.scriptSize bs.length with long | short
    · rw [decode_of_lt long] at decoded
      cases decoded
    · rw [decode, if_neg (Nat.not_lt.2 short)] at decoded
      split at decoded
      · next read =>
        cases decoded
        obtain ⟨bytes, wellFormed⟩ := read?_eq_some read
        exact ⟨short, bytes.symm, wellFormed⟩
      · cases decoded
  · rintro ⟨short, rfl, wellFormed⟩
    exact decode_encode wellFormed short

theorem encode_cons (op : Operation) (ops : Script) :
    encode (op :: ops) = op.encode ++ encode ops :=
  rfl

theorem encode_length_le (sub : part.Sublist script) :
    part.encode.length ≤ script.encode.length := by
  induction sub with
  | slnil => exact Nat.le_refl _
  | cons op _ ih =>
    rw [encode_cons, List.length_append]
    omega
  | cons_cons op _ ih =>
    rw [encode_cons, encode_cons, List.length_append, List.length_append]
    omega

/-- A selection of the operations of a decoded script is decoded from its own bytes. -/
theorem decode_of_sublist (decoded : decode bs = .ok script) (sub : part.Sublist script) :
    decode part.encode = .ok part := by
  obtain ⟨short, rfl, wellFormed⟩ := decode_eq_ok_iff.1 decoded
  refine decode_encode (fun op hop => wellFormed op (sub.subset hop)) ?_
  exact Nat.le_trans (encode_length_le sub) short

/-- Decoding accepts exactly the written forms of well-formed operations within the size limit and
answers with those operations. It refuses a script that is too long for its size, and everything
else for a push that runs past the end. -/
theorem decode_accepts_encoded (bs : Bytes) :
    (∀ script : Script, (∀ op ∈ script, op.WellFormed) →
      (decode bs = .ok script ↔ bs.length ≤ Limits.scriptSize ∧ script.encode = bs)) ∧
    (∀ script, decode bs = .ok script → ∀ op ∈ script, op.WellFormed) ∧
    (decode bs = .error .scriptSize ↔ Limits.scriptSize < bs.length) ∧
    ∀ error, decode bs = .error error → error ≠ .scriptSize → error = .badOpcode := by
  refine ⟨fun script wellFormed => ?_, fun script decoded => ?_, ?_, fun error refused other => ?_⟩
  · rw [decode_eq_ok_iff]
    constructor
    · rintro ⟨short, bytes, _⟩
      exact ⟨short, bytes⟩
    · rintro ⟨short, bytes⟩
      exact ⟨short, bytes, wellFormed⟩
  · exact (decode_eq_ok_iff.1 decoded).2.2
  · constructor
    · intro refused
      rcases Nat.lt_or_ge Limits.scriptSize bs.length with long | short
      · exact long
      · cases decode_error short refused
    · exact decode_of_lt
  · rcases Nat.lt_or_ge Limits.scriptSize bs.length with long | short
    · rw [decode_of_lt long] at refused
      cases refused
      exact absurd rfl other
    · exact decode_error short refused

/-- A push in a longer form than needed is read back as it was written. -/
theorem decode_accepts_encoded_length1 :
    decode [0x4c, 0x01, 0x05, 0x51] = .ok [.push .length1 [0x05], .code 0x51] :=
  ((decode_accepts_encoded _).1 _ (by decide)).2 ⟨by decide, by decide⟩

end SpendScript.Script
