import SpendScript.Proofs.DerForms
import SpendScript.Proofs.QuestionLimits
import SpendScript.Transaction.Checker

/-!
# Two readings of one signature

A signature is read twice, by readers that do not know of each other: the encoding rules read it
strictly, with its hash type, and the checker reads it laxly, without. The lax reader skips the
length of the sequence, allows long lengths and ends before whatever follows, but the strict form
has short lengths only, and there both take the same bytes for the two numbers. So where strict
signatures are demanded, the checker answers for the numbers that the rules have seen.
-/
set_option autoImplicit false

namespace SpendScript

open Secp256k1 (Signature groupOrder)

namespace LaxDer

/-- The signature of two numbers. Numbers out of range sign nothing. -/
def ofNumbers (r s : Nat) : Signature :=
  if r < groupOrder ∧ s < groupOrder then ⟨r, s⟩ else ⟨0, 0⟩

theorem ofIntegers_natural (r s : Nat) :
    ofIntegers (StrictDer.natural r) (StrictDer.natural s) = ofNumbers r s := by
  simp only [ofIntegers, ofNumbers, StrictDer.toNatBE_natural]

theorem skipLength?_short {length : Nat} (short : length < 128) (rest : Bytes) :
    skipLength? (UInt8.ofNat length :: rest) = some rest := by
  have low : UInt8.ofNat length < 0x80 := by
    rw [UInt8.lt_iff_toNat_lt, UInt8.toNat_ofNat']
    exact Nat.lt_of_le_of_lt (Nat.mod_le _ _) short
  rw [skipLength?, if_pos low]

theorem readLength?_short {length : Nat} (short : length < 128) (rest : Bytes) :
    readLength? (UInt8.ofNat length :: rest) = some (length, rest) := by
  have value : (UInt8.ofNat length).toNat = length := by
    rw [UInt8.toNat_ofNat']
    omega
  have low : UInt8.ofNat length < 0x80 := by
    rw [UInt8.lt_iff_toNat_lt, value]
    exact short
  rw [readLength?, if_pos low, value]

/-- Behind a short length the lax reader takes what the strict one takes. -/
theorem readInteger?_tagged {digits : Bytes} (rest : Bytes) (short : digits.length < 128) :
    readInteger? (StrictDer.tagged digits ++ rest) = some (digits, rest) := by
  simp [StrictDer.tagged, readInteger?, readLength?_short short, Bytes.cut?_append]

/-- The lax reader takes the parts of a written signature, whether these are in shortest form or
not. -/
theorem parse?_fields {f : StrictDer.Fields} (short : f.encode.length ≤ StrictDer.maxLength) :
    parse? f.encode.dropLast = some (ofIntegers f.r f.s) := by
  have limit : StrictDer.maxLength = 73 := rfl
  have length := f.length_encode
  have outer : (StrictDer.tagged f.r ++ StrictDer.tagged f.s).length < 128 := by
    rw [List.length_append, StrictDer.length_tagged, StrictDer.length_tagged]
    omega
  have front : f.encode.dropLast = 0x30 ::
      UInt8.ofNat (StrictDer.tagged f.r ++ StrictDer.tagged f.s).length ::
        (StrictDer.tagged f.r ++ (StrictDer.tagged f.s ++ [])) := by
    rw [StrictDer.Fields.encode, ← List.cons_append, ← List.cons_append, List.dropLast_concat,
      List.append_nil]
  rw [front, parse?, if_pos rfl, skipLength?_short outer]
  simp only [Option.bind_eq_bind, Option.bind_some]
  rw [readInteger?_tagged _ (by omega)]
  simp only [Option.bind_some]
  rw [readInteger?_tagged _ (by omega)]
  rfl

theorem parse?_encode {r s : Nat} {hashType : UInt8}
    (short : (StrictDer.encode r s hashType).length ≤ StrictDer.maxLength) :
    parse? (StrictDer.encode r s hashType).dropLast = some (ofNumbers r s) := by
  rw [StrictDer.encode_eq] at short ⊢
  rw [parse?_fields short, ofIntegers_natural]

end LaxDer

namespace Transaction

/-- The answer for the numbers of a signature: whether they sign the input, unless the key or the
code cannot be read. -/
def checkNumbers? (tx : Transaction) (index : Nat) (numbers : Signature) (hashType : UInt8)
    (key code : Bytes) : Option Bool := do
  let point ← Secp256k1.PublicKey.parse? key
  let code ← Script.stripSeparators? code
  let message := Bytes.toNatBE (tx.signatureHash index code hashType)
  return numbers.normalize.verify message point

theorem checkSignature?_concat (tx : Transaction) (index : Nat) {front key code : Bytes}
    {hashType : UInt8} {numbers : Signature} (parsed : LaxDer.parse? front = some numbers) :
    tx.checkSignature? index (front ++ [hashType]) key code =
      tx.checkNumbers? index numbers hashType key code := by
  simp only [checkSignature?, checkNumbers?, List.getLast?_concat, List.dropLast_concat, parsed,
    Option.bind_eq_bind, Option.bind_some]

theorem checkSignature?_encode (tx : Transaction) (index : Nat) {r s : Nat} {hashType : UInt8}
    (key code : Bytes) (short : (StrictDer.encode r s hashType).length ≤ StrictDer.maxLength) :
    tx.checkSignature? index (StrictDer.encode r s hashType) key code =
      tx.checkNumbers? index (LaxDer.ofNumbers r s) hashType key code := by
  have parsed := LaxDer.parse?_encode short
  rw [StrictDer.encode_eq, StrictDer.Fields.encode] at parsed ⊢
  rw [← List.cons_append, ← List.cons_append, List.dropLast_concat] at parsed
  exact tx.checkSignature?_concat index parsed

end Transaction

/-- Both readers take the same numbers out of the signature. The strict one reads them as they are,
the lax one lets a pair out of range count as zero, and it is for these that a checker answers. -/
structure ReadAlike (sig : Bytes) (r s : Nat) (hashType : UInt8) : Prop where
  written : sig = StrictDer.encode r s hashType
  strict : ∃ f, StrictDer.parse? sig = some f ∧ Bytes.toNatBE f.r = r ∧ Bytes.toNatBE f.s = s ∧
    f.hashType = hashType
  lax : LaxDer.parse? sig.dropLast =
    some (if r < groupOrder ∧ s < groupOrder then ⟨r, s⟩ else ⟨0, 0⟩)
  checked : ∀ (tx : Transaction) (index : Nat) (key code : Bytes),
    tx.checkSignature? index sig key code =
      tx.checkNumbers? index (if r < groupOrder ∧ s < groupOrder then ⟨r, s⟩ else ⟨0, 0⟩)
        hashType key code

theorem readAlike_of_isValid {sig : Bytes} (valid : StrictDer.isValid sig = true) :
    ∃ r s hashType, ReadAlike sig r s hashType := by
  obtain ⟨r, s, hashType, rfl, short⟩ := StrictDer.isValid_iff.1 valid
  refine ⟨r, s, hashType, rfl, ⟨_, StrictDer.parse?_encode short, ?_, ?_, rfl⟩, ?_, ?_⟩
  · exact StrictDer.toNatBE_natural r
  · exact StrictDer.toNatBE_natural s
  · exact LaxDer.parse?_encode short
  · intro tx index key code
    exact tx.checkSignature?_encode index key code short

/-- Under a flag for strict signatures, a signature that keeps the encoding rules is valid, unless
it is empty. -/
theorem SignatureEncoding.isValid_of_check {flags : Flags} {sig : Bytes}
    (wants : wantsStrictDer flags = true) (nonempty : sig ≠ []) (kept : check flags sig = .ok ()) :
    StrictDer.isValid sig = true := by
  rcases check_eq_ok_iff.1 kept with empty | ⟨valid, _, _⟩
  · exact absurd empty nonempty
  · exact valid wants

namespace Spend

/-- Every signature in strict form is read alike by both readers. So where strict signatures are
demanded, every signature that reaches the checker is, the empty one apart, in the run of a script
in any context and in a whole verification. -/
theorem strict_signatures_are_read_alike :
    (∀ sig, StrictDer.isValid sig = true → ∃ r s hashType, ReadAlike sig r s hashType) ∧
    ∀ env : Environment, env.flags.derSig = true →
      (∀ (script : Script) (ctx : Context), ∀ q ∈ (script.execute env ctx).queries,
        q.signature ≠ [] → ∃ r s hashType, ReadAlike q.signature r s hashType) ∧
      ∀ locking unlocking : Bytes, ∀ q ∈ (verify env locking unlocking).queries,
        q.signature ≠ [] → ∃ r s hashType, ReadAlike q.signature r s hashType := by
  refine ⟨fun sig valid => readAlike_of_isValid valid, fun env strict => ?_⟩
  have wants : SignatureEncoding.wantsStrictDer env.flags = true := by
    simp [SignatureEncoding.wantsStrictDer, strict]
  refine ⟨fun script ctx q asked nonempty => ?_, fun locking unlocking q asked nonempty => ?_⟩
  · have kept := checkEncodings_eq_ok_iff.1 (Script.checkEncodings_of_mem_queries asked)
    exact readAlike_of_isValid (SignatureEncoding.isValid_of_check wants nonempty kept.1)
  · have kept := checkEncodings_eq_ok_iff.1 ((verify_asksWithin locking unlocking).encoded q asked)
    exact readAlike_of_isValid (SignatureEncoding.isValid_of_check wants nonempty kept.1)

/-- A signature whose `s` is the group order itself: the strict reader takes it, for the lax one it
counts as zero, and under the flag it still reaches the checker. -/
theorem strict_signatures_are_read_alike_out_of_range :
    let sig := StrictDer.Fields.encode ⟨[1], 0 :: Bytes.ofNatBE 32 groupOrder, 1⟩
    let env : Environment := { flags := { derSig := true } }
    let o := Script.execute [.code 0xac] env (.start [[1], sig])
    let report := verify env [0xac] (41 :: sig ++ [0x51])
    StrictDer.isValid sig = true ∧ LaxDer.parse? sig.dropLast = some ⟨0, 0⟩ ∧
      o.queries.map (·.signature) = [sig] ∧ report.queries.map (·.signature) = [sig] ∧
      (∃ r s hashType, ReadAlike sig r s hashType) ∧
      (∀ q ∈ o.queries, ∃ r s hashType, ReadAlike q.signature r s hashType) ∧
      ∀ q ∈ report.queries, ∃ r s hashType, ReadAlike q.signature r s hashType := by
  intro sig env o report
  have asked : o.queries.map (·.signature) = [sig] := by decide +kernel
  have reported : report.queries.map (·.signature) = [sig] := by decide +kernel
  have valid : StrictDer.isValid sig = true := by decide +kernel
  have nonempty : sig ≠ [] := List.cons_ne_nil _ _
  obtain ⟨readers, demanded⟩ := strict_signatures_are_read_alike
  obtain ⟨inRun, inSpend⟩ := demanded env rfl
  refine ⟨valid, by decide +kernel, asked, reported, readers sig valid, ?_, ?_⟩
  · intro q mem
    have only : q.signature ∈ [sig] := asked ▸ List.mem_map_of_mem mem
    exact inRun _ _ q mem (List.mem_singleton.1 only ▸ nonempty)
  · intro q mem
    have only : q.signature ∈ [sig] := reported ▸ List.mem_map_of_mem mem
    exact inSpend _ _ q mem (List.mem_singleton.1 only ▸ nonempty)

end Spend
end SpendScript
