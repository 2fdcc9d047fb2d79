import SpendScript.Proofs.DerForms
import SpendScript.Signature.EncodingRules

/-!
# What the encoding rules accept

A rule that no flag asks for accepts everything. The lemmas say when a signature and a key pass
all rules, and with which reasons they can be refused.
-/
set_option autoImplicit false

namespace SpendScript

theorem SignatureEncoding.hasLowS_encode {r s : Nat} {hashType : UInt8}
    (short : (StrictDer.encode r s hashType).length ≤ StrictDer.maxLength) :
    hasLowS (StrictDer.encode r s hashType) =
      (decide (0 < s) && decide (s ≤ Secp256k1.halfOrder)) := by
  rw [hasLowS, StrictDer.parse?_encode short]
  simp only [StrictDer.toNatBE_natural]

theorem SignatureEncoding.check_eq_ok_iff {flags : Flags} {sig : Bytes} {u : Unit} :
    check flags sig = .ok u ↔ sig = [] ∨
      (wantsStrictDer flags = true → StrictDer.isValid sig = true) ∧
        (flags.lowS = true → hasLowS sig = true) ∧
        (flags.strictEnc = true → hasKnownHashType sig = true) := by
  rw [check]
  cases sig with
  | nil => simp
  | cons b rest =>
    simp only [List.isEmpty_cons, Bool.false_eq_true, ↓reduceIte, reduceCtorEq, false_or]
    cases wantsStrictDer flags <;> cases StrictDer.isValid (b :: rest) <;> cases flags.lowS <;>
      cases hasLowS (b :: rest) <;> cases flags.strictEnc <;>
      cases hasKnownHashType (b :: rest) <;> simp

theorem SignatureEncoding.check_error {flags : Flags} {sig : Bytes} {error : ScriptError}
    (h : check flags sig = .error error) :
    error = .sigDer ∨ error = .sigHighS ∨ error = .sigHashType := by
  rw [check] at h
  split at h
  · cases h
  · split at h
    · cases h
      exact Or.inl rfl
    · split at h
      · cases h
        exact Or.inr (Or.inl rfl)
      · split at h
        · cases h
          exact Or.inr (Or.inr rfl)
        · cases h

theorem KeyEncoding.check_eq_ok_iff {flags : Flags} {key : Bytes} {u : Unit} :
    check flags key = .ok u ↔ (flags.strictEnc = true → isStandard key = true) := by
  rw [check]
  cases flags.strictEnc <;> cases isStandard key <;> simp

theorem KeyEncoding.check_error {flags : Flags} {key : Bytes} {error : ScriptError}
    (h : check flags key = .error error) : error = .pubkeyType := by
  rw [check] at h
  split at h
  · cases h
    rfl
  · cases h

theorem checkEncodings_eq_ok_iff {flags : Flags} {signature key : Bytes} {u : Unit} :
    flags.checkEncodings signature key = .ok u ↔
      SignatureEncoding.check flags signature = .ok () ∧ KeyEncoding.check flags key = .ok () := by
  rw [Flags.checkEncodings]
  cases SignatureEncoding.check flags signature <;> simp

theorem checkEncodings_error {flags : Flags} {signature key : Bytes} {error : ScriptError}
    (h : flags.checkEncodings signature key = .error error) :
    error = .sigDer ∨ error = .sigHighS ∨ error = .sigHashType ∨ error = .pubkeyType := by
  rw [Flags.checkEncodings] at h
  split at h
  · exact Or.inr (Or.inr (Or.inr (KeyEncoding.check_error h)))
  · next first =>
    cases h
    rcases SignatureEncoding.check_error first with rfl | rfl | rfl
    · exact Or.inl rfl
    · exact Or.inr (Or.inl rfl)
    · exact Or.inr (Or.inr (Or.inl rfl))

end SpendScript
