import Mathlib.Algebra.Group.Nat.Defs
import SpendScript.Proofs.LaxReadings

/-!
# Mirrored signatures

The mirror of an `s` between zero and the group order is the order less `s`. The order is odd, so of
an `s` and its mirror one lies in the lower half and the other in the upper one. A checker turns
both into the lower one before it looks at them, so it cannot tell them apart; the rule for a low
`s` is there to do just that, and it allows one of the two.
-/
set_option autoImplicit false

namespace SpendScript

open Secp256k1 (Signature groupOrder halfOrder)

theorem Secp256k1.groupOrder_eq : groupOrder = 2 * halfOrder + 1 := by decide

namespace StrictDer

/-- A number of 256 bits takes at most 33 bytes, where one is for the sign. -/
theorem natural_length_le_of_lt {n : Nat} (h : n < 2 ^ 256) : (natural n).length ≤ 33 := by
  have wide : 2 ^ 256 ≤ 128 * Bytes.capacity 32 := by decide
  exact natural_length_le_iff.2 (Nat.lt_of_lt_of_le h wide)

/-- The longest signature of two numbers of 256 bits has just the greatest length that is read. -/
theorem length_encode_le {r s : Nat} {hashType : UInt8} (hr : r < 2 ^ 256) (hs : s < 2 ^ 256) :
    (encode r s hashType).length ≤ maxLength := by
  have limit : maxLength = 73 := rfl
  have first := natural_length_le_of_lt hr
  have second := natural_length_le_of_lt hs
  rw [length_encode]
  omega

end StrictDer

namespace LaxDer

/-- Both of two mirrored signatures have one normal form. -/
theorem normalize_ofNumbers_mirror (r : Nat) {s : Nat} (positive : 0 < s) (below : s < groupOrder) :
    (ofNumbers r (groupOrder - s)).normalize = (ofNumbers r s).normalize := by
  have odd := Secp256k1.groupOrder_eq
  have mirrored : groupOrder - s < groupOrder := by omega
  by_cases inRange : r < groupOrder
  · rw [ofNumbers, ofNumbers, if_pos ⟨inRange, mirrored⟩, if_pos ⟨inRange, below⟩]
    rcases Nat.lt_or_ge halfOrder s with high | low
    · have mirrorLow : ¬halfOrder < groupOrder - s := by omega
      simp only [Signature.normalize, if_pos high, if_neg mirrorLow]
    · have mirrorHigh : halfOrder < groupOrder - s := by omega
      have back : groupOrder - (groupOrder - s) = s := by omega
      simp only [Signature.normalize, if_neg (Nat.not_lt.2 low), if_pos mirrorHigh, back]
  · have out : ∀ s, ofNumbers r s = ⟨0, 0⟩ := fun s => if_neg fun both => inRange both.1
    rw [out, out]

end LaxDer

theorem Transaction.checkNumbers?_congr (tx : Transaction) (index : Nat)
    {numbers numbers' : Signature} (same : numbers.normalize = numbers'.normalize)
    (hashType : UInt8) (key code : Bytes) :
    tx.checkNumbers? index numbers hashType key code =
      tx.checkNumbers? index numbers' hashType key code := by
  rw [checkNumbers?, checkNumbers?, same]

namespace SignatureEncoding

variable {r s : Nat} {hashType : UInt8}

/-- Where a low `s` is demanded and no hash type, the height of `s` decides on a signature. -/
theorem check_encode {flags : Flags} (demanded : flags.lowS = true)
    (anyHashType : flags.strictEnc = false)
    (short : (StrictDer.encode r s hashType).length ≤ StrictDer.maxLength) :
    check flags (StrictDer.encode r s hashType) =
      if 0 < s ∧ s ≤ halfOrder then .ok () else .error .sigHighS := by
  have nonempty : (StrictDer.encode r s hashType).isEmpty = false :=
    List.isEmpty_eq_false_iff.2 (StrictDer.encode_ne_nil r s hashType)
  rw [check, nonempty, StrictDer.isValid_encode short, hasLowS_encode short, demanded, anyHashType]
  by_cases low : 0 < s ∧ s ≤ halfOrder
  · simp [low]
  · have high : (decide (0 < s) && decide (s ≤ halfOrder)) = false := by
      rw [← Bool.decide_and]
      exact decide_eq_false low
    simp [high, low]

end SignatureEncoding

namespace Transaction

/-- The checker for an input cannot tell mirrored signatures apart, both are in strict form, and the
rule for a low `s` allows just the one whose `s` lies in the lower half. -/
theorem mirrored_signatures_are_judged_alike (tx : Transaction) (index : Nat) {r s : Nat}
    (hashType : UInt8) (hr : r < 2 ^ 256) (positive : 0 < s) (below : s < groupOrder) :
    (∀ check, tx.checker index = .ok check → ∀ key code,
      check (StrictDer.encode r (groupOrder - s) hashType) key code =
        check (StrictDer.encode r s hashType) key code) ∧
    StrictDer.isValid (StrictDer.encode r s hashType) = true ∧
    StrictDer.isValid (StrictDer.encode r (groupOrder - s) hashType) = true ∧
    ∀ flags : Flags, flags.lowS = true → flags.strictEnc = false →
      SignatureEncoding.check flags (StrictDer.encode r s hashType) =
        (if s ≤ halfOrder then .ok () else .error .sigHighS) ∧
      SignatureEncoding.check flags (StrictDer.encode r (groupOrder - s) hashType) =
        (if s ≤ halfOrder then .error .sigHighS else .ok ()) := by
  have odd := Secp256k1.groupOrder_eq
  have order : groupOrder < 2 ^ 256 := by decide
  have short : (StrictDer.encode r s hashType).length ≤ StrictDer.maxLength :=
    StrictDer.length_encode_le hr (by omega)
  have mirrorShort : (StrictDer.encode r (groupOrder - s) hashType).length ≤ StrictDer.maxLength :=
    StrictDer.length_encode_le hr (by omega)
  refine ⟨fun check found key code => ?_, StrictDer.isValid_encode short,
    StrictDer.isValid_encode mirrorShort, fun flags demanded anyHashType => ?_⟩
  · have same := LaxDer.normalize_ofNumbers_mirror r positive below
    rw [checker_apply found, checker_apply found, tx.checkSignature?_encode index key code short,
      tx.checkSignature?_encode index key code mirrorShort,
      tx.checkNumbers?_congr index same hashType key code]
  · rw [SignatureEncoding.check_encode demanded anyHashType short,
      SignatureEncoding.check_encode demanded anyHashType mirrorShort]
    rcases Nat.lt_or_ge halfOrder s with high | low
    · have mirrorLow : 0 < groupOrder - s ∧ groupOrder - s ≤ halfOrder := by omega
      have notLow : ¬s ≤ halfOrder := Nat.not_le.2 high
      rw [if_neg (fun both => notLow both.2), if_neg notLow, if_pos mirrorLow, if_neg notLow]
      exact ⟨rfl, rfl⟩
    · have mirrorHigh : ¬(0 < groupOrder - s ∧ groupOrder - s ≤ halfOrder) := by omega
      rw [if_pos ⟨positive, low⟩, if_pos low, if_neg mirrorHigh, if_pos low]
      exact ⟨rfl, rfl⟩

/-- The longest signature there is, and its mirror, whose `s` is one. -/
theorem mirrored_signatures_are_judged_alike_longest :
    let input : TxInput := { outPoint := ⟨List.replicate 32 0, 0⟩, script := [], sequence := 0 }
    let tx : Transaction := { version := 1, inputs := [input], outputs := [], lockTime := 0 }
    let check : SignatureChecker := fun signature key code =>
      (tx.checkSignature? 0 signature key code).getD false
    let flags : Flags := { lowS := true }
    let high := StrictDer.encode (2 ^ 255) (groupOrder - 1) 1
    let low := StrictDer.encode (2 ^ 255) (groupOrder - (groupOrder - 1)) 1
    2 ^ 255 < 2 ^ 256 ∧ 0 < groupOrder - 1 ∧ groupOrder - 1 < groupOrder ∧
      high.length = StrictDer.maxLength ∧ tx.checker 0 = .ok check ∧
      (∀ key code, check low key code = check high key code) ∧
      SignatureEncoding.check flags high = .error .sigHighS ∧
      SignatureEncoding.check flags low = .ok () := by
  intro input tx check flags high low
  have positive : 0 < groupOrder - 1 := by decide
  have below : groupOrder - 1 < groupOrder := by decide
  have longR : ¬(StrictDer.natural (2 ^ 255)).length ≤ 32 := by
    rw [StrictDer.natural_length_le_iff]
    decide
  have longS : ¬(StrictDer.natural (groupOrder - 1)).length ≤ 32 := by
    rw [StrictDer.natural_length_le_iff]
    decide
  have length : high.length = StrictDer.maxLength := by
    have short : high.length ≤ StrictDer.maxLength :=
      StrictDer.length_encode_le (by decide) (by decide)
    have parts : high.length = (StrictDer.natural (2 ^ 255)).length +
        (StrictDer.natural (groupOrder - 1)).length + 7 := StrictDer.length_encode _ _ 1
    have limit : StrictDer.maxLength = 73 := rfl
    omega
  have wide : (2 : Nat) ^ 255 < 2 ^ 256 := by decide
  obtain ⟨alike, _, _, rule⟩ := tx.mirrored_signatures_are_judged_alike 0 1 wide positive below
  have refused := rule flags rfl rfl
  have upper : ¬groupOrder - 1 ≤ halfOrder := by decide
  rw [if_neg upper, if_neg upper] at refused
  exact ⟨wide, positive, below, length, rfl, alike check rfl, refused⟩

end Transaction
end SpendScript
