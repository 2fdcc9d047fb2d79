import SpendScript.Proofs.ByteOrder
import SpendScript.Proofs.EncodingRules
import SpendScript.Proofs.StrictSignatures

/-!
# What is demanded of a signature

The rules that flags ask for are about numbers: there have to be two of them and a hash type in
strict DER, the second has to lie in the lower half of the group order, and the hash type has to be
a known one. They are decided at single bytes, one rule after the other. The bytes of the second
number are cut out where the length bytes say, which is safe because the rule before has settled
the lengths, and comparing them by length and then from the front compares the numbers.
-/
set_option autoImplicit false

namespace SpendScript

theorem Bytes.slice?_middle (front middle back : Bytes) :
    slice? (front ++ (middle ++ back)) front.length (front.length + middle.length) =
      some middle := by
  have inside : front.length + middle.length ≤ (front ++ (middle ++ back)).length := by
    rw [List.length_append, List.length_append]
    omega
  rw [slice?, if_pos ⟨Nat.le_add_right _ _, inside⟩, List.drop_left, Nat.add_sub_cancel_left,
    List.take_left]

namespace SignatureEncoding

open Secp256k1 (groupOrder halfOrder)
open StrictDer (Fields Spells)

variable {flags : Flags} {sig : Bytes}

theorem toNatBE_halfOrderBytes : Bytes.toNatBE halfOrderBytes = halfOrder := by decide

/-- Bytes without a digit other than zero stand for no positive number. -/
theorem isEmpty_dropZeros (bs : Bytes) :
    (!(Bytes.dropZeros bs).isEmpty) = decide (0 < Bytes.toNatBE bs) := by
  rw [← Bytes.toNatBE_dropZeros bs]
  cases digits : Bytes.dropZeros bs with
  | nil => rfl
  | cons first rest =>
    have positive : 0 < Bytes.toNatBE (first :: rest) :=
      Bytes.toNatBE_pos List.mem_cons_self (Bytes.dropZeros_eq_cons digits)
    exact (decide_eq_true positive).symm

/-- In a signature that is not too long the bytes of `s` lie where they are looked for. -/
theorem hasLowSAt?_encode {f : Fields} (short : f.encode.length ≤ StrictDer.maxLength) :
    hasLowSAt? f.encode =
      some (decide (0 < Bytes.toNatBE f.s) && decide (Bytes.toNatBE f.s ≤ halfOrder)) := by
  have limit : StrictDer.maxLength = 73 := rfl
  have total := f.length_encode
  have fitsR : (UInt8.ofNat f.r.length).toNat = f.r.length :=
    UInt8.toNat_ofNat_of_lt' (show f.r.length < 256 by omega)
  have fitsS : (UInt8.ofNat f.s.length).toNat = f.s.length :=
    UInt8.toNat_ofNat_of_lt' (show f.s.length < 256 by omega)
  have atR : f.encode[3]? = some (UInt8.ofNat f.r.length) := by
    rw [← StrictDer.framed_integers, StrictDer.framed_rLength]
  have atS : f.encode[5 + f.r.length]? = some (UInt8.ofNat f.s.length) := by
    rw [← StrictDer.framed_integers, StrictDer.framed_sLength]
  have cut : f.encode.slice? (6 + f.r.length) (6 + f.r.length + f.s.length) = some f.s := by
    let front : Bytes := [0x30, UInt8.ofNat (f.r.length + f.s.length + 4), 0x02,
      UInt8.ofNat f.r.length] ++ f.r ++ [0x02, UInt8.ofNat f.s.length]
    have parts : f.encode = front ++ (f.s ++ [f.hashType]) := by
      rw [← StrictDer.framed_integers]
      simp [StrictDer.framed, front]
    have place : front.length = 6 + f.r.length := by
      simp [front]
      omega
    rw [parts, ← place, Bytes.slice?_middle]
  have order : (compare (Bytes.toNatBE f.s) halfOrder).isLE =
      decide (Bytes.toNatBE f.s ≤ halfOrder) := by
    rw [Bool.eq_iff_iff, Nat.isLE_compare, decide_eq_true_iff]
  unfold hasLowSAt?
  simp only [atR, atS, cut, Option.bind_eq_bind, Option.bind_some, Option.pure_def,
    fitsR, fitsS, isEmpty_dropZeros, Bytes.compareByLength_dropZeros, toNatBE_halfOrderBytes, order]

theorem hasLowSAt?_of_isValid (valid : StrictDer.isValid sig = true) :
    hasLowSAt? sig = some (hasLowS sig) := by
  obtain ⟨r, s, hashType, rfl, short⟩ := StrictDer.isValid_iff.1 valid
  rw [hasLowS_encode short]
  rw [StrictDer.encode_eq] at short ⊢
  rw [hasLowSAt?_encode short, StrictDer.toNatBE_natural]

/-- No look at a byte misses, and the rules are judged as by reading the whole. -/
theorem checkAt?_eq (flags : Flags) (sig : Bytes) : checkAt? flags sig = some (check flags sig) := by
  unfold checkAt? check
  rw [StrictDer.isValidAt?_eq]
  cases sig.isEmpty with
  | true => rfl
  | false =>
    cases valid : StrictDer.isValid sig with
    | true =>
      rw [hasLowSAt?_of_isValid valid]
      cases wantsStrictDer flags <;> cases flags.lowS <;> cases hasLowS sig <;>
        cases flags.strictEnc && !hasKnownHashType sig <;> rfl
    | false =>
      cases wants : wantsStrictDer flags with
      | true => rfl
      | false =>
        -- nobody has asked for strict DER, so the rules that depend on it are not looked at
        simp only [wantsStrictDer, Bool.or_eq_false_iff] at wants
        rw [wants.1.2, wants.2]
        rfl

/-- Strict DER, if any of three flags asks for it. -/
def KeepsStrictDer (flags : Flags) (sig : Bytes) : Prop :=
  flags.derSig = true ∨ flags.lowS = true ∨ flags.strictEnc = true →
    ∃ r s hashType, Spells sig r s hashType

/-- An `s` that is positive and in the lower half of the group order, if a flag asks for it. -/
def KeepsLowS (flags : Flags) (sig : Bytes) : Prop :=
  flags.lowS = true →
    ∃ r s hashType, Spells sig r s hashType ∧ 0 < s ∧ s ≤ (groupOrder - 1) / 2

/-- A last byte that is one, two or three without its highest bit, if a flag asks for it. -/
def KeepsHashType (flags : Flags) (sig : Bytes) : Prop :=
  flags.strictEnc = true → ∃ front hashType, sig = front ++ [hashType] ∧
    (hashType &&& 0x7f = 1 ∨ hashType &&& 0x7f = 2 ∨ hashType &&& 0x7f = 3)

theorem demanded_iff {flag answer : Bool} :
    (flag = true → answer = true) ↔ (flag && !answer) = false := by
  cases flag <;> cases answer <;> simp

theorem isValid_iff_spells : StrictDer.isValid sig = true ↔ ∃ r s hashType, Spells sig r s hashType := by
  rw [StrictDer.isValid_iff]
  simp only [StrictDer.spells_iff]

theorem keepsStrictDer_iff :
    KeepsStrictDer flags sig ↔ (wantsStrictDer flags && !StrictDer.isValid sig) = false := by
  rw [← demanded_iff, KeepsStrictDer, isValid_iff_spells]
  simp [wantsStrictDer, or_assoc]

theorem hasLowS_iff : hasLowS sig = true ↔
    ∃ r s hashType, Spells sig r s hashType ∧ 0 < s ∧ s ≤ (groupOrder - 1) / 2 := by
  constructor
  · intro low
    have valid : StrictDer.isValid sig = true := by
      unfold hasLowS at low
      unfold StrictDer.isValid
      cases parsed : StrictDer.parse? sig with
      | none =>
        rw [parsed] at low
        cases low
      | some f => rfl
    obtain ⟨r, s, hashType, rfl, short⟩ := StrictDer.isValid_iff.1 valid
    rw [hasLowS_encode short, Bool.and_eq_true, decide_eq_true_iff, decide_eq_true_iff] at low
    exact ⟨r, s, hashType, StrictDer.spells_iff.2 ⟨rfl, short⟩, low⟩
  · rintro ⟨r, s, hashType, spells, low⟩
    obtain ⟨rfl, short⟩ := StrictDer.spells_iff.1 spells
    rw [hasLowS_encode short, Bool.and_eq_true, decide_eq_true_iff, decide_eq_true_iff]
    exact low

theorem keepsLowS_iff : KeepsLowS flags sig ↔ (flags.lowS && !hasLowS sig) = false := by
  rw [← demanded_iff, KeepsLowS, hasLowS_iff]

theorem hasKnownHashType_iff : hasKnownHashType sig = true ↔ ∃ front hashType,
    sig = front ++ [hashType] ∧
      (hashType &&& 0x7f = 1 ∨ hashType &&& 0x7f = 2 ∨ hashType &&& 0x7f = 3) := by
  have three (base : UInt8) : (decide (1 ≤ base) && decide (base ≤ 3)) = true ↔
      base = 1 ∨ base = 2 ∨ base = 3 := by
    simp only [Bool.and_eq_true, decide_eq_true_eq, UInt8.le_iff_toNat_le, ← UInt8.toNat_inj,
      UInt8.reduceToNat]
    omega
  unfold hasKnownHashType
  rcases List.eq_nil_or_concat sig with rfl | ⟨front, last, rfl⟩
  · simp
  · rw [List.concat_eq_append, List.getLast?_concat]
    dsimp only
    rw [three]
    constructor
    · intro known
      exact ⟨front, last, rfl, known⟩
    · rintro ⟨front', last', same, known⟩
      obtain ⟨_, lasts⟩ := List.append_inj' same rfl
      cases lasts
      exact known

theorem keepsHashType_iff :
    KeepsHashType flags sig ↔ (flags.strictEnc && !hasKnownHashType sig) = false := by
  rw [← demanded_iff, KeepsHashType, hasKnownHashType_iff]

/-- A signature is let through exactly if it is empty or keeps every rule that a flag asks for, and
what is reported is the first rule that it breaks, in the order strict DER, height of `s`, hash
type. Deciding this byte by byte never looks outside the signature. -/
theorem check_reports_first_violation (flags : Flags) (sig : Bytes) :
    (check flags sig = .ok () ↔ sig = [] ∨
      KeepsStrictDer flags sig ∧ KeepsLowS flags sig ∧ KeepsHashType flags sig) ∧
    (check flags sig = .error .sigDer ↔ sig ≠ [] ∧ ¬KeepsStrictDer flags sig) ∧
    (check flags sig = .error .sigHighS ↔
      sig ≠ [] ∧ KeepsStrictDer flags sig ∧ ¬KeepsLowS flags sig) ∧
    (check flags sig = .error .sigHashType ↔
      sig ≠ [] ∧ KeepsStrictDer flags sig ∧ KeepsLowS flags sig ∧ ¬KeepsHashType flags sig) ∧
    checkAt? flags sig = some (check flags sig) := by
  have empty : sig = [] ↔ sig.isEmpty = true := List.isEmpty_iff.symm
  simp only [empty, ne_eq, keepsStrictDer_iff, keepsLowS_iff, keepsHashType_iff, checkAt?_eq,
    and_true]
  unfold check
  -- which rule is the first to be broken depends on four answers alone
  cases sig.isEmpty <;> cases wantsStrictDer flags && !StrictDer.isValid sig <;>
    cases flags.lowS && !hasLowS sig <;> cases flags.strictEnc && !hasKnownHashType sig <;> simp

/-- Half the group order is low, the number after it is high. -/
example :
    let sig (last : UInt8) : Bytes :=
      [0x30, 0x25, 0x02, 0x01, 0x01, 0x02, 0x20] ++ halfOrderBytes.dropLast ++ [last, 0x01]
    checkAt? { lowS := true } (sig 0xa0) = some (.ok ()) ∧
      checkAt? { lowS := true } (sig 0xa1) = some (.error .sigHighS) := by
  decide +kernel

end SignatureEncoding
end SpendScript
