import SpendScript.Proofs.Serialization
import SpendScript.Transaction.Checker

/-!
# Filtered scripts

Whatever operations of a script are left out, those that stay are read back from their own bytes:
no boundary between them moves. What is signed of a script code is such a selection, of all
operations but the separators. So separators are the only thing in which two script codes may
differ without a checker noticing, and the data of a push is never taken for one.
-/
set_option autoImplicit false

namespace SpendScript

namespace Script

variable {bs code : Bytes} {script : Script}

theorem decode_encodeFiltered (decoded : decode bs = .ok script) (keep : Operation → Bool) :
    decode (script.encodeFiltered keep) = .ok (script.filter keep) :=
  decode_of_sublist decoded List.filter_sublist

/-- An operation is written as a whole or not at all. -/
theorem encodeFiltered_cons (keep : Operation → Bool) (op : Operation) (ops : Script) :
    encodeFiltered (op :: ops) keep =
      (if keep op then op.encode else []) ++ encodeFiltered ops keep := by
  by_cases kept : keep op
  · rw [encodeFiltered, List.filter_cons_of_pos kept, if_pos kept]
    rfl
  · rw [encodeFiltered, List.filter_cons_of_neg kept, if_neg kept]
    rfl

theorem encodeFiltered_eq_flatMap (keep : Operation → Bool) (script : Script) :
    script.encodeFiltered keep = script.flatMap fun op => if keep op then op.encode else [] := by
  induction script with
  | nil => rfl
  | cons op ops ih => rw [encodeFiltered_cons, ih, List.flatMap_cons]

/-- Nothing but the bytes of the separators is missing. -/
theorem count_encode_eq (script : Script) (b : UInt8) :
    script.encode.count b = (script.encodeFiltered (· != .code 0xab)).count b +
      if b = 0xab then script.count (.code 0xab) else 0 := by
  induction script with
  | nil => simp [encode, encodeFiltered]
  | cons op ops ih =>
    by_cases separator : op = .code 0xab
    · subst separator
      have written : encode (.code 0xab :: ops) = 0xab :: encode ops := rfl
      have dropped : encodeFiltered (.code 0xab :: ops) (· != .code 0xab) =
          encodeFiltered ops (· != .code 0xab) := rfl
      rw [written, dropped, List.count_cons, ih, List.count_cons_self]
      by_cases same : b = 0xab
      · rw [if_pos same, if_pos same, same, beq_self_eq_true, if_pos rfl, Nat.add_assoc]
      · rw [if_neg same, if_neg same, if_neg (by simpa using Ne.symm same)]
    · have kept : (op != .code 0xab) = true := by simpa using separator
      rw [encode_cons, encodeFiltered_cons, if_pos kept, List.count_append, List.count_append, ih,
        List.count_cons_of_ne separator, Nat.add_assoc]

theorem stripSeparators?_of_decode (decoded : decode code = .ok script) :
    stripSeparators? code = some (script.encodeFiltered (· != .code 0xab)) := by
  rw [stripSeparators?, decoded]

theorem stripSeparators?_of_error {error : ScriptError} (refused : decode code = .error error) :
    stripSeparators? code = none := by
  rw [stripSeparators?, refused]

end Script

/-- A code that is not decoded leaves the question open. -/
theorem Transaction.checkSignature?_of_error {code : Bytes} {error : ScriptError}
    (refused : Script.decode code = .error error) (tx : Transaction) (index : Nat)
    (signature key : Bytes) : tx.checkSignature? index signature key code = none := by
  rw [checkSignature?, Script.stripSeparators?_of_error refused]
  cases signature.getLast? with
  | none => rfl
  | some hashType =>
    cases Secp256k1.PublicKey.parse? key with
    | none => rfl
    | some point => cases LaxDer.parse? signature.dropLast <;> rfl

namespace Script

/-- Leaving out operations commutes with decoding. What is signed is a script code without its
separators, where every other operation, with the data it pushes, is there byte for byte; so a
checker cannot tell apart two codes that differ in separators only, and refuses what is no code. -/
theorem filtering_commutes_with_decoding (code : Bytes) :
    (∀ script, decode code = .ok script →
      (∀ keep, decode (script.encodeFiltered keep) = .ok (script.filter keep)) ∧
      ∃ stripped, stripSeparators? code = some stripped ∧
        stripped = (script.flatMap fun op => if op != .code 0xab then op.encode else []) ∧
        ∀ b, code.count b = stripped.count b +
          if b = 0xab then script.count (.code 0xab) else 0) ∧
    ∀ (tx : Transaction) (index : Nat) (check : SignatureChecker), tx.checker index = .ok check →
      ∀ signature key,
        (∀ code' script script', decode code = .ok script → decode code' = .ok script' →
          script.filter (· != .code 0xab) = script'.filter (· != .code 0xab) →
            check signature key code = check signature key code') ∧
        (∀ error, decode code = .error error → check signature key code = false) := by
  refine ⟨fun script decoded => ⟨decode_encodeFiltered decoded, _,
    stripSeparators?_of_decode decoded, encodeFiltered_eq_flatMap _ _, ?_⟩, ?_⟩
  · intro b
    rw [← (decode_eq_ok_iff.1 decoded).2.1]
    exact count_encode_eq script b
  · intro tx index check found signature key
    constructor
    · intro code' script script' decoded decoded' same
      have stripped : stripSeparators? code = stripSeparators? code' := by
        rw [stripSeparators?_of_decode decoded, stripSeparators?_of_decode decoded',
          encodeFiltered, encodeFiltered, same]
      rw [Transaction.checker_apply found, Transaction.checker_apply found,
        Transaction.checkSignature?, Transaction.checkSignature?, stripped]
    · intro error refused
      rw [Transaction.checker_apply found, Transaction.checkSignature?_of_error refused]
      rfl

/-- Bytes that look like separators stay in a push, and a push that runs past the end is no code. -/
theorem filtering_commutes_with_decoding_pushed_separators :
    let code : Bytes := [0xab, 0x02, 0xab, 0xab, 0xab, 0x51]
    let code' : Bytes := [0x02, 0xab, 0xab, 0x51, 0xab]
    stripSeparators? code = some [0x02, 0xab, 0xab, 0x51] ∧
      ∀ (tx : Transaction) (index : Nat) (check : SignatureChecker),
        tx.checker index = .ok check → ∀ signature key,
          check signature key code = check signature key code' ∧
            check signature key [0x02, 0xab] = false := by
  intro code code'
  have decoded : decode code =
      .ok [.code 0xab, .push .direct [0xab, 0xab], .code 0xab, .code 0x51] :=
    decode_eq_ok_iff.2 ⟨by decide, rfl, by decide⟩
  have decoded' : decode code' = .ok [.push .direct [0xab, 0xab], .code 0x51, .code 0xab] :=
    decode_eq_ok_iff.2 ⟨by decide, rfl, by decide⟩
  have refused : decode [0x02, 0xab] = .error .badOpcode := by
    cbv
  obtain ⟨filtered, -⟩ := filtering_commutes_with_decoding code
  obtain ⟨-, stripped, found, bytes, -⟩ := filtered _ decoded
  refine ⟨found.trans (congrArg some bytes), fun tx index check found signature key => ?_⟩
  obtain ⟨-, checked⟩ := filtering_commutes_with_decoding code
  obtain ⟨-, checked'⟩ := filtering_commutes_with_decoding [0x02, 0xab]
  exact ⟨(checked tx index check found signature key).1 _ _ _ decoded decoded' rfl,
    (checked' tx index check found signature key).2 _ refused⟩

end Script
end SpendScript
