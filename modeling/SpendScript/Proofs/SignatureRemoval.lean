import SpendScript.Proofs.MinimalPushes
import SpendScript.Proofs.Serialization
import SpendScript.Script.Removal

/-!
# Removal from the bytes and from the operations

What signatures commit to is a selection of operations, made for all signatures at once. Removing
their pushes from the bytes, one signature after the other, comes to the same. Where an operation
begins, the bytes are read in one way only, so the pattern stands there exactly if the operation is
the push that the pattern writes; and since what is left is again the bytes of operations, nothing
new can appear at the seams.
-/
set_option autoImplicit false

namespace SpendScript.Script

variable {data : Bytes} {op : Operation} {script : Script}

section Pattern

variable {pattern bs rest : Bytes}

theorem removePattern_nil (nonempty : pattern ≠ []) : removePattern pattern [] = [] := by
  have nowhere : ¬(pattern ≠ [] ∧ pattern <+: []) :=
    fun found => nonempty (List.prefix_nil.1 found.2)
  rw [removePattern, dif_neg nowhere]
  rfl

theorem removePattern_append (nonempty : pattern ≠ []) :
    removePattern pattern (pattern ++ rest) = removePattern pattern rest := by
  rw [removePattern, dif_pos ⟨nonempty, List.prefix_append pattern rest⟩, List.drop_left]

theorem removePattern_of_read (elsewhere : ¬pattern <+: bs)
    (read : Operation.read? bs = some (op, rest)) :
    removePattern pattern bs = op.encode ++ removePattern pattern rest := by
  rw [removePattern, dif_neg fun found => elsewhere found.2]
  split
  · next unread =>
    rw [read] at unread
    cases unread
  · next op' rest' read' =>
    rw [read] at read'
    cases read'
    rfl

end Pattern

theorem length_le_pushEncoding : data.length ≤ (pushEncoding data).length := by
  simp only [pushEncoding, Operation.canonicalPush, Operation.encode, List.length_cons,
    List.length_append]
  omega

/-- Where an operation begins, the canonical push of the data stands only as that operation. -/
theorem pushEncoding_prefix_iff {rest : Bytes} (wellFormed : op.WellFormed)
    (short : (op.encode ++ rest).length ≤ Limits.scriptSize) :
    pushEncoding data <+: op.encode ++ rest ↔ op = Operation.canonicalPush data := by
  constructor
  · rintro ⟨tail, same⟩
    -- data that is too long to have a length field does not fit into the script
    have fits : data.length < 0x100000000 := by
      have whole := congrArg List.length same
      rw [List.length_append] at whole
      have inside := @length_le_pushEncoding data
      have bound : Limits.scriptSize < 0x100000000 := by decide
      omega
    have pushFits : (Operation.canonicalPush data).WellFormed := PushForm.lt_capacity_shortest fits
    have asPush : Operation.read? (pushEncoding data ++ tail) = some (.canonicalPush data, tail) :=
      Operation.read?_encode_append tail pushFits
    rw [same, Operation.read?_encode_append rest wellFormed] at asPush
    exact congrArg Prod.fst (Option.some.inj asPush)
  · rintro rfl
    exact List.prefix_append _ _

/-- Removing the canonical push of the data from the bytes of a script leaves the bytes of its other
operations. -/
theorem removePattern_encode (wellFormed : ∀ op ∈ script, op.WellFormed)
    (short : script.encode.length ≤ Limits.scriptSize) :
    removePattern (pushEncoding data) script.encode =
      script.encodeFiltered fun op => !op.isCanonicalPushOf data := by
  have nonempty : pushEncoding data ≠ [] := Operation.encode_ne_nil _
  induction script with
  | nil => exact removePattern_nil nonempty
  | cons op ops ih =>
    obtain ⟨opFits, opsFit⟩ := List.forall_mem_cons.1 wellFormed
    rw [encode_cons] at short ⊢
    have rest : removePattern (pushEncoding data) (encode ops) =
        encodeFiltered ops fun op => !op.isCanonicalPushOf data :=
      ih opsFit (by rw [List.length_append] at short; omega)
    unfold encodeFiltered at rest ⊢
    by_cases isPush : op = Operation.canonicalPush data
    · have leftOut : (!op.isCanonicalPushOf data) = false := by
        rw [isPush, Operation.isCanonicalPushOf, beq_self_eq_true, Bool.not_true]
      rw [List.filter_cons, if_neg (by rw [leftOut]; nofun), ← rest, isPush]
      exact removePattern_append nonempty
    · have kept : (!op.isCanonicalPushOf data) = true := by
        rw [Operation.isCanonicalPushOf, Bool.not_eq_true', beq_eq_false_iff_ne]
        exact isPush
      have elsewhere : ¬pushEncoding data <+: op.encode ++ encode ops :=
        fun here => isPush ((pushEncoding_prefix_iff opFits short).1 here)
      rw [List.filter_cons, if_pos kept, encode_cons, ← rest]
      exact removePattern_of_read elsewhere (Operation.read?_encode_append _ opFits)

/-- Removing the signatures one after the other selects the operations that are none of their
pushes. -/
theorem removeSignatures_encode {signatures : List Bytes}
    (wellFormed : ∀ op ∈ script, op.WellFormed)
    (short : script.encode.length ≤ Limits.scriptSize) :
    removeSignatures signatures script.encode =
      script.encodeFiltered fun op => !signatures.any op.isCanonicalPushOf := by
  induction signatures generalizing script with
  | nil =>
    have everything : script.filter (fun _ => true) = script :=
      List.filter_eq_self.2 fun _ _ => rfl
    exact congrArg encode everything.symm
  | cons signature signatures ih =>
    let others : Script := script.filter fun op => !op.isCanonicalPushOf signature
    have selected : others.Sublist script := List.filter_sublist
    calc removeSignatures (signature :: signatures) script.encode
      _ = removeSignatures signatures (removePattern (pushEncoding signature) script.encode) := rfl
      _ = removeSignatures signatures others.encode := by
        rw [removePattern_encode wellFormed short]
        rfl
      _ = others.encodeFiltered fun op => !signatures.any op.isCanonicalPushOf :=
        ih (fun op hop => wellFormed op (selected.subset hop))
          (Nat.le_trans (encode_length_le selected) short)
      _ = script.encodeFiltered fun op => !(signature :: signatures).any op.isCanonicalPushOf := by
        unfold encodeFiltered
        rw [List.filter_filter]
        refine congrArg encode (List.filter_congr fun op _ => ?_)
        rw [List.any_cons, Bool.not_or, Bool.and_comm]

/-- What signatures commit to is what is left of the bytes from the start on after the canonical
pushes of the signatures have been removed one signature after the other. Only which signatures
there are matters, neither their order nor how often each is listed. -/
theorem codeFrom_eq_removeSignatures {bs : Bytes} (decoded : decode bs = .ok script) (start : Nat)
    (signatures : List Bytes) :
    script.codeFrom start signatures = removeSignatures signatures (encode (script.drop start)) ∧
    ∀ listed : List Bytes, (∀ signature, signature ∈ listed ↔ signature ∈ signatures) →
      removeSignatures listed (encode (script.drop start)) =
        removeSignatures signatures (encode (script.drop start)) := by
  obtain ⟨short, bytes, wellFormed⟩ := decode_eq_ok_iff.1 decoded
  have selected : (script.drop start).Sublist script := List.drop_sublist start script
  have restFits : (encode (script.drop start)).length ≤ Limits.scriptSize :=
    Nat.le_trans (encode_length_le selected) (bytes ▸ short)
  have removed (signatures : List Bytes) :
      removeSignatures signatures (encode (script.drop start)) =
        script.codeFrom start signatures :=
    removeSignatures_encode (fun op hop => wellFormed op (selected.subset hop)) restFits
  refine ⟨(removed signatures).symm, fun listed same => ?_⟩
  rw [removed, removed]
  unfold codeFrom encodeFiltered
  refine congrArg encode (List.filter_congr fun op _ => congrArg not ?_)
  rw [Bool.eq_iff_iff, List.any_eq_true, List.any_eq_true]
  exact exists_congr fun signature => and_congr_left fun _ => same signature

/-- Of three places where the bytes of a signature's push stand, one is an operation of its own, one
lies across two operations and one in a push of a longer form. -/
theorem codeFrom_eq_removeSignatures_own_push :
    removeSignatures [[0x51], [0x52, 0x52], [0x51]]
        [0x52, 0x01, 0x51, 0x01, 0x01, 0x51, 0x4c, 0x01, 0x51, 0x02, 0x52, 0x52] =
      [0x52, 0x01, 0x01, 0x51, 0x4c, 0x01, 0x51] := by
  let bs : Bytes := [0xac, 0x52, 0x01, 0x51, 0x01, 0x01, 0x51, 0x4c, 0x01, 0x51, 0x02, 0x52, 0x52]
  let script : Script :=
    [.code 0xac, .code 0x52, .push .direct [0x51], .push .direct [0x01], .code 0x51,
      .push .length1 [0x51], .push .direct [0x52, 0x52]]
  have decoded : decode bs = .ok script := decode_eq_ok_iff.2 ⟨by decide, rfl, by decide⟩
  have removed := (codeFrom_eq_removeSignatures decoded 1 [[0x51], [0x52, 0x52], [0x51]]).1
  exact removed.symm.trans (by decide)

end SpendScript.Script
