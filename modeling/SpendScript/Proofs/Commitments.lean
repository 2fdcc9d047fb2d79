import SpendScript.Transaction.Checker

/-!
# What a signature commits to

The answer about a signature depends on a transaction only through the digest, and the digest only
on what is hashed. What two transactions have to agree on, for a signature to be good for the one
exactly if it is good for the other, is therefore settled by the hash type alone, and the scripts
and witnesses of inputs are never part of it.
-/
set_option autoImplicit false

namespace SpendScript

open CompactSize (encodeList)

/-- Of the bits of a hash type, two fields have a meaning. -/
theorem HashType.ofByte_mode (b : UInt8) : ofByte (b &&& 0x9f) = ofByte b := by
  have scope : b &&& 0x9f &&& 0x1f = b &&& 0x1f := UInt8.and_assoc b 0x9f 0x1f
  have flag : b &&& 0x9f &&& 0x80 = b &&& 0x80 := UInt8.and_assoc b 0x9f 0x80
  simp only [ofByte, scope, flag]

namespace TxInput

/-- The input without its script and witness. -/
def bare (input : TxInput) : TxInput :=
  { input with script := [], witness := [] }

def withoutWitness (input : TxInput) : TxInput :=
  { input with witness := [] }

/-- An input as it is hashed, at its position, before the others may be dropped. -/
def prepared (index : Nat) (code : Bytes) (type : HashType) (i : Nat) (input : TxInput) : TxInput :=
  if i = index then { input with script := code }
  else
    let sequence := if type.outputs = .all then input.sequence else 0
    { input with script := [], sequence := sequence }

/-- What is committed to of an input at its position, if it is not dropped. -/
def committed (index : Nat) (type : HashType) (i : Nat) (input : TxInput) : OutPoint × UInt32 :=
  (input.outPoint, if i = index ∨ type.outputs = .all then input.sequence else 0)

theorem prepared_eq (index : Nat) (code : Bytes) (type : HashType) (i : Nat) (input : TxInput) :
    (input.prepared index code type i).withoutWitness =
      { outPoint := (input.committed index type i).1
        script := if i = index then code else []
        sequence := (input.committed index type i).2 } := by
  by_cases signed : i = index <;> simp [prepared, committed, withoutWitness, signed]

end TxInput

namespace Transaction

/-- The transaction without the scripts and witnesses of its inputs. -/
def bare (tx : Transaction) : Transaction :=
  { tx with inputs := tx.inputs.map TxInput.bare }

/-- What two transactions have in common if they agree on all that a signature of the given type
commits to at an input. -/
structure AgreeFor (type : HashType) (index : Nat) (tx other : Transaction) : Prop where
  version : tx.version = other.version
  lockTime : tx.lockTime = other.lockTime
  signed : tx.inputs[index]?.map (fun input => (input.outPoint, input.sequence)) =
    other.inputs[index]?.map fun input => (input.outPoint, input.sequence)
  outPoints : type.anyoneCanPay = false →
    tx.inputs.map TxInput.outPoint = other.inputs.map TxInput.outPoint
  sequences : type.anyoneCanPay = false → type.outputs = .all →
    tx.inputs.map TxInput.sequence = other.inputs.map TxInput.sequence
  allOutputs : type.outputs = .all → tx.outputs = other.outputs
  ownOutput : type.outputs = .single → tx.outputs[index]? = other.outputs[index]?

variable {tx other : Transaction} {type : HashType} {index : Nat}

/-- Witnesses are left out of the stripped form. -/
theorem encodeStripped_congr (version : tx.version = other.version)
    (inputs : tx.inputs.map TxInput.withoutWitness = other.inputs.map TxInput.withoutWitness)
    (outputs : tx.outputs = other.outputs) (lockTime : tx.lockTime = other.lockTime) :
    tx.encodeStripped = other.encodeStripped := by
  have stripped (inputs : List TxInput) : encodeList TxInput.encode inputs =
      encodeList TxInput.encode (inputs.map TxInput.withoutWitness) := by
    unfold encodeList
    rw [List.length_map, List.flatMap_map]
    rfl
  unfold encodeStripped
  rw [stripped tx.inputs, stripped other.inputs, version, inputs, outputs, lockTime]

theorem hashedInputs_eq (tx : Transaction) (index : Nat) (code : Bytes) (type : HashType) :
    tx.hashedInputs index code type =
      if type.anyoneCanPay then
        ((tx.inputs.mapIdx (TxInput.prepared index code type)).drop index).take 1
      else tx.inputs.mapIdx (TxInput.prepared index code type) := rfl

/-- Of the signed input the same is committed to, and of all others unless they are dropped. -/
theorem AgreeFor.committed (h : AgreeFor type index tx other) {i : Nat}
    (hashed : i = index ∨ type.anyoneCanPay = false) :
    tx.inputs[i]?.map (TxInput.committed index type i) =
      other.inputs[i]?.map (TxInput.committed index type i) := by
  by_cases signed : i = index
  · have whole : TxInput.committed index type i = fun input => (input.outPoint, input.sequence) := by
      funext input
      rw [TxInput.committed, if_pos (Or.inl signed)]
    rw [whole, signed, h.signed]
  · have kept : type.anyoneCanPay = false := hashed.resolve_left signed
    have outPoint : tx.inputs[i]?.map TxInput.outPoint = other.inputs[i]?.map TxInput.outPoint := by
      rw [← List.getElem?_map, h.outPoints kept, List.getElem?_map]
    have sequence : type.outputs = .all →
        tx.inputs[i]?.map TxInput.sequence = other.inputs[i]?.map TxInput.sequence := by
      intro all
      rw [← List.getElem?_map, h.sequences kept all, List.getElem?_map]
    cases own : tx.inputs[i]? <;> cases others : other.inputs[i]? <;>
      simp_all [TxInput.committed]

theorem AgreeFor.hashedInputs (h : AgreeFor type index tx other) (code : Bytes) :
    (tx.hashedInputs index code type).map TxInput.withoutWitness =
      (other.hashedInputs index code type).map TxInput.withoutWitness := by
  have entry {i : Nat} (hashed : i = index ∨ type.anyoneCanPay = false) :
      ((tx.inputs.mapIdx (TxInput.prepared index code type)).map TxInput.withoutWitness)[i]? =
        ((other.inputs.mapIdx (TxInput.prepared index code type)).map TxInput.withoutWitness)[i]? := by
    have read : TxInput.withoutWitness ∘ TxInput.prepared index code type i =
        (fun seen => ⟨seen.1, if i = index then code else [], seen.2, []⟩) ∘
          TxInput.committed index type i :=
      funext fun input => input.prepared_eq index code type i
    rw [List.getElem?_map, List.getElem?_map, List.getElem?_mapIdx, List.getElem?_mapIdx,
      Option.map_map, Option.map_map, read, ← Option.map_map, ← Option.map_map, h.committed hashed]
  rw [hashedInputs_eq, hashedInputs_eq]
  cases kept : type.anyoneCanPay with
  | true =>
    rw [if_pos rfl, if_pos rfl, List.map_take, List.map_take, List.map_drop, List.map_drop,
      List.take_one, List.take_one, List.head?_drop, List.head?_drop, entry (Or.inl rfl)]
  | false =>
    rw [if_neg Bool.false_ne_true, if_neg Bool.false_ne_true]
    exact List.ext_getElem? fun i => entry (Or.inr kept)

theorem AgreeFor.hashedOutputs (h : AgreeFor type index tx other) :
    tx.hashedOutputs index type = other.hashedOutputs index type := by
  unfold Transaction.hashedOutputs
  cases scope : type.outputs with
  | all => exact h.allOutputs scope
  | none => rfl
  | single =>
    dsimp only
    rw [List.take_one, List.take_one, List.head?_drop, List.head?_drop, h.ownOutput scope]

/-- Transactions that agree on what is committed to have the same digest, also where there is no
output beside the input. -/
theorem AgreeFor.signatureHash {hashType : UInt8}
    (h : AgreeFor (HashType.ofByte hashType) index tx other) (code : Bytes) :
    tx.signatureHash index code hashType = other.signatureHash index code hashType := by
  have missing : ((HashType.ofByte hashType).outputs = .single ∧ tx.outputs.length ≤ index) ↔
      ((HashType.ofByte hashType).outputs = .single ∧ other.outputs.length ≤ index) := by
    refine and_congr_right fun single => ?_
    rw [← List.getElem?_eq_none_iff, ← List.getElem?_eq_none_iff, h.ownOutput single]
  unfold Transaction.signatureHash
  dsimp only
  by_cases absent : (HashType.ofByte hashType).outputs = .single ∧ tx.outputs.length ≤ index
  · rw [if_pos absent, if_pos (missing.1 absent)]
  · rw [if_neg absent, if_neg fun there => absent (missing.2 there)]
    refine congrArg (fun written => Digest.hash256 (written ++ Bytes.ofNatLE 4 hashType.toNat)) ?_
    exact encodeStripped_congr h.version (h.hashedInputs code) h.hashedOutputs h.lockTime

theorem checkSignature?_congr {signature : Bytes}
    (agree : ∀ hashType, signature.getLast? = some hashType →
      AgreeFor (HashType.ofByte hashType) index tx other) (key code : Bytes) :
    tx.checkSignature? index signature key code = other.checkSignature? index signature key code := by
  unfold checkSignature?
  cases last : signature.getLast? with
  | none => simp only [Option.bind_eq_bind, Option.bind_none]
  | some hashType =>
    have digest (code : Bytes) :
        tx.signatureHash index code hashType = other.signatureHash index code hashType :=
      (agree hashType last).signatureHash code
    simp only [Option.bind_eq_bind, Option.bind_some, digest]

/-- Transactions that differ in scripts and witnesses of inputs agree on whatever is committed to. -/
theorem AgreeFor.of_bare (same : tx.bare = other.bare) : AgreeFor type index tx other := by
  have inputs : tx.inputs.map TxInput.bare = other.inputs.map TxInput.bare :=
    congrArg Transaction.inputs same
  have version : tx.bare.version = other.bare.version := congrArg Transaction.version same
  have lockTime : tx.bare.lockTime = other.bare.lockTime := congrArg Transaction.lockTime same
  have outputs : tx.bare.outputs = other.bare.outputs := congrArg Transaction.outputs same
  have read {α : Type} (field : TxInput → α) (kept : ∀ input, field input.bare = field input) :
      tx.inputs.map field = other.inputs.map field := by
    have through (inputs : List TxInput) :
        inputs.map field = (inputs.map TxInput.bare).map field := by
      rw [List.map_map]
      exact List.map_congr_left fun input _ => (kept input).symm
    rw [through tx.inputs, through other.inputs, inputs]
  refine ⟨version, lockTime, ?_, fun _ => ?_, fun _ _ => ?_, fun _ => outputs,
    fun _ => congrArg (·[index]?) outputs⟩
  · rw [← List.getElem?_map, ← List.getElem?_map, read _ fun _ => rfl]
  · exact read _ fun _ => rfl
  · exact read _ fun _ => rfl

/-- The checkers for an input of two transactions give the same answer about a signature if the
transactions agree on what its hash type commits to, and about all signatures if the transactions
differ in no more than the scripts and witnesses of their inputs. -/
theorem checker_depends_on_commitments (present : index < tx.inputs.length)
    (present' : index < other.inputs.length) :
    ∃ check check', tx.checker index = .ok check ∧ other.checker index = .ok check' ∧
      (∀ signature : Bytes,
        (∀ hashType, signature.getLast? = some hashType →
          AgreeFor (HashType.ofByte (hashType &&& 0x9f)) index tx other) →
        ∀ key code, check signature key code = check' signature key code) ∧
      (tx.bare = other.bare → check = check') := by
  refine ⟨_, _, if_pos present, if_pos present', ?_, ?_⟩
  · intro signature agree key code
    have committed : ∀ hashType, signature.getLast? = some hashType →
        AgreeFor (HashType.ofByte hashType) index tx other := by
      intro hashType last
      rw [← HashType.ofByte_mode]
      exact agree hashType last
    rw [checkSignature?_congr committed key code]
  · intro same
    funext signature key code
    rw [checkSignature?_congr (fun _ _ => .of_bare same) key code]

/-- A signature that commits to the signed input alone, by a hash type with a bit that means
nothing. -/
theorem checker_depends_on_commitments_alone :
    let input : TxInput := { outPoint := ⟨List.replicate 32 1, 0⟩, script := [], sequence := 7 }
    let unlocked : TxInput := { input with script := [0x51], witness := [[2]] }
    let further : TxInput := { outPoint := ⟨List.replicate 32 3, 1⟩, script := [], sequence := 0 }
    let tx : Transaction :=
      { version := 1, inputs := [input], outputs := [⟨5, [0x51]⟩], lockTime := 0 }
    let other : Transaction :=
      { version := 1, inputs := [unlocked, further], outputs := [], lockTime := 0 }
    let signature : Bytes := [0x30, 0x06, 0x02, 0x01, 0x01, 0x02, 0x01, 0x01, 0xc2]
    tx ≠ other ∧ ∃ check check', tx.checker 0 = .ok check ∧ other.checker 0 = .ok check' ∧
      ∀ key code, check signature key code = check' signature key code := by
  intro input unlocked further tx other signature
  obtain ⟨check, check', found, found', alike, _⟩ :=
    @checker_depends_on_commitments tx other 0 (by decide) (by decide)
  refine ⟨by decide, check, check', found, found', alike signature fun hashType last => ?_⟩
  have type : hashType = 0xc2 := (Option.some.inj last).symm
  subst type
  exact ⟨rfl, rfl, rfl, nofun, nofun, nofun, nofun⟩

end Transaction
end SpendScript
