import SpendScript.Transaction.Encoding
import SpendScript.Transaction.Reading

/-!
# One written form for each transaction

A reader answers only if the bytes in front are what would be written for its answer, and it takes
the same bytes whatever follows them. Sizes have this property because only the shortest is read,
and lists, inputs and outputs inherit it from their parts. Of the two forms of a transaction at most
one is read: the form with witnesses needs a witness where there are inputs, and without inputs the
other form begins with the mark of the first.
-/
set_option autoImplicit false

namespace SpendScript

/-- What the reader answers was written in the bytes that it took, and is read from these bytes
whatever follows them. -/
def Reader.Canonical {α : Type} (read : Reader α) (write : α → Bytes) : Prop :=
  ∀ ⦃bs rest : Bytes⦄ ⦃v : α⦄, read bs = some (v, rest) →
    bs = write v ++ rest ∧ ∀ tail, read (write v ++ tail) = some (v, tail)

namespace CompactSize

theorem readField?_eq_some {width least n : Nat} {bs rest : Bytes}
    (h : readField? width least bs = some (n, rest)) :
    least ≤ n ∧ n < Bytes.capacity width ∧ bs = Bytes.ofNatLE width n ++ rest := by
  unfold readField? at h
  split at h
  · next field tail cut =>
    dsimp only at h
    split at h
    · next wide =>
      cases h
      obtain ⟨rfl, rfl⟩ := Bytes.cut?_eq_some cut
      exact ⟨wide, Bytes.toNatLE_lt field, by rw [Bytes.ofNatLE_toNatLE]⟩
    · cases h
  · cases h

theorem readField?_ofNatLE {width least n : Nat} (wide : least ≤ n)
    (fits : n < Bytes.capacity width) (tail : Bytes) :
    readField? width least (Bytes.ofNatLE width n ++ tail) = some (n, tail) := by
  unfold readField?
  rw [Bytes.cut?_append tail (Bytes.length_ofNatLE width n)]
  dsimp only
  rw [Bytes.toNatLE_ofNatLE, Nat.mod_eq_of_lt fits, if_pos wide]

/-- A longer form is canonical if its mark leads to the field, and is written in front of all numbers
that are read from the field. -/
theorem canonical_of_marked {mark : UInt8} {width least n : Nat} {bs rest : Bytes}
    (reads : ∀ tail, read? (mark :: tail) = readField? width least tail)
    (writes : ∀ n, least ≤ n → n < Bytes.capacity width →
      encode n = mark :: Bytes.ofNatLE width n)
    (h : read? (mark :: bs) = some (n, rest)) :
    mark :: bs = encode n ++ rest ∧ ∀ tail, read? (encode n ++ tail) = some (n, tail) := by
  rw [reads] at h
  obtain ⟨wide, fits, rfl⟩ := readField?_eq_some h
  rw [writes n wide fits]
  refine ⟨rfl, fun tail => ?_⟩
  rw [List.cons_append, reads, readField?_ofNatLE wide fits]

/-- Each of the longer forms is read only where all shorter ones are too narrow. -/
theorem read?_canonical : Reader.Canonical read? encode := by
  intro bs rest n h
  rcases bs with _ | ⟨b, tail⟩
  · cases h
  by_cases eight : b = 0xff
  · subst eight
    refine canonical_of_marked (fun _ => rfl) (fun n wide _ => ?_) h
    rw [encode, if_neg (by omega), if_neg (by omega), if_neg (by omega)]
  by_cases four : b = 0xfe
  · subst four
    refine canonical_of_marked (fun _ => rfl) (fun n wide fits => ?_) h
    have narrow : n < 0x100000000 := Nat.lt_of_lt_of_eq fits (by decide)
    rw [encode, if_neg (by omega), if_neg (by omega), if_pos narrow]
  by_cases two : b = 0xfd
  · subst two
    refine canonical_of_marked (fun _ => rfl) (fun n wide fits => ?_) h
    have narrow : n < 0x10000 := Nat.lt_of_lt_of_eq fits (by decide)
    rw [encode, if_neg (by omega), if_pos narrow]
  have reads (tail : Bytes) : read? (b :: tail) = some (b.toNat, tail) := by
    rw [read?, if_neg eight, if_neg four, if_neg two]
  have small : b.toNat < 0xfd := by
    simp only [← UInt8.toNat_inj, UInt8.reduceToNat] at eight four two
    have byte := b.toNat_lt
    omega
  have written : encode b.toNat = [b] := by rw [encode, if_pos small, UInt8.ofNat_toNat]
  rw [reads] at h
  cases h
  rw [written]
  exact ⟨rfl, reads⟩

end CompactSize

namespace Reader

open CompactSize (encodeBlob encodeList)

/-- A number is written again in the field that it was read from, because it wraps around no sooner
than the field does. -/
theorem number_canonical {α : Type} {ofNat : Nat → α} {toNat : α → Nat} {width : Nat}
    (wraps : ∀ n, toNat (ofNat n) = n % Bytes.capacity width) :
    Canonical (fun bs => do
      let (field, rest) ← Bytes.cut? width bs
      return (ofNat (Bytes.toNatLE field), rest)) fun v => Bytes.ofNatLE width (toNat v) := by
  intro bs rest v h
  obtain ⟨⟨field, tail⟩, cut, h⟩ := Option.bind_eq_some_iff.1 h
  cases h
  obtain ⟨rfl, length⟩ := Bytes.cut?_eq_some cut
  subst length
  have written : Bytes.ofNatLE field.length (toNat (ofNat (Bytes.toNatLE field))) = field := by
    rw [wraps, Nat.mod_eq_of_lt (Bytes.toNatLE_lt field), Bytes.ofNatLE_toNatLE]
  dsimp only
  rw [written]
  exact ⟨rfl, fun tail => by simp [Bytes.cut?_append tail rfl]⟩

theorem uint32_canonical : Canonical uint32 fun n => Bytes.ofNatLE 4 n.toNat :=
  number_canonical fun _ => UInt32.toNat_ofNat'

theorem uint64_canonical : Canonical uint64 fun n => Bytes.ofNatLE 8 n.toNat :=
  number_canonical fun _ => UInt64.toNat_ofNat'

theorem blob_canonical : Canonical blob encodeBlob := by
  intro bs rest data h
  obtain ⟨⟨n, afterSize⟩, size, cut⟩ := Option.bind_eq_some_iff.1 h
  obtain ⟨rfl, width⟩ := Bytes.cut?_eq_some cut
  obtain ⟨rfl, takes⟩ := CompactSize.read?_canonical size
  subst width
  refine ⟨by simp [encodeBlob], fun tail => ?_⟩
  simp [encodeBlob, blob, takes, Bytes.cut?_append tail rfl]

section Lists

variable {α : Type} {read : Reader α} {write : α → Bytes} {n : Nat} {bs rest : Bytes}
  {items : List α}

theorem replicate_eq_some (canonical : Canonical read write)
    (h : replicate read n bs = some (items, rest)) :
    items.length = n ∧ bs = items.flatMap write ++ rest ∧
      ∀ tail, replicate read n (items.flatMap write ++ tail) = some (items, tail) := by
  induction n generalizing bs items with
  | zero =>
    cases h
    exact ⟨rfl, rfl, fun tail => rfl⟩
  | succ n ih =>
    obtain ⟨⟨item, afterItem⟩, first, h⟩ := Option.bind_eq_some_iff.1 h
    obtain ⟨⟨others, afterOthers⟩, later, h⟩ := Option.bind_eq_some_iff.1 h
    cases h
    obtain ⟨rfl, takesItem⟩ := canonical first
    obtain ⟨rfl, rfl, takesOthers⟩ := ih later
    refine ⟨rfl, by simp, fun tail => ?_⟩
    simp [replicate, takesItem, takesOthers]

/-- What holds of everything that is read holds of every item of a list. -/
theorem forall_mem_replicate {good : α → Prop}
    (each : ∀ {bs rest : Bytes} {v : α}, read bs = some (v, rest) → good v)
    (h : replicate read n bs = some (items, rest)) : ∀ v ∈ items, good v := by
  induction n generalizing bs items with
  | zero =>
    cases h
    simp
  | succ n ih =>
    obtain ⟨⟨item, afterItem⟩, first, h⟩ := Option.bind_eq_some_iff.1 h
    obtain ⟨⟨others, afterOthers⟩, later, h⟩ := Option.bind_eq_some_iff.1 h
    cases h
    exact List.forall_mem_cons.2 ⟨each first, ih later⟩

theorem list_canonical (canonical : Canonical read write) :
    Canonical (list read) (encodeList write) := by
  intro bs rest items h
  obtain ⟨⟨n, afterSize⟩, size, content⟩ := Option.bind_eq_some_iff.1 h
  obtain ⟨rfl, rfl, takesItems⟩ := replicate_eq_some canonical content
  obtain ⟨rfl, takesSize⟩ := CompactSize.read?_canonical size
  refine ⟨by simp [encodeList], fun tail => ?_⟩
  simp [encodeList, list, takesSize, takesItems]

theorem forall_mem_list {good : α → Prop}
    (each : ∀ {bs rest : Bytes} {v : α}, read bs = some (v, rest) → good v)
    (h : list read bs = some (items, rest)) : ∀ v ∈ items, good v := by
  obtain ⟨_, _, h⟩ := Option.bind_eq_some_iff.1 h
  exact forall_mem_replicate each h

end Lists

end Reader

open CompactSize (encodeBlob encodeList)

theorem OutPoint.read?_canonical : Reader.Canonical read? encode := by
  intro bs rest o h
  obtain ⟨⟨txid, afterTxid⟩, cut, h⟩ := Option.bind_eq_some_iff.1 h
  obtain ⟨⟨index, afterIndex⟩, number, h⟩ := Option.bind_eq_some_iff.1 h
  cases h
  obtain ⟨rfl, width⟩ := Bytes.cut?_eq_some cut
  obtain ⟨rfl, takesIndex⟩ := Reader.uint32_canonical number
  refine ⟨by simp [encode], fun tail => ?_⟩
  simp [encode, read?, Bytes.cut?_append _ width, takesIndex]

namespace TxInput

theorem read?_canonical : Reader.Canonical read? encode := by
  intro bs rest input h
  obtain ⟨⟨outPoint, afterOutPoint⟩, spent, h⟩ := Option.bind_eq_some_iff.1 h
  obtain ⟨⟨script, afterScript⟩, unlocking, h⟩ := Option.bind_eq_some_iff.1 h
  obtain ⟨⟨sequence, afterSequence⟩, number, h⟩ := Option.bind_eq_some_iff.1 h
  cases h
  obtain ⟨rfl, takesOutPoint⟩ := OutPoint.read?_canonical spent
  obtain ⟨rfl, takesScript⟩ := Reader.blob_canonical unlocking
  obtain ⟨rfl, takesSequence⟩ := Reader.uint32_canonical number
  refine ⟨by simp [encode], fun tail => ?_⟩
  simp [encode, read?, takesOutPoint, takesScript, takesSequence]

theorem witness_of_read? {bs rest : Bytes} {input : TxInput}
    (h : read? bs = some (input, rest)) : input.witness = [] := by
  obtain ⟨_, _, h⟩ := Option.bind_eq_some_iff.1 h
  obtain ⟨_, _, h⟩ := Option.bind_eq_some_iff.1 h
  obtain ⟨_, _, h⟩ := Option.bind_eq_some_iff.1 h
  cases h
  rfl

/-- The size that is bounded is that of what is written after the number of elements. -/
theorem length_flatMap_encodeBlob (witness : List Bytes) :
    (witness.flatMap encodeBlob).length = witnessSize witness := by
  induction witness with
  | nil => rfl
  | cons item others ih =>
    rw [List.flatMap_cons, List.length_append, ih, witnessSize, encodeBlob, List.length_append]

theorem readWitness?_canonical : Reader.Canonical readWitness? (encodeList encodeBlob) := by
  intro bs rest witness h
  obtain ⟨⟨n, afterSize⟩, size, content⟩ := Option.bind_eq_some_iff.1 h
  dsimp only at content
  split at content
  · next few =>
    obtain ⟨⟨items, afterItems⟩, elements, bounded⟩ := Option.bind_eq_some_iff.1 content
    dsimp only at bounded
    split at bounded
    · next small =>
      cases bounded
      obtain ⟨rfl, rfl, takesItems⟩ := Reader.replicate_eq_some Reader.blob_canonical elements
      obtain ⟨rfl, takesSize⟩ := CompactSize.read?_canonical size
      refine ⟨by simp [encodeList], fun tail => ?_⟩
      simp [encodeList, readWitness?, takesSize, takesItems, few, small]
    · cases bounded
  · cases content

/-- Of the inputs only the witnesses change, which are not part of what is written for an input. -/
theorem readWitnesses?_eq_some {inputs full : List TxInput} {bs rest : Bytes}
    (h : readWitnesses? inputs bs = some (full, rest)) :
    encodeList encode inputs = encodeList encode full ∧
      bs = full.flatMap encodeWitness ++ rest ∧
      ∀ tail, readWitnesses? inputs (full.flatMap encodeWitness ++ tail) = some (full, tail) := by
  suffices inputs.map encode = full.map encode ∧ bs = full.flatMap encodeWitness ++ rest ∧
      ∀ tail, readWitnesses? inputs (full.flatMap encodeWitness ++ tail) = some (full, tail) by
    obtain ⟨same, others⟩ := this
    have length : inputs.length = full.length := by
      simpa using congrArg List.length same
    refine ⟨?_, others⟩
    rw [encodeList, encodeList, length, List.flatMap_def, List.flatMap_def, same]
  induction inputs generalizing bs full with
  | nil =>
    cases h
    exact ⟨rfl, rfl, fun tail => rfl⟩
  | cons input inputs ih =>
    obtain ⟨⟨witness, afterWitness⟩, first, h⟩ := Option.bind_eq_some_iff.1 h
    obtain ⟨⟨others, afterOthers⟩, later, h⟩ := Option.bind_eq_some_iff.1 h
    cases h
    obtain ⟨rfl, takesWitness⟩ := readWitness?_canonical first
    obtain ⟨same, rfl, takesOthers⟩ := ih later
    refine ⟨congrArg (input.encode :: ·) same, by simp [encodeWitness], fun tail => ?_⟩
    simp [encodeWitness, readWitnesses?, takesWitness, takesOthers]

end TxInput

theorem TxOutput.read?_canonical : Reader.Canonical read? encode := by
  intro bs rest output h
  obtain ⟨⟨value, afterValue⟩, number, h⟩ := Option.bind_eq_some_iff.1 h
  obtain ⟨⟨script, afterScript⟩, locking, h⟩ := Option.bind_eq_some_iff.1 h
  cases h
  obtain ⟨rfl, takesValue⟩ := Reader.uint64_canonical number
  obtain ⟨rfl, takesScript⟩ := Reader.blob_canonical locking
  refine ⟨by simp [encode], fun tail => ?_⟩
  simp [encode, read?, takesValue, takesScript]

namespace Transaction

/-- What is written between the version and the lock time in the form with witnesses, after the
mark. -/
def encodeWitnessForm (body : List TxInput × List TxOutput) : Bytes :=
  encodeList TxInput.encode body.1 ++ encodeList TxOutput.encode body.2 ++
    body.1.flatMap TxInput.encodeWitness

/-- What is written between the version and the lock time. -/
def encodeBody (body : List TxInput × List TxOutput) : Bytes :=
  if body.1.isEmpty || body.1.any fun input => !input.witness.isEmpty then
    0 :: 1 :: encodeWitnessForm body
  else encodeList TxInput.encode body.1 ++ encodeList TxOutput.encode body.2

theorem encode_eq (tx : Transaction) :
    tx.encode = encodeVersion tx.version ++
      (encodeBody (tx.inputs, tx.outputs) ++ Bytes.ofNatLE 4 tx.lockTime.toNat) := by
  unfold encode hasWitnessForm encodeBody
  split
  · simp [encodeWitnessForm]
  · simp [encodeStripped]

/-- The form with witnesses is read only where it has to be written. -/
theorem readWitnessForm?_eq_some {bs rest : Bytes} {body : List TxInput × List TxOutput}
    (h : readWitnessForm? bs = some (body, rest)) :
    encodeBody body = 0 :: 1 :: encodeWitnessForm body ∧ bs = encodeWitnessForm body ++ rest ∧
      ∀ tail, readWitnessForm? (encodeWitnessForm body ++ tail) = some (body, tail) := by
  obtain ⟨⟨inputs, afterInputs⟩, first, h⟩ := Option.bind_eq_some_iff.1 h
  obtain ⟨⟨outputs, afterOutputs⟩, second, h⟩ := Option.bind_eq_some_iff.1 h
  obtain ⟨⟨full, afterWitnesses⟩, third, h⟩ := Option.bind_eq_some_iff.1 h
  dsimp only at h
  split at h
  · cases h
  · next needed =>
    cases h
    obtain ⟨rfl, takesInputs⟩ := Reader.list_canonical TxInput.read?_canonical first
    obtain ⟨rfl, takesOutputs⟩ := Reader.list_canonical TxOutput.read?_canonical second
    obtain ⟨same, rfl, takesWitnesses⟩ := TxInput.readWitnesses?_eq_some third
    have marked : (full.isEmpty || full.any fun input => !input.witness.isEmpty) = true := by
      cases full with
      | nil => rfl
      | cons input others => simpa [Classical.or_iff_not_imp_left] using needed
    refine ⟨if_pos marked, by simp [encodeWitnessForm, same], fun tail => ?_⟩
    simp only [encodeWitnessForm, ← same, readWitnessForm?, List.append_assoc, takesInputs,
      takesOutputs, takesWitnesses, Option.bind_eq_bind, Option.bind_some]
    exact if_neg needed

theorem readBody?_canonical : Reader.Canonical readBody? encodeBody := by
  intro bs rest body h
  obtain ⟨⟨inputs, afterInputs⟩, first, others⟩ := Option.bind_eq_some_iff.1 h
  obtain ⟨bytes, takesInputs⟩ := Reader.list_canonical TxInput.read?_canonical first
  dsimp only at others
  split at others
  · next empty =>
    obtain rfl := List.isEmpty_iff.1 empty
    split at others
    · next marked =>
      obtain ⟨written, rfl, takes⟩ := readWitnessForm?_eq_some others
      rw [written, bytes]
      exact ⟨rfl, takes⟩
    · cases others
  · next nonempty =>
    obtain ⟨⟨outputs, afterOutputs⟩, second, others⟩ := Option.bind_eq_some_iff.1 others
    cases others
    obtain ⟨rfl, takesOutputs⟩ := Reader.list_canonical TxOutput.read?_canonical second
    have bare : ∀ input ∈ inputs, input.witness = [] :=
      Reader.forall_mem_list TxInput.witness_of_read? first
    have unmarked : ¬(inputs.isEmpty || inputs.any fun input => !input.witness.isEmpty) = true := by
      simpa using ⟨List.isEmpty_eq_false_iff.1 (Bool.eq_false_iff.2 nonempty), bare⟩
    have written : encodeBody (inputs, outputs) =
        encodeList TxInput.encode inputs ++ encodeList TxOutput.encode outputs := if_neg unmarked
    rw [written]
    refine ⟨by simp [bytes], fun tail => ?_⟩
    simp only [readBody?, List.append_assoc, takesInputs, Option.bind_eq_bind, Option.bind_some]
    rw [if_neg nonempty, takesOutputs]
    rfl

theorem read?_canonical : Reader.Canonical read? encode := by
  intro bs rest tx h
  obtain ⟨⟨version, afterVersion⟩, first, h⟩ := Option.bind_eq_some_iff.1 h
  obtain ⟨⟨⟨inputs, outputs⟩, afterBody⟩, second, h⟩ := Option.bind_eq_some_iff.1 h
  obtain ⟨⟨lockTime, afterLockTime⟩, third, h⟩ := Option.bind_eq_some_iff.1 h
  cases h
  obtain ⟨rfl, takesVersion⟩ := Reader.uint32_canonical first
  obtain ⟨rfl, takesBody⟩ := readBody?_canonical second
  obtain ⟨rfl, takesLockTime⟩ := Reader.uint32_canonical third
  rw [encode_eq]
  refine ⟨by simp [encodeVersion], fun tail => ?_⟩
  simp [encodeVersion, read?, takesVersion, takesBody, takesLockTime]

theorem parse_eq_ok_iff {bs : Bytes} {tx : Transaction} :
    parse bs = .ok tx ↔ read? bs = some (tx, []) := by
  unfold parse
  split
  · next read => simp [read]
  · next other =>
    refine ⟨nofun, fun read => ?_⟩
    exact absurd read (other tx)

/-- The bytes of an accepted transaction are the ones that are written for it. So no other bytes are
accepted as the same transaction, and nothing may follow them. -/
theorem parse_accepts_one_form {bs : Bytes} {tx : Transaction} (accepted : parse bs = .ok tx) :
    bs = tx.encode ∧ (∀ other, parse other = .ok tx → bs = other) ∧
      ∀ tail, tail ≠ [] → parse (bs ++ tail) = .error .deserialize := by
  have written {other : Bytes} (h : parse other = .ok tx) : other = tx.encode := by
    obtain ⟨bytes, _⟩ := read?_canonical (parse_eq_ok_iff.1 h)
    rw [bytes, List.append_nil]
  refine ⟨written accepted, fun other h => ?_, fun tail nonempty => ?_⟩
  · rw [written accepted, written h]
  · obtain ⟨_, takes⟩ := read?_canonical (parse_eq_ok_iff.1 accepted)
    unfold parse
    rw [written accepted, takes tail]
    split
    · next read =>
      cases read
      exact absurd rfl nonempty
    · rfl

/-- One input with a witness and one output. -/
theorem parse_accepts_one_form_witnessed :
    let txid : Bytes := List.replicate 32 0xaa
    let tx : Transaction :=
      { version := 2
        inputs := [{ outPoint := ⟨txid, 1⟩, script := [], sequence := 5, witness := [[7, 8]] }]
        outputs := [{ value := 256, script := [0x51] }]
        lockTime := 0 }
    let bs : Bytes := [2, 0, 0, 0, 0, 1, 1] ++ txid ++ [1, 0, 0, 0, 0, 5, 0, 0, 0]
      ++ [1, 0, 1, 0, 0, 0, 0, 0, 0, 1, 0x51] ++ [1, 2, 7, 8] ++ [0, 0, 0, 0]
    parse bs = .ok tx ∧ bs = tx.encode ∧ parse (bs ++ [0]) = .error .deserialize := by
  intro txid tx bs
  have accepted : parse bs = .ok tx := by rfl
  obtain ⟨written, _, nothingFollows⟩ := parse_accepts_one_form accepted
  exact ⟨accepted, written, nothingFollows [0] (by decide)⟩

end Transaction
end SpendScript
