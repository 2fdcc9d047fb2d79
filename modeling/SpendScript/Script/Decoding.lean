import SpendScript.Limits
import SpendScript.Script.Operation
import SpendScript.ScriptError

/-!
# Decoding scripts

A byte string is cut into operations from the front. Decoding executes nothing; it fails only
on a script that is too long or on a push whose length or data runs past the end. What is read
are well-formed operations, and their bytes are the bytes that were read.
-/
set_option autoImplicit false

namespace SpendScript

abbrev Script := List Operation

namespace PushForm

theorem ofOpcode?_eq_none {opcode : UInt8} (h : ofOpcode? opcode = none) :
    0x4e < opcode := by
  unfold ofOpcode? at h
  simp only [UInt8.lt_iff_toNat_lt, UInt8.le_iff_toNat_le, ← UInt8.toNat_inj] at *
  simp only [UInt8.reduceToNat] at *
  split at h
  · cases h
  · split at h
    · cases h
    · split at h
      · cases h
      · split at h
        · cases h
        · omega

/-- A length that was read fits the form, which writes the opcode and the field it was read from. -/
theorem readLength?_eq_some {form : PushForm} {opcode : UInt8} {rest tail : Bytes} {n : Nat}
    (hform : ofOpcode? opcode = some form) (h : form.readLength? opcode rest = some (n, tail)) :
    n < form.capacity ∧ form.opcode n = opcode ∧ rest = Bytes.ofNatLE form.width n ++ tail := by
  have field {k : Nat}
      (h : (Bytes.cut? k rest).map (fun cut => (Bytes.toNatLE cut.1, cut.2)) = some (n, tail)) :
      n < Bytes.capacity k ∧ rest = Bytes.ofNatLE k n ++ tail := by
    obtain ⟨⟨f, r⟩, hcut, heq⟩ := Option.map_eq_some_iff.1 h
    simp only [Prod.mk.injEq] at heq
    obtain ⟨rfl, rfl⟩ := heq
    obtain ⟨rfl, rfl⟩ := Bytes.cut?_eq_some hcut
    exact ⟨Bytes.toNatLE_lt f, by rw [Bytes.ofNatLE_toNatLE]⟩
  unfold ofOpcode? at hform
  split at hform
  · next hle =>
    cases hform
    simp only [readLength?, Option.some.injEq, Prod.mk.injEq] at h
    obtain ⟨rfl, rfl⟩ := h
    have : opcode.toNat ≤ 0x4b := hle
    refine ⟨by simp only [capacity]; omega, ?_, rfl⟩
    exact UInt8.ofNat_toNat
  · split at hform
    · next ho => cases hform; exact ⟨(field h).1, ho.symm, (field h).2⟩
    · split at hform
      · next ho => cases hform; exact ⟨(field h).1, ho.symm, (field h).2⟩
      · split at hform
        · next ho => cases hform; exact ⟨(field h).1, ho.symm, (field h).2⟩
        · cases hform

theorem ofOpcode?_opcode {form : PushForm} {n : Nat} (h : n < form.capacity) :
    ofOpcode? (form.opcode n) = some form := by
  cases form with
  | direct =>
    have small : n ≤ 75 := Nat.le_of_lt_succ h
    have low : UInt8.ofNat n ≤ 0x4b := by
      rw [UInt8.le_iff_toNat_le, UInt8.toNat_ofNat', Nat.mod_eq_of_lt (by omega)]
      exact small
    simp [ofOpcode?, opcode, low]
  | length1 | length2 | length4 => rfl

theorem readLength?_opcode {form : PushForm} {n : Nat} (rest : Bytes) (h : n < form.capacity) :
    form.readLength? (form.opcode n) (Bytes.ofNatLE form.width n ++ rest) = some (n, rest) := by
  have field (k : Nat) (hn : n < Bytes.capacity k) :
      (Bytes.cut? k (Bytes.ofNatLE k n ++ rest)).map (fun cut => (Bytes.toNatLE cut.1, cut.2))
        = some (n, rest) := by
    rw [Bytes.cut?_append rest (Bytes.length_ofNatLE k n)]
    simp [Bytes.toNatLE_ofNatLE, Nat.mod_eq_of_lt hn]
  cases form with
  | direct =>
    have : n % 256 = n := Nat.mod_eq_of_lt (Nat.lt_of_lt_of_le h (by decide))
    simp [readLength?, opcode, width, Bytes.ofNatLE, this]
  | length1 => exact field 1 h
  | length2 => exact field 2 h
  | length4 => exact field 4 h

end PushForm

namespace Operation

/-- What is read is well formed and is written by the bytes that were read. -/
theorem read?_eq_some {bs rest : Bytes} {op : Operation} (h : read? bs = some (op, rest)) :
    bs = op.encode ++ rest ∧ op.WellFormed := by
  cases bs with
  | nil => cases h
  | cons opcode tail =>
    rw [read?] at h
    cases hform : PushForm.ofOpcode? opcode with
    | none =>
      rw [hform] at h
      cases h
      exact ⟨rfl, PushForm.ofOpcode?_eq_none hform⟩
    | some form =>
      rw [hform] at h
      obtain ⟨⟨n, afterLength⟩, hlen, h⟩ := Option.bind_eq_some_iff.1 h
      obtain ⟨⟨data, afterData⟩, hcut, h⟩ := Option.bind_eq_some_iff.1 h
      cases h
      obtain ⟨hlt, hop, rfl⟩ := PushForm.readLength?_eq_some hform hlen
      obtain ⟨rfl, rfl⟩ := Bytes.cut?_eq_some hcut
      exact ⟨by simp [encode, hop], hlt⟩

theorem length_lt_of_read? {bs rest : Bytes} {op : Operation}
    (h : read? bs = some (op, rest)) : rest.length < bs.length := by
  obtain ⟨rfl, _⟩ := read?_eq_some h
  have := List.length_pos_iff.2 (encode_ne_nil op)
  rw [List.length_append]
  omega

/-- An operation that is well formed is read back, whatever follows it. -/
theorem read?_encode_append {op : Operation} (rest : Bytes) (h : op.WellFormed) :
    read? (op.encode ++ rest) = some (op, rest) := by
  cases op with
  | push form data =>
    have hlen : data.length < form.capacity := h
    simp only [encode, List.cons_append, List.append_assoc, read?, PushForm.ofOpcode?_opcode hlen]
    simp [PushForm.readLength?_opcode _ hlen, Bytes.cut?_append rest rfl]
  | code opcode =>
    have hop : 0x4e < opcode := h
    have : PushForm.ofOpcode? opcode = none := by
      rw [UInt8.lt_iff_toNat_lt] at hop
      simp only [UInt8.reduceToNat] at hop
      simp only [PushForm.ofOpcode?, UInt8.le_iff_toNat_le, ← UInt8.toNat_inj, UInt8.reduceToNat]
      rw [if_neg (by omega), if_neg (by omega), if_neg (by omega), if_neg (by omega)]
    simp [encode, read?, this]

end Operation

namespace Script

/-- The bytes of the operations one after the other. -/
def encode (script : Script) : Bytes :=
  script.flatMap Operation.encode

/-- The operations that the bytes are cut into, unless a push runs past the end. -/
def read? (bs : Bytes) : Option Script :=
  match bs with
  | [] => some []
  | b :: tail =>
    match _h : Operation.read? (b :: tail) with
    | none => none
    | some (op, rest) => (read? rest).map (op :: ·)
termination_by bs.length
decreasing_by exact Operation.length_lt_of_read? _h

/-- The operations that are read are well formed and are written by the bytes that were read. -/
theorem read?_eq_some {bs : Bytes} {script : Script} (h : read? bs = some script) :
    bs = script.encode ∧ ∀ op ∈ script, op.WellFormed := by
  fun_induction read? bs generalizing script with
  | case1 =>
    cases h
    exact ⟨rfl, by simp⟩
  | case2 => cases h
  | case3 b tail op rest hop ih =>
    obtain ⟨ops, hops, rfl⟩ := Option.map_eq_some_iff.1 h
    obtain ⟨hbs, hwf⟩ := Operation.read?_eq_some hop
    obtain ⟨hrest, hall⟩ := ih hops
    refine ⟨?_, List.forall_mem_cons.2 ⟨hwf, hall⟩⟩
    rw [hbs, hrest]
    simp [encode]

/-- Well-formed operations are read back. -/
theorem read?_encode {script : Script} (h : ∀ op ∈ script, op.WellFormed) :
    read? script.encode = some script := by
  induction script with
  | nil => simp [encode, read?]
  | cons op ops ih =>
    obtain ⟨hop, hops⟩ := List.forall_mem_cons.1 h
    have front := Operation.read?_encode_append (encode ops) hop
    have bytes : encode (op :: ops) = op.encode ++ encode ops := rfl
    cases hbs : encode (op :: ops) with
    | nil => simp [bytes, Operation.encode_ne_nil] at hbs
    | cons b tail =>
      rw [← bytes, hbs] at front
      rw [read?]
      split
      · next hnone => rw [front] at hnone; cases hnone
      · next op' rest hsome =>
        rw [front] at hsome
        cases hsome
        rw [ih hops]
        rfl

/-- Decodes a script within the size limit. -/
def decode (bs : Bytes) : Except ScriptError Script :=
  if bs.length > Limits.scriptSize then .error .scriptSize
  else match read? bs with
    | some script => .ok script
    | none => .error .badOpcode

/-- The bytes of the operations that `keep` accepts. -/
def encodeFiltered (script : Script) (keep : Operation → Bool) : Bytes :=
  encode (script.filter keep)

/-- Whether every operation only pushes. -/
def isPushOnly (script : Script) : Bool :=
  script.all Operation.isPush

/-- What a signature commits to: the operations from `start` on, without the canonical pushes of
the signatures themselves. -/
def codeFrom (script : Script) (start : Nat) (signatures : List Bytes) : Bytes :=
  encodeFiltered (script.drop start) fun op => !signatures.any op.isCanonicalPushOf

end Script
end SpendScript
