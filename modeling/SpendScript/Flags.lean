import SpendScript.Commas

/-!
# Rule flags

Optional rules that an evaluation may enforce on top of the base rules. A set of flags is a
record with one entry per rule. Sets are built from registered names, from a comma-separated
text or from bits; each of these refuses names or bits that no rule owns, and a set that asks
for a clean stack without the rule for script hashes.
-/
set_option autoImplicit false

namespace SpendScript

inductive Flag where
  | p2sh
  | strictEnc
  | derSig
  | lowS
  | nullDummy
  | sigPushOnly
  | minimalData
  | discourageUpgradableNops
  | cleanStack
  deriving DecidableEq, Repr

namespace Flag

/-- Every flag once, from the lowest bit to the highest. -/
def all : List Flag :=
  [.p2sh, .strictEnc, .derSig, .lowS, .nullDummy, .sigPushOnly, .minimalData,
   .discourageUpgradableNops, .cleanStack]

def name : Flag → String
  | .p2sh => "P2SH"
  | .strictEnc => "STRICTENC"
  | .derSig => "DERSIG"
  | .lowS => "LOW_S"
  | .nullDummy => "NULLDUMMY"
  | .sigPushOnly => "SIGPUSHONLY"
  | .minimalData => "MINIMALDATA"
  | .discourageUpgradableNops => "DISCOURAGE_UPGRADABLE_NOPS"
  | .cleanStack => "CLEANSTACK"

/-- The position of the flag's bit. -/
def position : Flag → Nat
  | .p2sh => 0
  | .strictEnc => 1
  | .derSig => 2
  | .lowS => 3
  | .nullDummy => 4
  | .sigPushOnly => 5
  | .minimalData => 6
  | .discourageUpgradableNops => 7
  | .cleanStack => 8

theorem mem_all (f : Flag) : f ∈ all := by
  cases f <;> decide

end Flag

/-- A set of flags. -/
structure Flags where
  /-- Evaluate the script behind a script hash. -/
  p2sh : Bool := false
  /-- Signatures and keys are strictly encoded. -/
  strictEnc : Bool := false
  /-- Signatures are strict DER. -/
  derSig : Bool := false
  /-- The `s` of a signature lies in the lower half of the group order. -/
  lowS : Bool := false
  /-- The spare element of a multi-signature check is empty. -/
  nullDummy : Bool := false
  /-- The unlocking script only pushes. -/
  sigPushOnly : Bool := false
  /-- Pushes and numbers use their shortest form. -/
  minimalData : Bool := false
  /-- The operations kept for upgrades are refused. -/
  discourageUpgradableNops : Bool := false
  /-- Evaluation leaves exactly one element. -/
  cleanStack : Bool := false
  deriving DecidableEq, Repr

/-- Why a set of flags could not be built. -/
inductive FlagError where
  | unknownFlag (name : String)
  | unsupportedBits (bits : Nat)
  | cleanStackWithoutP2sh
  deriving DecidableEq, Repr

/-- The failure in words; bits are written in hexadecimal. -/
def FlagError.message : FlagError → String
  | .unknownFlag name => "unknown verification flag `" ++ name ++ "`"
  | .unsupportedBits bits =>
    "unsupported verification flag bits 0x" ++ String.ofList (Nat.toDigits 16 bits)
  | .cleanStackWithoutP2sh => "CLEANSTACK requires P2SH"

namespace Flags

def empty : Flags := {}

def has (flags : Flags) : Flag → Bool
  | .p2sh => flags.p2sh
  | .strictEnc => flags.strictEnc
  | .derSig => flags.derSig
  | .lowS => flags.lowS
  | .nullDummy => flags.nullDummy
  | .sigPushOnly => flags.sigPushOnly
  | .minimalData => flags.minimalData
  | .discourageUpgradableNops => flags.discourageUpgradableNops
  | .cleanStack => flags.cleanStack

/-- The set with exactly the flags that `p` accepts. -/
def ofPred (p : Flag → Bool) : Flags where
  p2sh := p .p2sh
  strictEnc := p .strictEnc
  derSig := p .derSig
  lowS := p .lowS
  nullDummy := p .nullDummy
  sigPushOnly := p .sigPushOnly
  minimalData := p .minimalData
  discourageUpgradableNops := p .discourageUpgradableNops
  cleanStack := p .cleanStack

@[simp] theorem has_ofPred (p : Flag → Bool) (f : Flag) : (ofPred p).has f = p f := by
  cases f <;> rfl

@[simp] theorem has_empty (f : Flag) : empty.has f = false := by
  cases f <;> rfl

/-- A set is known by its members. -/
theorem ext_has {a b : Flags} (h : ∀ f, a.has f = b.has f) : a = b := by
  have p2sh := h .p2sh
  have strictEnc := h .strictEnc
  have derSig := h .derSig
  have lowS := h .lowS
  have nullDummy := h .nullDummy
  have sigPushOnly := h .sigPushOnly
  have minimalData := h .minimalData
  have discourage := h .discourageUpgradableNops
  have cleanStack := h .cleanStack
  cases a
  cases b
  simp_all [has]

def single (f : Flag) : Flags :=
  ofPred (· == f)

def union (a b : Flags) : Flags :=
  ofPred fun f => a.has f || b.has f

@[simp] theorem has_union (a b : Flags) (f : Flag) :
    (a.union b).has f = (a.has f || b.has f) := by
  simp [union]

instance : HasSubset Flags where
  Subset a b := ∀ f, a.has f = true → b.has f = true

/-- Whether every flag of `b` is in `a`. -/
def contains (a b : Flags) : Bool :=
  Flag.all.all fun f => !b.has f || a.has f

theorem contains_iff {a b : Flags} : a.contains b = true ↔ b ⊆ a := by
  constructor
  · intro h f hf
    have := List.all_eq_true.1 h f (Flag.mem_all f)
    simpa [hf] using this
  · intro h
    refine List.all_eq_true.2 fun f _ => ?_
    cases hf : b.has f
    · rfl
    · simp [h f hf]

def isEmpty (flags : Flags) : Bool :=
  Flag.all.all fun f => !flags.has f

/-- The flags of the set, from the lowest bit to the highest. -/
def toList (flags : Flags) : List Flag :=
  Flag.all.filter flags.has

/-- The sum of the members' bits. -/
def bits (flags : Flags) : Nat :=
  flags.toList.foldr (fun f sum => (1 <<< f.position) + sum) 0

def names (flags : Flags) : List String :=
  flags.toList.map Flag.name

/-- The names joined by commas; the empty set is written `NONE`. -/
def display (flags : Flags) : String :=
  if flags.isEmpty then "NONE"
  else String.ofList (Commas.join (flags.names.map String.toList))

/-- A clean stack can only be asked for together with the rule for script hashes. -/
def validated (flags : Flags) : Except FlagError Flags :=
  if flags.cleanStack && !flags.p2sh then .error .cleanStackWithoutP2sh else .ok flags

/-- The set with the given bits. Bits that no flag owns are reported alone. -/
def ofBits? (bits : Nat) : Except FlagError Flags :=
  let unsupported := bits >>> Flag.all.length <<< Flag.all.length
  if unsupported ≠ 0 then .error (.unsupportedBits unsupported)
  else (ofPred fun f => bits.testBit f.position).validated

/-- The names that stand for a set: the empty one and each single flag. -/
def registry : List (String × Flags) :=
  ("NONE", empty) :: Flag.all.map fun f => (f.name, single f)

def lookup? (name : String) : Option Flags :=
  registry.lookup name

/-- The union of the named sets; the first unknown name is reported. -/
def collect : List String → Except FlagError Flags
  | [] => .ok empty
  | name :: names =>
    match lookup? name with
    | none => .error (.unknownFlag name)
    | some flags => (collect names).map flags.union

/-- The union of the named sets. An unknown name is reported before a missing rule for script
hashes. -/
def resolve (names : List String) : Except FlagError Flags :=
  (collect names).bind validated

/-- Reads a comma-separated list of names; the empty text is the empty set. Between two commas
there is always a name, so an empty piece is an unknown one. -/
def parse (text : String) : Except FlagError Flags :=
  match text.toList with
  | [] => .ok empty
  | chars => resolve ((Commas.split chars).map String.ofList)

/-- The usual set: script hashes are resolved and encodings are strict. -/
def standard : Flags where
  p2sh := true
  strictEnc := true

end Flags
end SpendScript
