import Mathlib.Data.List.Forall2
import Mathlib.Data.List.NodupEquivFin
import Mathlib.Order.Fin.Basic
import SpendScript.Proofs.Operands
import SpendScript.Proofs.Outcomes

/-!
# Matching signatures with keys

A scan goes once over the keys and gives each to the first signature that has none yet. It finds
a matching in order whenever there is one: if a key is good for the first signature, a matching
that uses the key later, or not at all, can be changed to use it here, because the signatures
after the first only lose a key that stands before all of theirs.
-/
set_option autoImplicit false

namespace SpendScript

section Matching

variable {α β : Type} {R : α → β → Prop}

theorem sublistForall₂_tail {a : α} {as : List α} {bs : List β}
    (h : List.SublistForall₂ R (a :: as) bs) : List.SublistForall₂ R as bs := by
  induction bs with
  | nil => cases h
  | cons b bs ih =>
    cases h with
    | cons _ rest => exact rest.cons_right
    | cons_right rest => exact (ih rest).cons_right

/-- A first partner that is good can be taken at once. -/
theorem sublistForall₂_cons_of_rel {a : α} {b : β} {as : List α} {bs : List β} (hab : R a b) :
    List.SublistForall₂ R (a :: as) (b :: bs) ↔ List.SublistForall₂ R as bs := by
  constructor
  · intro h
    cases h with
    | cons _ rest => exact rest
    | cons_right rest => exact sublistForall₂_tail rest
  · exact List.SublistForall₂.cons hab

theorem sublistForall₂_cons_of_not_rel {a : α} {b : β} {as : List α} {bs : List β}
    (hab : ¬R a b) :
    List.SublistForall₂ R (a :: as) (b :: bs) ↔ List.SublistForall₂ R (a :: as) bs := by
  constructor
  · intro h
    cases h with
    | cons good _ => exact absurd good hab
    | cons_right rest => exact rest
  · exact List.SublistForall₂.cons_right

theorem sublistForall₂_length_le {as : List α} {bs : List β} (h : List.SublistForall₂ R as bs) :
    as.length ≤ bs.length := by
  obtain ⟨cs, paired, sublist⟩ := List.sublistForall₂_iff.1 h
  rw [paired.length_eq]
  exact sublist.length_le

/-- A matching in order is an increasing map of positions. -/
theorem sublistForall₂_iff_strictMono {as : List α} {bs : List β} :
    List.SublistForall₂ R as bs ↔
      ∃ φ : Fin as.length → Fin bs.length, StrictMono φ ∧ ∀ i, R (as.get i) (bs.get (φ i)) := by
  rw [List.sublistForall₂_iff]
  constructor
  · rintro ⟨cs, paired, sublist⟩
    obtain ⟨f, hf⟩ := List.sublist_iff_exists_fin_orderEmbedding_get_eq.1 sublist
    refine ⟨fun i => f (Fin.cast paired.length_eq i), fun i j hij => f.strictMono hij, fun i => ?_⟩
    have good := (List.forall₂_iff_get.1 paired).2 i.val i.isLt (paired.length_eq ▸ i.isLt)
    rw [hf] at good
    exact good
  · rintro ⟨φ, increasing, good⟩
    refine ⟨List.ofFn fun i => bs.get (φ i), ?_, ?_⟩
    · rw [List.forall₂_iff_get]
      refine ⟨by simp, fun i hi hi' => ?_⟩
      simpa using good ⟨i, hi⟩
    · rw [List.sublist_iff_exists_fin_orderEmbedding_get_eq]
      refine ⟨OrderEmbedding.ofStrictMono (fun i => φ (Fin.cast (by simp) i)) ?_, fun i => ?_⟩
      · exact fun i j hij => increasing hij
      · simp only [List.get_eq_getElem, List.getElem_ofFn]
        rfl

end Matching

namespace MultiSig

variable {env : Environment} {code : Bytes}

/-- The pairs that a scan puts to the encoding rules, in order. None follows one that breaks a
rule. -/
def attempts (env : Environment) (code : Bytes) : List Bytes → List Bytes → List (Bytes × Bytes)
  | [], _ => []
  | _ :: _, [] => []
  | signature :: signatures, key :: keys =>
    if keys.length < signatures.length then []
    else
      let remaining :=
        if env.checker signature key code then signatures else signature :: signatures
      (signature, key) ::
        match env.flags.checkEncodings signature key with
        | .ok () => attempts env code remaining keys
        | .error _ => []

/-- The question about a pair that passes the encoding rules. -/
def askPair (env : Environment) (code : Bytes) (pair : Bytes × Bytes) : SignatureQuery :=
  env.ask pair.1 pair.2 code

theorem attempts_keys_prefix (signatures keys : List Bytes) :
    (attempts env code signatures keys).map Prod.snd <+: keys := by
  induction keys generalizing signatures with
  | nil => cases signatures <;> exact List.nil_prefix
  | cons key keys ih =>
    cases signatures with
    | nil => exact List.nil_prefix
    | cons signature signatures =>
      rw [attempts]
      split
      · exact List.nil_prefix
      · rw [List.map_cons]
        refine (List.prefix_cons_inj key).2 ?_
        split
        · exact ih _
        · exact List.nil_prefix

theorem scan_queries_prefix (signatures keys : List Bytes) :
    (scan env code signatures keys).queries <+:
      (attempts env code signatures keys).map (askPair env code) := by
  induction keys generalizing signatures with
  | nil => cases signatures <;> exact List.nil_prefix
  | cons key keys ih =>
    cases signatures with
    | nil => exact List.nil_prefix
    | cons signature signatures =>
      rw [attempts, scan]
      split
      · exact List.nil_prefix
      · cases env.flags.checkEncodings signature key with
        | ok => exact (List.prefix_cons_inj _).2 (ih _)
        | error error => exact List.nil_prefix

/-- A scan that meets no broken rule asks about every pair that it looks at, and answers. -/
theorem scan_of_checked {signatures keys : List Bytes}
    (checked : ∀ pair ∈ attempts env code signatures keys,
      env.flags.checkEncodings pair.1 pair.2 = .ok ()) :
    ∃ success, scan env code signatures keys =
      { result := .ok success,
        queries := (attempts env code signatures keys).map (askPair env code) } := by
  induction keys generalizing signatures with
  | nil =>
    cases signatures with
    | nil => exact ⟨true, rfl⟩
    | cons signature signatures => exact ⟨false, rfl⟩
  | cons key keys ih =>
    cases signatures with
    | nil => exact ⟨true, rfl⟩
    | cons signature signatures =>
      rw [attempts] at checked ⊢
      rw [scan]
      split
      · exact ⟨false, rfl⟩
      · next long =>
        rw [if_neg long] at checked
        have first := checked (signature, key) List.mem_cons_self
        dsimp only at first checked
        rw [first] at checked ⊢
        obtain ⟨success, rest⟩ := ih fun pair later => checked pair (List.mem_cons_of_mem _ later)
        refine ⟨success, ?_⟩
        show Scan.mk (scan env code _ keys).result (_ :: (scan env code _ keys).queries) = _
        rw [show (env.ask signature key code).accepted = env.checker signature key code from rfl,
          rest]
        rfl

/-- The checker takes the key for the signature. -/
def Accepts (env : Environment) (code signature key : Bytes) : Prop :=
  env.checker signature key code = true

/-- An answer of a scan is right: it is positive exactly if there is a matching in order. -/
theorem scan_ok_iff {signatures keys : List Bytes} {success : Bool}
    (answer : (scan env code signatures keys).result = .ok success) :
    success = true ↔ List.SublistForall₂ (Accepts env code) signatures keys := by
  induction keys generalizing signatures with
  | nil =>
    cases signatures with
    | nil =>
      cases answer
      exact iff_of_true rfl List.SublistForall₂.nil
    | cons signature signatures =>
      cases answer
      exact iff_of_false Bool.false_ne_true nofun
  | cons key keys ih =>
    cases signatures with
    | nil =>
      cases answer
      exact iff_of_true rfl List.SublistForall₂.nil
    | cons signature signatures =>
      rw [scan] at answer
      split at answer
      · next short =>
        cases answer
        refine iff_of_false Bool.false_ne_true fun matching => ?_
        have := sublistForall₂_length_le matching
        simp only [List.length_cons] at this
        omega
      · split at answer
        · by_cases accepted : Accepts env code signature key
          · rw [sublistForall₂_cons_of_rel accepted]
            refine ih ?_
            rw [← answer]
            exact congrArg (fun s => (scan env code s keys).result) (if_pos accepted).symm
          · rw [sublistForall₂_cons_of_not_rel accepted]
            refine ih ?_
            rw [← answer]
            exact congrArg (fun s => (scan env code s keys).result) (if_neg accepted).symm
        · cases answer

theorem readCount_eq_ok_iff {flags : Flags} {limit count : Nat} {error : ScriptError} {x : Bytes} :
    readCount flags limit error x = .ok count ↔
      ∃ n, flags.readNumber x = .ok n ∧ n.value = count ∧ count ≤ limit := by
  rw [readCount]
  cases flags.readNumber x with
  | error reason => simp
  | ok n =>
    dsimp only
    cases hn : n.value.toNat? with
    | none =>
      refine iff_of_false nofun ?_
      rintro ⟨_, ⟨⟩, same, _⟩
      rw [Int.mem_toNat?.2 same] at hn
      cases hn
    | some k =>
      have hk : n.value = k := Int.mem_toNat?.1 hn
      dsimp only
      split
      · next small =>
        constructor
        · rintro ⟨⟩
          exact ⟨n, rfl, hk, small⟩
        · rintro ⟨_, ⟨⟩, same, _⟩
          exact congrArg Except.ok (by omega)
      · next large =>
        refine iff_of_false nofun ?_
        rintro ⟨_, ⟨⟩, same, bounded⟩
        omega

theorem readCount_error {flags : Flags} {limit : Nat} {error reason : ScriptError} {x : Bytes}
    (h : readCount flags limit error x = .error reason) : reason = error ∨ reason = .unknown := by
  rw [readCount] at h
  split at h
  · split at h
    · split at h
      · cases h
      · cases h
        exact Or.inl rfl
    · cases h
      exact Or.inl rfl
  · next unread =>
    cases h
    exact Or.inr (Flags.readNumber_error unread)

theorem drop_eq_cons {stack below : Stack} {n : Nat} {x : Bytes} (h : stack.drop n = x :: below) :
    stack[n]? = some x ∧ stack.drop (n + 1) = below := by
  constructor
  · rw [← Nat.add_zero n, ← List.getElem?_drop, h]
    rfl
  · rw [← List.drop_drop, h]
    rfl

/-- Arguments are read from fixed places: below `keyCount` keys stands the number of signatures,
and below as many signatures the spare element. -/
theorem readArguments_eq_ok {flags : Flags} {keyCount : Nat} {stack : Stack} {args : Arguments}
    (h : readArguments flags keyCount stack = .ok args) :
    ∃ x, stack[keyCount + 1]? = some x ∧
      readCount flags keyCount .sigCount x = .ok args.signatures.length ∧
      args.keys = (stack.drop 1).take keyCount ∧
      args.signatures = (stack.drop (keyCount + 2)).take args.signatures.length ∧
      args.spare :: args.rest = stack.drop (keyCount + 2 + args.signatures.length) := by
  rw [readArguments] at h
  split at h
  · cases h
  · next x below hdrop =>
    obtain ⟨hx, hbelow⟩ := drop_eq_cons hdrop
    split at h
    · next count hcount =>
      split at h
      · cases h
      · next spare rest hspare =>
        cases h
        have long : (below.take count).length = count := by
          have := congrArg List.length hspare
          rw [List.length_drop, List.length_cons] at this
          rw [List.length_take]
          omega
        dsimp only
        rw [long]
        refine ⟨x, hx, hcount, rfl, ?_, ?_⟩
        · rw [← hbelow]
        · rw [← hspare, ← hbelow, List.drop_drop]
    · cases h

theorem keys_length {flags : Flags} {keyCount : Nat} {stack : Stack} {args : Arguments}
    (h : readArguments flags keyCount stack = .ok args) : args.keys.length = keyCount := by
  obtain ⟨_, _, _, hkeys, _, hbelow⟩ := readArguments_eq_ok h
  have := congrArg List.length hbelow
  rw [List.length_cons, List.length_drop] at this
  rw [hkeys, List.length_take, List.length_drop]
  omega

end MultiSig

/-- The operation that checks several signatures. -/
def Operation.checkMultiSig (demand : Bool) : Operation :=
  .code (if demand then 0xaf else 0xae)

/-- Where it is executed, the operation counts itself, then each key, and then judges what it finds
on the stack. -/
theorem Operation.run_checkMultiSig {env : Environment} {script : Script} {index : Nat}
    {ctx : Context} {demand : Bool} {keyCount : Nat} {args : MultiSig.Arguments}
    (executing : ctx.isExecuting = true)
    (keysCounted : MultiSig.readKeyCount env.flags ctx.stack = .ok keyCount)
    (withinLimit : ctx.opCount + 1 + keyCount ≤ Limits.opsPerScript)
    (argumentsRead : MultiSig.readArguments env.flags keyCount ctx.stack = .ok args) :
    (Operation.checkMultiSig demand).run env script index ctx =
      MultiSig.judge env script demand { ctx with opCount := ctx.opCount + 1 + keyCount } args := by
  have meaning : Instruction.ofOpcode (if demand then 0xaf else 0xae) = .checkMultiSig demand := by
    cases demand <;> rfl
  unfold Operation.checkMultiSig
  rw [run_code_of_counted meaning rfl nofun executing (by omega)]
  show Context.checkMultiSig _ env script demand = _
  rw [Context.checkMultiSig, keysCounted]
  dsimp only
  rw [Context.countOps_of_le withinLimit, Outcome.ok_andThen]
  dsimp only
  rw [argumentsRead]

/-- A spare element that has to be empty and is not is refused. Otherwise the answer is pushed or,
where it is demanded, has to be positive. -/
theorem MultiSig.finish_eq {env : Environment} {demand success : Bool} {ctx : Context}
    {args : MultiSig.Arguments} :
    finish env demand ctx args success =
      if env.flags.nullDummy = true ∧ args.spare ≠ [] then
        .fail .sigNullDummy { ctx with stack := args.spare :: args.rest }
      else if demand then
        if success then .ok { ctx with stack := args.rest }
        else .fail .checkMultiSigVerify { ctx with stack := args.rest }
      else .ok { ctx with stack := Stack.ofBool success :: args.rest } := by
  have refused : (env.flags.nullDummy && !args.spare.isEmpty) = true ↔
      env.flags.nullDummy = true ∧ args.spare ≠ [] := by
    rw [Bool.and_eq_true, Bool.not_eq_true', List.isEmpty_eq_false_iff]
  exact if_congr refused rfl rfl

@[simp] theorem MultiSig.finish_queries {env : Environment} {verify success : Bool} {ctx : Context}
    {args : MultiSig.Arguments} : (finish env verify ctx args success).queries = [] := by
  rw [finish_eq]
  split
  · rfl
  · split
    · split <;> rfl
    · rfl

@[simp] theorem MultiSig.judge_queries {env : Environment} {script : Script} {verify : Bool}
    {ctx : Context} {args : MultiSig.Arguments} :
    (judge env script verify ctx args).queries =
      (scan env (script.codeFrom ctx.codeStart args.signatures) args.signatures
        args.keys).queries := by
  unfold judge
  dsimp only
  split
  · simp [Outcome.asked]
  · simp [Outcome.asked, Outcome.fail]

end SpendScript
