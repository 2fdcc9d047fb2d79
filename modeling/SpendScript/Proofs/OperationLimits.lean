import SpendScript.Proofs.EncodingRules
import SpendScript.Proofs.StackEffects

/-!
# Operations within the limits

Before every operation both stacks, the size of their elements, the count of operations and the
number of open conditionals are bounded. An operation adds at most three elements before the depth
is looked at, and counts at most the keys of one check before the count is looked at; so a failure
exceeds a limit by no more than that, and exactly if the limit is the reason. That a conditional is
counted before it is opened keeps the number of open ones below the limit at which opening would
fail.
-/
set_option autoImplicit false

namespace SpendScript

/-- The reasons for which a run of operations can stop; the others belong to a whole
verification. -/
def ScriptError.isRunReason : ScriptError → Bool
  | .ok | .evalFalse | .scriptSize | .sigPushOnly | .cleanStack => false
  | _ => true

/-- The reasons other than a limit of the run. -/
def ScriptError.isStepReason (error : ScriptError) : Bool :=
  error.isRunReason && error != .stackSize && error != .opCount

theorem ScriptError.isStepReason_of_operand {error : ScriptError}
    (h : error.isOperandReason = true) : error.isStepReason = true := by
  cases error <;> first | rfl | cases h

theorem ScriptError.isStepReason_of_argument {error : ScriptError}
    (h : error.isArgumentReason = true) : error.isStepReason = true := by
  cases error <;> first | rfl | cases h

theorem ScriptError.isStepReason_of_encoding {flags : Flags} {signature key : Bytes}
    {error : ScriptError} (refused : flags.checkEncodings signature key = .error error) :
    error.isStepReason = true := by
  rcases checkEncodings_error refused with rfl | rfl | rfl | rfl <;> rfl

namespace Context

/-- The elements of both stacks are of a size that could be pushed. -/
def Small (ctx : Context) : Prop :=
  ∀ x ∈ ctx.stack ++ ctx.altStack, x.length ≤ Limits.elementSize

/-- The bounds between two steps, with a given bound for the depth. -/
structure Within (depth : Nat) (ctx : Context) : Prop where
  small : ctx.Small
  depth_le : ctx.depth ≤ depth
  ops_le : ctx.opCount ≤ Limits.opsPerScript
  open_le : ctx.conditionals.branches.length ≤ ctx.opCount

/-- What a failure leaves: a limit is exceeded exactly if it is the reason, and not by much. -/
structure LeftBy (error : ScriptError) (ctx : Context) : Prop where
  reason : error.isRunReason = true
  small : ctx.Small
  depth_iff : error = .stackSize ↔ Limits.stackSize < ctx.depth
  depth_le : ctx.depth ≤ Limits.stackSize + 3
  ops_iff : error = .opCount ↔ Limits.opsPerScript < ctx.opCount
  ops_le : ctx.opCount ≤ Limits.opsPerScript + Limits.keysPerMultiSig

/-- The outcome of an operation before the depth is looked at. -/
abbrev Bounded (o : Outcome) : Prop :=
  o.Meets (Within (Limits.stackSize + 3)) LeftBy

variable {ctx : Context}

theorem Within.mono {depth depth' : Nat} (h : ctx.Within depth) (hle : depth ≤ depth') :
    ctx.Within depth' :=
  ⟨h.small, h.depth_le.trans hle, h.ops_le, h.open_le⟩

theorem Within.leftBy {error : ScriptError} (h : ctx.Within Limits.stackSize)
    (own : error.isStepReason = true) : LeftBy error ctx := by
  unfold ScriptError.isStepReason at own
  simp only [Bool.and_eq_true, bne_iff_ne] at own
  obtain ⟨⟨reason, notDepth⟩, notOps⟩ := own
  have hdepth := h.depth_le
  have hops := h.ops_le
  exact ⟨reason, h.small, iff_of_false notDepth (by omega), by omega,
    iff_of_false notOps (by omega), by omega⟩

/-- A new main stack of small elements, at most `extra` longer. -/
theorem Within.setStack {depth extra : Nat} {stack : Stack} (h : ctx.Within depth)
    (small : ∀ x ∈ stack, x.length ≤ Limits.elementSize)
    (longer : stack.length ≤ ctx.stack.length + extra) :
    Within (depth + extra) { ctx with stack := stack } := by
  refine ⟨?_, ?_, h.ops_le, h.open_le⟩
  · intro x hx
    rcases List.mem_append.1 hx with hx | hx
    · exact small x hx
    · exact h.small x (List.mem_append_right _ hx)
  · have hdepth := h.depth_le
    unfold Context.depth at hdepth ⊢
    dsimp only
    omega

theorem Within.small_stack {depth : Nat} (h : ctx.Within depth) :
    ∀ x ∈ ctx.stack, x.length ≤ Limits.elementSize :=
  fun x hx => h.small x (List.mem_append_left _ hx)

/-- The elements of both stacks in other places. -/
theorem Within.setStacks {depth : Nat} {stack altStack : Stack} (h : ctx.Within depth)
    (same : ∀ x ∈ stack ++ altStack, x ∈ ctx.stack ++ ctx.altStack)
    (many : stack.length + altStack.length ≤ ctx.stack.length + ctx.altStack.length) :
    Within depth { ctx with stack := stack, altStack := altStack } :=
  ⟨fun x hx => h.small x (same x hx), many.trans h.depth_le, h.ops_le, h.open_le⟩

/-- What is left of the main stack after its top was taken. -/
theorem Within.setSuffix {depth : Nat} {stack : Stack} (h : ctx.Within depth)
    (below : stack <:+ ctx.stack) : Within depth { ctx with stack := stack } := by
  have kept : Within (depth + 0) { ctx with stack := stack } :=
    h.setStack (fun x hx => h.small_stack x (below.subset hx)) below.length_le
  exact kept

theorem Within.popped {depth : Nat} (taken : Stack) {rest : Stack} (h : ctx.Within depth)
    (hstack : ctx.stack = taken ++ rest) : Within depth { ctx with stack := rest } :=
  h.setSuffix ⟨taken, hstack.symm⟩

/-- An element of the main stack on top of some of them, in their order. -/
theorem Within.small_cons {depth : Nat} {x : Bytes} {others : Stack} (h : ctx.Within depth)
    (hx : x ∈ ctx.stack) (hothers : others.Sublist ctx.stack) :
    (∀ y ∈ x :: others, y.length ≤ Limits.elementSize) ∧
      (x :: others).length ≤ ctx.stack.length + 3 := by
  constructor
  · intro y hy
    rcases List.mem_cons.1 hy with rfl | hy
    · exact h.small_stack y hx
    · exact h.small_stack y (hothers.subset hy)
  · have := hothers.length_le
    rw [List.length_cons]
    omega

theorem Within.push {depth : Nat} {x : Bytes} (h : ctx.Within depth)
    (hx : x.length ≤ Limits.elementSize) : (ctx.push x).Within (depth + 1) := by
  refine h.setStack (fun y hy => ?_) (Nat.le_refl _)
  rcases List.mem_cons.1 hy with rfl | hy
  · exact hx
  · exact h.small_stack y hy

theorem ofBool_length_le (b : Bool) : (Stack.ofBool b).length ≤ Limits.elementSize := by
  cases b <;> decide

theorem number_length_le (n : ScriptNum) : n.encode.length ≤ Limits.elementSize :=
  n.encode_length_le.trans (by decide)

theorem digest_length_le (hashing : Hashing) (h : HashFunction) (x : Bytes) :
    (hashing.digest h x).length ≤ Limits.elementSize := by
  rw [hashing.length_digest]
  cases h <;> decide

theorem bounded_fail {error : ScriptError} (h : ctx.Within Limits.stackSize)
    (own : error.isStepReason = true) : Bounded (.fail error ctx) :=
  h.leftBy own

theorem bounded_ok {depth : Nat} (h : ctx.Within depth) (hle : depth ≤ Limits.stackSize + 3) :
    Bounded (.ok ctx) :=
  h.mono hle

/-- A stack that was computed from the main stack, or a refusal to compute it. -/
theorem bounded_ofStack {r : Except ScriptError Stack} (h : ctx.Within Limits.stackSize)
    (hok : ∀ stack, r = .ok stack → (∀ x ∈ stack, x.length ≤ Limits.elementSize) ∧
      stack.length ≤ ctx.stack.length + 3)
    (hfail : ∀ error, r = .error error → error.isStepReason = true) : Bounded (.ofStack ctx r) :=
  Outcome.meets_ofStack (fun stack hr => h.setStack (hok stack hr).1 (hok stack hr).2)
    fun error hr => h.leftBy (hfail error hr)

theorem bounded_conclude {demand success : Bool} {error : ScriptError}
    (h : ctx.Within Limits.stackSize) (own : error.isStepReason = true) :
    Bounded (.conclude ctx demand error success) :=
  Outcome.meets_conclude (h.mono (by omega)) ((h.push (ofBool_length_le success)).mono (by omega))
    (h.leftBy own)

theorem bounded_pushData {flags : Flags} {form : PushForm} {data : Bytes}
    (h : ctx.Within Limits.stackSize) : Bounded (ctx.pushData flags form data) := by
  rw [pushData]
  split
  · exact bounded_fail h rfl
  · next short =>
    split
    · exact bounded_ok h (by omega)
    · split
      · exact bounded_fail h rfl
      · exact bounded_ok (h.push (Nat.le_of_not_lt short)) (by omega)

theorem bounded_pickOrRoll {flags : Flags} {move : Bool} (h : ctx.Within Limits.stackSize) :
    Bounded (ctx.pickOrRoll flags move) := by
  rw [pickOrRoll]
  split
  · next x y rest hstack =>
    split
    · next n hn =>
      have popped := h.popped [x] hstack
      dsimp only
      split
      · next depth hdepth =>
        refine bounded_ofStack popped (fun stack hr => ?_) fun error hr => ?_
        · split at hr
          · obtain ⟨⟨item, others⟩, removed, rfl⟩ := except_map_eq_ok.1 hr
            obtain ⟨hitem, hothers⟩ := Stack.remove_eq_ok removed
            exact popped.small_cons hitem hothers
          · obtain ⟨item, found, rfl⟩ := except_map_eq_ok.1 hr
            exact popped.small_cons (Stack.top_eq_ok found) (List.Sublist.refl _)
        · split at hr
          · rw [Stack.remove_error (except_map_eq_error.1 hr)]
            rfl
          · rw [Stack.top_error (except_map_eq_error.1 hr)]
            rfl
      · exact bounded_fail popped rfl
    · next error hn =>
      rw [Flags.readNumber_error hn]
      exact bounded_fail h rfl
  · exact bounded_fail h rfl

theorem bounded_checkSig {env : Environment} {script : Script} {demand : Bool}
    (h : ctx.Within Limits.stackSize) : Bounded (ctx.checkSig env script demand) := by
  rw [checkSig]
  split
  · next key signature rest hstack =>
    split
    · exact bounded_conclude (h.popped [key, signature] hstack) rfl
    · next error refused =>
      exact bounded_fail h (ScriptError.isStepReason_of_encoding refused)
  · exact bounded_fail h rfl

/-- Counting may exceed the limit, and then by no more than the keys of one check. -/
theorem bounded_countOps {n : Nat} {next : Context → Outcome} (h : ctx.Within Limits.stackSize)
    (few : n ≤ Limits.keysPerMultiSig)
    (hnext : Within Limits.stackSize { ctx with opCount := ctx.opCount + n } →
      Bounded (next { ctx with opCount := ctx.opCount + n })) :
    Bounded ((ctx.countOps n).andThen next) := by
  have hops := h.ops_le
  have hopen := h.open_le
  by_cases within : ctx.opCount + n ≤ Limits.opsPerScript
  · rw [countOps_of_le within, Outcome.ok_andThen]
    exact hnext ⟨h.small, h.depth_le, within, hopen.trans (Nat.le_add_right _ n)⟩
  · rw [countOps_of_lt (Nat.lt_of_not_le within), Outcome.fail_andThen]
    have hdepth : ctx.depth ≤ Limits.stackSize := h.depth_le
    refine ⟨rfl, h.small, iff_of_false nofun (Nat.not_lt.2 hdepth), Nat.le_add_right_of_le hdepth,
      iff_of_true rfl (Nat.lt_of_not_le within), ?_⟩
    exact Nat.add_le_add hops few

theorem bounded_judge {env : Environment} {script : Script} {demand : Bool}
    {args : MultiSig.Arguments} (h : ctx.Within Limits.stackSize)
    (below : args.spare :: args.rest <:+ ctx.stack) :
    Bounded (MultiSig.judge env script demand ctx args) := by
  rw [MultiSig.judge]
  split
  · next success answer =>
    rw [Bounded, Outcome.meets_asked, MultiSig.finish]
    split
    · exact bounded_fail (h.setSuffix below) rfl
    · have deeper : args.rest <:+ ctx.stack := (List.suffix_cons args.spare args.rest).trans below
      exact bounded_conclude (h.setSuffix deeper) rfl
  · next error failed =>
    rw [Bounded, Outcome.meets_asked]
    obtain ⟨signature, key, refused⟩ := MultiSig.scan_error failed
    exact bounded_fail h (ScriptError.isStepReason_of_encoding refused)

theorem bounded_checkMultiSig {env : Environment} {script : Script} {demand : Bool}
    (h : ctx.Within Limits.stackSize) : Bounded (ctx.checkMultiSig env script demand) := by
  rw [checkMultiSig]
  split
  · next keyCount keysCounted =>
    refine bounded_countOps h (MultiSig.readKeyCount_eq_ok keysCounted) fun counted => ?_
    dsimp only
    split
    · next args argumentsRead =>
      obtain ⟨_, _, _, _, _, below⟩ := MultiSig.readArguments_eq_ok argumentsRead
      refine bounded_judge counted ?_
      rw [below]
      exact List.drop_suffix _ _
    · next error unread =>
      exact bounded_fail counted
        (ScriptError.isStepReason_of_argument (MultiSig.readArguments_error unread))
  · next error unread =>
    exact bounded_fail h
      (ScriptError.isStepReason_of_argument (MultiSig.readKeyCount_error unread))

/-- New conditionals, no more of them than operations were counted. -/
theorem bounded_setConditionals {r : Except ScriptError Conditionals}
    (h : ctx.Within Limits.stackSize)
    (hok : ∀ c, r = .ok c → c.branches.length ≤ ctx.opCount)
    (hfail : ∀ error, r = .error error → error.isStepReason = true) :
    Bounded (ctx.setConditionals r) := by
  refine meets_setConditionals (fun c hr => ?_) fun error hr => h.leftBy (hfail error hr)
  exact ⟨h.small, h.depth_le.trans (Nat.le_add_right _ 3), h.ops_le, hok c hr⟩

/-- An opening that was counted finds room: the limit on open conditionals is never reached. -/
theorem bounded_open {taken : Bool} (h : ctx.Within Limits.stackSize)
    (counted : ctx.conditionals.branches.length < ctx.opCount) :
    Bounded (ctx.setConditionals (ctx.conditionals.push taken)) := by
  have hops := h.ops_le
  have room : ctx.conditionals.branches.length < Limits.stackSize :=
    counted.trans (Nat.lt_of_le_of_lt hops (by decide))
  rw [Conditionals.push, if_neg (Nat.not_le.2 room)]
  refine bounded_setConditionals h (fun c hr => ?_) nofun
  cases hr
  exact counted

theorem bounded_openIf {negated : Bool} (h : ctx.Within Limits.stackSize)
    (counted : ctx.conditionals.branches.length < ctx.opCount) : Bounded (ctx.openIf negated) := by
  rw [openIf]
  split
  · split
    · next x rest hstack =>
      exact bounded_open (h.popped [x] hstack) counted
    · exact bounded_fail h rfl
  · exact bounded_open h counted

theorem bounded_toggle (h : ctx.Within Limits.stackSize) :
    Bounded (ctx.setConditionals ctx.conditionals.toggle) := by
  have hopen := h.open_le
  rw [Conditionals.toggle]
  split
  · exact bounded_setConditionals h nofun fun error hr => by cases hr; rfl
  · next taken rest hbranches =>
    rw [hbranches] at hopen
    refine bounded_setConditionals h (fun c hr => ?_) nofun
    cases hr
    exact hopen

theorem bounded_pop (h : ctx.Within Limits.stackSize) :
    Bounded (ctx.setConditionals ctx.conditionals.pop) := by
  have hopen := h.open_le
  rw [Conditionals.pop]
  split
  · exact bounded_setConditionals h nofun fun error hr => by cases hr; rfl
  · next taken rest hbranches =>
    rw [hbranches, List.length_cons] at hopen
    refine bounded_setConditionals h (fun c hr => ?_) nofun
    cases hr
    exact Nat.le_of_succ_le hopen

/-- The bytes of a number that fits two bytes, pushed. -/
theorem bounded_pushNumber {n : Int} (h : ctx.Within Limits.stackSize)
    (hn : n.natAbs ≤ Limits.stackSize) : Bounded (.ok (ctx.push (SignMagnitude.encode n))) := by
  have room : Limits.stackSize < 128 * Bytes.capacity 1 := by decide
  have short : (SignMagnitude.encode n).length ≤ 2 :=
    SignMagnitude.encode_length_le (Nat.lt_of_le_of_lt hn room)
  exact bounded_ok (h.push (short.trans (by decide))) (by omega)

/-- A few elements on top of the main stack replaced by a small one. -/
theorem Within.replaceTop (taken : Stack) {rest : Stack} {x : Bytes}
    (h : ctx.Within Limits.stackSize) (hstack : ctx.stack = taken ++ rest)
    (hx : x.length ≤ Limits.elementSize) :
    (∀ y ∈ x :: rest, y.length ≤ Limits.elementSize) ∧
      (x :: rest).length ≤ ctx.stack.length + 3 := by
  constructor
  · intro y hy
    rcases List.mem_cons.1 hy with rfl | hy
    · exact hx
    · exact h.small_stack y (hstack ▸ List.mem_append_right taken hy)
  · rw [hstack, List.length_append, List.length_cons]
    omega

theorem bounded_shuffle {op : Shuffle} (h : ctx.Within Limits.stackSize) :
    Bounded (.ofStack ctx (op.apply ctx.stack)) := by
  refine bounded_ofStack h (fun stack hr => ?_) fun error hr => ?_
  · have growth := op.growth_le
    have length := Shuffle.apply_length_le hr
    exact ⟨fun x hx => h.small_stack x (Shuffle.mem_of_apply hr hx), by omega⟩
  · rw [Shuffle.apply_error hr]
    rfl

theorem bounded_unary {op : UnaryOp} {flags : Flags} (h : ctx.Within Limits.stackSize) :
    Bounded (.ofStack ctx (op.run flags ctx.stack)) := by
  refine bounded_ofStack h (fun stack hr => ?_) fun error hr =>
    ScriptError.isStepReason_of_operand (UnaryOp.run_error hr)
  obtain ⟨x, rest, n, hstack, rfl⟩ := UnaryOp.run_eq_ok hr
  exact h.replaceTop [x] hstack (number_length_le n)

theorem bounded_binary {op : BinaryOp} {flags : Flags} (h : ctx.Within Limits.stackSize) :
    Bounded (.ofStack ctx (op.run flags ctx.stack)) := by
  refine bounded_ofStack h (fun stack hr => ?_) fun error hr =>
    ScriptError.isStepReason_of_operand (BinaryOp.run_error hr)
  obtain ⟨y, x, rest, n, hstack, rfl⟩ := BinaryOp.run_eq_ok hr
  exact h.replaceTop [y, x] hstack (number_length_le n)

theorem bounded_within {flags : Flags} (h : ctx.Within Limits.stackSize) :
    Bounded (.ofStack ctx (ctx.stack.within flags)) := by
  refine bounded_ofStack h (fun stack hr => ?_) fun error hr =>
    ScriptError.isStepReason_of_operand (Stack.within_error hr)
  obtain ⟨upper, lower, x, rest, answer, hstack, rfl⟩ := Stack.within_eq_ok hr
  exact h.replaceTop [upper, lower, x] hstack (ofBool_length_le answer)

theorem bounded_equalNumbers {flags : Flags} (h : ctx.Within Limits.stackSize) :
    Bounded (match flags.readTwo ctx.stack with
      | .ok (a, b, rest) =>
        .conclude { ctx with stack := rest } true .numEqualVerify (a.value == b.value)
      | .error error => .fail error ctx) := by
  split
  · next a b rest read =>
    obtain ⟨y, x, hstack⟩ := Flags.readTwo_eq_ok read
    exact bounded_conclude (h.popped [y, x] hstack) rfl
  · next error unread =>
    exact bounded_fail h (ScriptError.isStepReason_of_operand (Flags.readTwo_error unread))

end Context

namespace Instruction

theorem run_bounded {instruction : Instruction} {env : Environment} {script : Script}
    {index : Nat} {ctx : Context} (h : ctx.Within Limits.stackSize)
    (number : ∀ n, instruction = .pushNumber n → n.natAbs ≤ Limits.stackSize)
    (counted : instruction.isConditional = true →
      ctx.conditionals.branches.length < ctx.opCount) :
    Context.Bounded (instruction.run env script index ctx) := by
  cases instruction with
  | push | versionIf | reserved | ret => exact Context.bounded_fail h rfl
  | disabled => exact Context.bounded_fail h rfl
  | pushNumber n => exact Context.bounded_pushNumber h (number n rfl)
  | nop => exact Context.bounded_ok h (by decide)
  | upgradableNop =>
    rw [run]
    split
    · exact Context.bounded_fail h rfl
    · exact Context.bounded_ok h (by decide)
  | openIf negated => exact Context.bounded_openIf h (counted rfl)
  | otherwise => exact Context.bounded_toggle h
  | endIf => exact Context.bounded_pop h
  | verify =>
    rw [run]
    split
    · next x rest hstack =>
      split
      · exact Context.bounded_ok (h.popped [x] hstack) (by decide)
      · exact Context.bounded_fail h rfl
    · exact Context.bounded_fail h rfl
  | toAltStack =>
    rw [run]
    split
    · next x rest hstack =>
      refine Context.bounded_ok (h.setStacks (fun y hy => ?_) ?_) (by decide)
      · rw [hstack]
        exact List.perm_middle.subset hy
      · rw [hstack, List.length_cons, List.length_cons]
        omega
    · exact Context.bounded_fail h rfl
  | fromAltStack =>
    rw [run]
    split
    · next x rest halt =>
      refine Context.bounded_ok (h.setStacks (fun y hy => ?_) ?_) (by decide)
      · rw [halt]
        exact List.perm_middle.symm.subset hy
      · rw [halt, List.length_cons, List.length_cons]
        omega
    · exact Context.bounded_fail h rfl
  | shuffle op => exact Context.bounded_shuffle h
  | depth =>
    have depth_le := h.depth_le
    refine Context.bounded_pushNumber h ?_
    unfold Context.depth at depth_le
    omega
  | pick => exact Context.bounded_pickOrRoll h
  | roll => exact Context.bounded_pickOrRoll h
  | size =>
    rw [run]
    split
    · next x rest hstack =>
      have small : x.length ≤ Limits.elementSize :=
        h.small_stack x (hstack ▸ List.mem_cons_self)
      exact Context.bounded_pushNumber h (small.trans (by decide))
    · exact Context.bounded_fail h rfl
  | equal demand =>
    rw [run]
    split
    · next y x rest hstack =>
      exact Context.bounded_conclude (h.popped [y, x] hstack) rfl
    · exact Context.bounded_fail h rfl
  | unary op => exact Context.bounded_unary h
  | binary op => exact Context.bounded_binary h
  | numEqualVerify => exact Context.bounded_equalNumbers h
  | within => exact Context.bounded_within h
  | hash function =>
    rw [run]
    split
    · next x rest hstack =>
      have short := Context.digest_length_le env.hashing function x
      obtain ⟨small, longer⟩ := h.replaceTop [x] hstack short
      exact Context.bounded_ok (h.setStack small longer) (Nat.le_refl _)
    · exact Context.bounded_fail h rfl
  | codeSeparator => exact Context.bounded_ok ⟨h.small, h.depth_le, h.ops_le, h.open_le⟩ (by decide)
  | checkSig demand => exact Context.bounded_checkSig h
  | checkMultiSig demand => exact Context.bounded_checkMultiSig h

end Instruction

end SpendScript
