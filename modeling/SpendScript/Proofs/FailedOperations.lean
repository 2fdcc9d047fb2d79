import SpendScript.Proofs.EncodingRules
import SpendScript.Proofs.OpcodeTable
import SpendScript.Proofs.Questions
import SpendScript.Proofs.StackEffects

/-!
# What a failing operation leaves behind

Nothing is rolled back, so a failure leaves the context as the operation had it when it stopped.
Operations look at what they need before they take anything, with few exceptions: a depth is taken
before it is compared with the stack, and a demand that is not met is noticed after the operands
are gone. So a failure that is not about the depth of the stacks changes the count of operations,
in those few cases the main stack, and nothing else.
-/
set_option autoImplicit false

namespace SpendScript

/-- The top is read as a depth at which nothing stands below it. With nothing below it at all it is
not read. -/
def Flags.MissesDepth (flags : Flags) (stack left : Stack) : Prop :=
  left ≠ [] ∧ ∃ x n, stack = x :: left ∧ flags.readNumber x = .ok n ∧
    (n.value < 0 ∨ left.length ≤ n.value)

namespace Instruction

/-- The instruction takes something from the main stack before it fails for the reason, and this is
what is left of it. -/
def Spends (instruction : Instruction) (flags : Flags) (error : ScriptError)
    (stack left : Stack) : Prop :=
  match instruction with
  | .pick | .roll => error = .invalidStackOperation ∧ flags.MissesDepth stack left
  | .equal demand => demand = true ∧ error = .equalVerify ∧ ∃ y x, stack = y :: x :: left
  | .numEqualVerify => error = .numEqualVerify ∧ ∃ y x, stack = y :: x :: left
  | .checkSig demand => demand = true ∧ error = .checkSigVerify ∧
      ∃ key signature, stack = key :: signature :: left
  | .checkMultiSig demand => ∃ n keys m signatures spare rest,
      stack = n :: (keys ++ m :: (signatures ++ spare :: rest)) ∧
        flags.Reads n keys.length ∧ flags.Reads m signatures.length ∧
          (demand = true ∧ error = .checkMultiSigVerify ∧ left = rest ∨
            error = .sigNullDummy ∧ left = spare :: rest)
  | _ => False

/-- Whether the instruction can take something from the main stack before it fails. -/
def isSpending : Instruction → Bool
  | .pick | .roll | .equal _ | .numEqualVerify | .checkSig _ | .checkMultiSig _ => true
  | _ => false

/-- The keys that a check of several signatures counts, if it can read their number. -/
def keysCounted (instruction : Instruction) (flags : Flags) (stack : Stack) : Nat :=
  match instruction with
  | .checkMultiSig _ => (MultiSig.readKeyCount flags stack).toOption.getD 0
  | _ => 0

/-- What a failure leaves: of the context only the count and the main stack have changed, and of the
stack only what was spent is gone. -/
structure LeavesBehind (instruction : Instruction) (flags : Flags) (before : Context)
    (counted : Nat) (error : ScriptError) (after : Context) : Prop where
  altStack : after.altStack = before.altStack
  conditionals : after.conditionals = before.conditionals
  codeStart : after.codeStart = before.codeStart
  opCount : after.opCount = before.opCount + counted
  stack : instruction.Spends flags error before.stack after.stack ∨
    after.stack = before.stack ∧ ∀ left, ¬instruction.Spends flags error before.stack left

variable {instruction : Instruction} {flags : Flags} {error : ScriptError} {ctx after : Context}
  {stack left : Stack} {counted own : Nat}

theorem not_spends (idle : instruction.isSpending = false) :
    ¬instruction.Spends flags error stack left := by
  cases instruction with
  | pick | roll | equal | numEqualVerify | checkSig | checkMultiSig => cases idle
  | _ => exact id

theorem keysCounted_of_idle (idle : instruction.isSpending = false) :
    instruction.keysCounted flags stack = 0 := by
  cases instruction with
  | checkMultiSig demand => cases idle
  | _ => rfl

theorem not_spends_checkMultiSig {demand : Bool} (notVerdict : error ≠ .checkMultiSigVerify)
    (notSpare : error ≠ .sigNullDummy) :
    ¬(checkMultiSig demand).Spends flags error stack left := by
  rintro ⟨_, _, _, _, _, _, _, _, _, ⟨_, reason, _⟩ | ⟨reason, _⟩⟩
  · exact notVerdict reason
  · exact notSpare reason

theorem not_spends_of_argument {demand : Bool} (unread : error.isArgumentReason = true) :
    ¬(checkMultiSig demand).Spends flags error stack left := by
  refine not_spends_checkMultiSig ?_ ?_
  · rintro rfl
    cases unread
  · rintro rfl
    cases unread

/-- The count of operations is compared with its limit before anything is taken. -/
theorem not_spends_opCount : ¬instruction.Spends flags .opCount stack left := by
  cases instruction with
  | pick | roll | numEqualVerify =>
    rintro ⟨reason, _⟩
    cases reason
  | equal demand | checkSig demand =>
    rintro ⟨_, reason, _⟩
    cases reason
  | checkMultiSig demand => exact not_spends_checkMultiSig nofun nofun
  | _ => exact id

theorem LeavesBehind.untouched (keeps : ∀ left, ¬instruction.Spends flags error ctx.stack left) :
    instruction.LeavesBehind flags ctx 0 error ctx :=
  ⟨rfl, rfl, rfl, rfl, Or.inr ⟨rfl, keeps⟩⟩

theorem LeavesBehind.spent (spends : instruction.Spends flags error ctx.stack left) :
    instruction.LeavesBehind flags ctx 0 error { ctx with stack := left } :=
  ⟨rfl, rfl, rfl, rfl, Or.inl spends⟩

/-- Operations that were counted before add to the count that is left. -/
theorem LeavesBehind.add
    (h : instruction.LeavesBehind flags { ctx with opCount := ctx.opCount + own } counted error
      after) :
    instruction.LeavesBehind flags ctx (own + counted) error after :=
  ⟨h.altStack, h.conditionals, h.codeStart, h.opCount.trans (Nat.add_assoc _ _ _), h.stack⟩

end Instruction

section Refusals

variable {env : Environment} {script : Script} {index : Nat} {ctx : Context}

theorem Conditionals.push_error {c : Conditionals} {taken : Bool} {error : ScriptError}
    (h : c.push taken = .error error) : error = .stackSize := by
  rw [push] at h
  split at h
  · cases h
    rfl
  · cases h

theorem Context.openIf_untouched (negated : Bool) :
    (ctx.openIf negated).Meets (fun _ => True)
      fun error after => error ≠ .stackSize → after = ctx := by
  unfold openIf
  split
  · split
    -- the condition is gone, and what can still fail is only that too many are open
    · exact meets_setConditionals (fun _ _ => trivial) fun _ full other =>
        absurd (Conditionals.push_error full) other
    · exact fun _ => rfl
  · exact meets_setConditionals (fun _ _ => trivial) fun _ _ _ => rfl

theorem Context.pushData_untouched (flags : Flags) (form : PushForm) (data : Bytes) :
    (ctx.pushData flags form data).Meets (fun _ => True) fun _ after => after = ctx := by
  unfold pushData
  split
  · rfl
  · split
    · trivial
    · split
      · rfl
      · trivial

/-- An instruction that spends nothing fails before it changes anything. -/
theorem Instruction.run_untouched {instruction : Instruction}
    (idle : instruction.isSpending = false) :
    (instruction.run env script index ctx).Meets (fun _ => True)
      fun error after => error ≠ .stackSize → after = ctx := by
  have refused (r : Except ScriptError Stack) : (Outcome.ofStack ctx r).Meets (fun _ => True)
      fun error after => error ≠ .stackSize → after = ctx :=
    Outcome.meets_ofStack (fun _ _ => trivial) fun _ _ _ => rfl
  have unbalanced (r : Except ScriptError Conditionals) :
      (ctx.setConditionals r).Meets (fun _ => True)
        fun error after => error ≠ .stackSize → after = ctx :=
    Context.meets_setConditionals (fun _ _ => trivial) fun _ _ _ => rfl
  cases instruction with
  | pick | roll | equal | numEqualVerify | checkSig | checkMultiSig => cases idle
  | shuffle op => exact refused _
  | unary op => exact refused _
  | binary op => exact refused _
  | within => exact refused _
  | openIf negated => exact Context.openIf_untouched negated
  | otherwise => exact unbalanced _
  | endIf => exact unbalanced _
  | push | versionIf | reserved | disabled | ret => exact fun _ => rfl
  | pushNumber | nop | depth | codeSeparator => trivial
  | upgradableNop =>
    unfold run
    dsimp only
    split
    · exact fun _ => rfl
    · trivial
  | toAltStack | fromAltStack | size | hash =>
    unfold run
    dsimp only
    split
    · trivial
    · exact fun _ => rfl
  | verify =>
    unfold run
    dsimp only
    split
    · split
      · trivial
      · exact fun _ => rfl
    · exact fun _ => rfl

end Refusals

section Spending

open Instruction (LeavesBehind)

variable {env : Environment} {script : Script} {index : Nat} {ctx : Context}

theorem Context.pickOrRoll_leavesBehind {instruction : Instruction}
    (addresses : instruction = .pick ∨ instruction = .roll) (flags : Flags) (move : Bool) :
    (ctx.pickOrRoll flags move).Meets (fun _ => True) (instruction.LeavesBehind flags ctx 0) := by
  have spends (error : ScriptError) (left : Stack) :
      instruction.Spends flags error ctx.stack left ↔
        error = .invalidStackOperation ∧ flags.MissesDepth ctx.stack left := by
    rcases addresses with rfl | rfl
    · exact Iff.rfl
    · exact Iff.rfl
  unfold pickOrRoll
  split
  · next x y rest stack =>
    split
    · next n read =>
      have missed (h : n.value < 0 ∨ (y :: rest).length ≤ n.value) :
          instruction.Spends flags .invalidStackOperation ctx.stack (y :: rest) :=
        (spends _ _).2 ⟨rfl, nofun, x, n, stack, read, h⟩
      dsimp only
      split
      · next depth value =>
        have value : n.value = depth := Int.mem_toNat?.1 value
        have deep (h : (y :: rest).length ≤ depth) :
            n.value < 0 ∨ (y :: rest).length ≤ n.value := by
          rw [value]
          exact Or.inr (Int.ofNat_le.2 h)
        refine Outcome.meets_ofStack (fun _ _ => trivial) fun error fails => ?_
        split at fails
        · have fails := except_map_eq_error.1 fails
          rw [Stack.remove_error fails]
          exact LeavesBehind.spent (missed (deep (Stack.length_le_of_remove_error fails)))
        · have fails := except_map_eq_error.1 fails
          rw [Stack.top_error fails]
          exact LeavesBehind.spent (missed (deep (Stack.length_le_of_top_error fails)))
      · next negative =>
        refine LeavesBehind.spent (missed (Or.inl ?_))
        by_contra nonneg
        have value : n.value = (n.value.toNat : Int) := by omega
        rw [Int.mem_toNat?.2 value] at negative
        cases negative
    · next error unread =>
      rw [Flags.readNumber_error unread]
      refine LeavesBehind.untouched fun left h => ?_
      cases ((spends _ _).1 h).1
  · next short =>
    refine LeavesBehind.untouched fun left h => ?_
    obtain ⟨_, nonempty, x, n, stack, _⟩ := (spends _ _).1 h
    cases left with
    | nil => exact nonempty rfl
    | cons y rest => exact short x y rest stack

theorem Context.checkSig_leavesBehind (demand : Bool) :
    (ctx.checkSig env script demand).Meets (fun _ => True)
      ((Instruction.checkSig demand).LeavesBehind env.flags ctx 0) := by
  unfold checkSig
  split
  · next key signature rest stack =>
    split
    · rw [Outcome.meets_asked]
      refine Outcome.meets_conclude_of_demand fun demanded => ?_
      exact LeavesBehind.spent ⟨demanded, rfl, key, signature, stack⟩
    · next error refused =>
      refine LeavesBehind.untouched ?_
      rintro left ⟨_, reason, _⟩
      rw [reason] at refused
      rcases checkEncodings_error refused with same | same | same | same
      all_goals cases same
  · refine LeavesBehind.untouched ?_
    rintro left ⟨_, reason, _⟩
    cases reason

theorem MultiSig.judge_leavesBehind {args : Arguments} {demand : Bool} {n m : Bytes}
    (stack : ctx.stack = n :: (args.keys ++ m :: (args.signatures ++ args.spare :: args.rest)))
    (hn : env.flags.Reads n args.keys.length) (hm : env.flags.Reads m args.signatures.length) :
    (judge env script demand ctx args).Meets (fun _ => True)
      ((Instruction.checkMultiSig demand).LeavesBehind env.flags ctx 0) := by
  unfold judge
  dsimp only
  split
  · rw [Outcome.meets_asked]
    unfold finish
    split
    · exact LeavesBehind.spent ⟨n, _, m, _, _, _, stack, hn, hm, Or.inr ⟨rfl, rfl⟩⟩
    · refine Outcome.meets_conclude_of_demand fun demanded => ?_
      exact LeavesBehind.spent ⟨n, _, m, _, _, _, stack, hn, hm, Or.inl ⟨demanded, rfl, rfl⟩⟩
  · next error failed =>
    rw [Outcome.meets_asked]
    obtain ⟨signature, key, refused⟩ := scan_error failed
    refine LeavesBehind.untouched fun left => ?_
    rcases checkEncodings_error refused with rfl | rfl | rfl | rfl
    all_goals exact Instruction.not_spends_checkMultiSig nofun nofun

theorem Context.checkMultiSig_leavesBehind (demand : Bool) :
    (ctx.checkMultiSig env script demand).Meets (fun _ => True)
      ((Instruction.checkMultiSig demand).LeavesBehind env.flags ctx
        ((Instruction.checkMultiSig demand).keysCounted env.flags ctx.stack)) := by
  have keys : (Instruction.checkMultiSig demand).keysCounted env.flags ctx.stack =
      (MultiSig.readKeyCount env.flags ctx.stack).toOption.getD 0 := rfl
  unfold checkMultiSig
  rw [keys]
  split
  · next keyCount counted =>
    rw [counted, ← Nat.add_zero (Option.getD _ 0)]
    by_cases within : ctx.opCount + keyCount ≤ Limits.opsPerScript
    · rw [countOps_of_le within, Outcome.ok_andThen]
      split
      · next args read =>
        obtain ⟨n, m, stack, hn, hm⟩ := MultiSig.stack_eq_of_readArguments counted read
        have judged := @MultiSig.judge_leavesBehind env script
          { ctx with opCount := ctx.opCount + keyCount } args demand n m stack hn hm
        exact judged.imp (fun _ _ => trivial) fun _ _ h => h.add
      · next error unread =>
        refine LeavesBehind.add (LeavesBehind.untouched fun left => ?_)
        exact Instruction.not_spends_of_argument (MultiSig.readArguments_error unread)
    · rw [countOps_of_lt (Nat.lt_of_not_le within), Outcome.fail_andThen]
      exact LeavesBehind.add (LeavesBehind.untouched fun left => Instruction.not_spends_opCount)
  · next error unread =>
    rw [unread]
    refine LeavesBehind.untouched fun left => ?_
    exact Instruction.not_spends_of_argument (MultiSig.readKeyCount_error unread)

/-- What a failing instruction leaves; its own count is not part of it. -/
theorem Instruction.run_leavesBehind (instruction : Instruction) :
    (instruction.run env script index ctx).Meets (fun _ => True) fun error after =>
      error ≠ .stackSize → instruction.LeavesBehind env.flags ctx
        (instruction.keysCounted env.flags ctx.stack) error after := by
  have always {counted : Nat} {o : Outcome}
      (h : o.Meets (fun _ => True) (instruction.LeavesBehind env.flags ctx counted)) :
      o.Meets (fun _ => True) fun error after =>
        error ≠ .stackSize → instruction.LeavesBehind env.flags ctx counted error after :=
    h.imp (fun _ _ => trivial) fun _ _ left _ => left
  by_cases idle : instruction.isSpending = false
  · rw [keysCounted_of_idle idle]
    refine (run_untouched idle).imp (fun _ _ => trivial) fun error after same other => ?_
    rw [same other]
    exact LeavesBehind.untouched fun left => not_spends idle
  · cases instruction with
    | pick => exact always (Context.pickOrRoll_leavesBehind (Or.inl rfl) _ _)
    | roll => exact always (Context.pickOrRoll_leavesBehind (Or.inr rfl) _ _)
    | checkSig demand => exact always (Context.checkSig_leavesBehind demand)
    | checkMultiSig demand => exact always (Context.checkMultiSig_leavesBehind demand)
    | equal demand =>
      refine always ?_
      unfold run
      dsimp only
      split
      · next y x rest stack =>
        refine Outcome.meets_conclude_of_demand fun demanded => ?_
        exact LeavesBehind.spent ⟨demanded, rfl, y, x, stack⟩
      · refine LeavesBehind.untouched ?_
        rintro left ⟨_, reason, _⟩
        cases reason
    | numEqualVerify =>
      refine always ?_
      unfold run
      dsimp only
      split
      · next a b rest read =>
        refine Outcome.meets_conclude_of_demand fun _ => ?_
        exact LeavesBehind.spent ⟨rfl, Flags.readTwo_eq_ok read⟩
      · next error unread =>
        refine LeavesBehind.untouched ?_
        rintro left ⟨reason, _⟩
        rw [reason] at unread
        cases Flags.readTwo_error unread
    | _ => exact absurd rfl idle

theorem Instruction.isSpending_of_isConditional {instruction : Instruction}
    (conditional : instruction.isConditional = true) : instruction.isSpending = false := by
  cases instruction <;> first | rfl | cases conditional

/-- What is left by what comes after the count of an operation, which may be nothing. -/
theorem Instruction.runReached_leavesBehind (instruction : Instruction) (ctx : Context) :
    (if instruction = .disabled then Outcome.fail .disabledOpcode ctx
      else if ctx.isExecuting || instruction.isConditional then
        instruction.run env script index ctx
      else .ok ctx).Meets (fun _ => True) fun error after =>
        error ≠ .stackSize → instruction.LeavesBehind env.flags ctx
          (if ctx.isExecuting = true then instruction.keysCounted env.flags ctx.stack else 0)
          error after := by
  split
  · next disabled =>
    intro _
    rw [disabled, keysCounted_of_idle rfl, ite_self]
    exact LeavesBehind.untouched fun left => not_spends rfl
  · split
    · next reached =>
      by_cases executing : ctx.isExecuting = true
      · rw [if_pos executing]
        exact run_leavesBehind instruction
      · rw [Bool.or_eq_true] at reached
        have idle := isSpending_of_isConditional (reached.resolve_left executing)
        have ran := @run_leavesBehind env script index ctx instruction
        rw [keysCounted_of_idle idle] at ran
        rw [if_neg executing]
        exact ran
    · trivial

/-- Checks count themselves, so what does not count itself counts no keys either. -/
theorem Instruction.keysCounted_ofOpcode {opcode : UInt8} {flags : Flags} {stack : Stack}
    (low : ¬0x60 < opcode) : (ofOpcode opcode).keysCounted flags stack = 0 := by
  have uncounted : (ofOpcode opcode).isCounted ≠ true := fun counted =>
    low (of_decide_eq_true (countsTowardLimit_of_isCounted counted))
  cases meaning : ofOpcode opcode with
  | checkMultiSig demand =>
    rw [meaning] at uncounted
    exact absurd rfl uncounted
  | _ => rfl

namespace Operation

/-- The keys that the operation counts after itself: those of a check that is executed, if there is
room for the check itself. -/
def keysCounted (op : Operation) (flags : Flags) (ctx : Context) : Nat :=
  if ctx.isExecuting = true ∧ ctx.opCount < Limits.opsPerScript then
    op.instruction.keysCounted flags ctx.stack
  else 0

theorem keysCounted_of_room {op : Operation} {flags : Flags}
    (room : ctx.opCount < Limits.opsPerScript) :
    op.keysCounted flags ctx =
      if ctx.isExecuting = true then op.instruction.keysCounted flags ctx.stack else 0 := by
  simp only [keysCounted, room, and_true]

theorem keysCounted_of_full {op : Operation} {flags : Flags}
    (full : ¬ctx.opCount < Limits.opsPerScript) : op.keysCounted flags ctx = 0 :=
  if_neg fun room => full room.2

theorem run_code_leavesBehind (opcode : UInt8) :
    ((code opcode).run env script index ctx).Meets (fun _ => True) fun error after =>
      error ≠ .stackSize → (Instruction.ofOpcode opcode).LeavesBehind env.flags ctx
        ((if 0x60 < opcode then 1 else 0) + (code opcode).keysCounted env.flags ctx)
        error after := by
  have reached := @Instruction.runReached_leavesBehind env script index
    (Instruction.ofOpcode opcode)
  unfold run count
  dsimp only
  by_cases counts : 0x60 < opcode
  · have counted : (code opcode).countsTowardLimit = true := decide_eq_true counts
    rw [if_pos counted, if_pos counts]
    by_cases room : ctx.opCount < Limits.opsPerScript
    · rw [Context.countOps_of_le room, Outcome.ok_andThen, keysCounted_of_room room]
      exact (reached { ctx with opCount := ctx.opCount + 1 }).imp (fun _ _ => trivial)
        fun _ _ left other => (left other).add
    · have full : Limits.opsPerScript < ctx.opCount + 1 :=
        Nat.lt_succ_of_le (Nat.le_of_not_lt room)
      rw [Context.countOps_of_lt full, Outcome.fail_andThen, keysCounted_of_full room]
      intro _
      exact LeavesBehind.add (LeavesBehind.untouched fun left => Instruction.not_spends_opCount)
  · have uncounted : ¬(code opcode).countsTowardLimit = true := fun counted =>
      counts (of_decide_eq_true counted)
    have unread : (code opcode).instruction.keysCounted env.flags ctx.stack = 0 :=
      Instruction.keysCounted_ofOpcode counts
    have noKeys : (code opcode).keysCounted env.flags ctx = 0 := by
      unfold keysCounted
      rw [unread, ite_self]
    have ran := reached ctx
    rw [Instruction.keysCounted_ofOpcode counts, ite_self] at ran
    rw [if_neg uncounted, if_neg counts, Outcome.ok_andThen, noKeys]
    exact ran

/-- What a failing operation leaves before the depth is looked at. -/
theorem run_leavesBehind {op : Operation} (wellFormed : op.WellFormed) :
    (op.run env script index ctx).Meets (fun _ => True) fun error after =>
      error ≠ .stackSize → op.instruction.LeavesBehind env.flags ctx
        ((if 0x60 < op.opcode then 1 else 0) + op.keysCounted env.flags ctx) error after := by
  cases op with
  | push form data =>
    have low : ¬0x60 < (push form data).opcode :=
      UInt8.not_lt.2 (UInt8.le_trans (opcode_push_le wellFormed) (by decide))
    have noKeys : (push form data).keysCounted env.flags ctx = 0 := ite_self 0
    rw [if_neg low, noKeys]
    have untouched := @Context.pushData_untouched ctx env.flags form data
    refine untouched.imp (fun _ _ => trivial) fun error after same _ => ?_
    rw [same]
    exact LeavesBehind.untouched fun left => Instruction.not_spends rfl
  | code opcode => exact run_code_leavesBehind opcode

theorem step_leavesBehind {op : Operation} (wellFormed : op.WellFormed) :
    (op.step env script index ctx).Meets (fun _ => True) fun error after =>
      error ≠ .stackSize → op.instruction.LeavesBehind env.flags ctx
        ((if 0x60 < op.opcode then 1 else 0) + op.keysCounted env.flags ctx) error after := by
  refine (run_leavesBehind wellFormed).andThen fun ctx _ => ?_
  unfold Context.checkDepth
  split
  · exact fun deep => absurd rfl deep
  · trivial

/-- What a failing operation leaves, unless it fails for the depth of the stacks: it has counted
itself and the keys whose number it has read, and it has taken from the main stack what is listed
for its reason to fail, and nothing if nothing is listed. -/
theorem step_failed {op : Operation} (wellFormed : op.WellFormed) {error : ScriptError}
    (fails : (op.step env script index ctx).result = .error error) (other : error ≠ .stackSize) :
    let after := (op.step env script index ctx).context
    after.altStack = ctx.altStack ∧ after.conditionals = ctx.conditionals ∧
      after.codeStart = ctx.codeStart ∧
      after.opCount =
        ctx.opCount + (if 0x60 < op.opcode then 1 else 0) + op.keysCounted env.flags ctx ∧
      (op.instruction.Spends env.flags error ctx.stack after.stack ∨
        after.stack = ctx.stack ∧
          ∀ left, ¬op.instruction.Spends env.flags error ctx.stack left) := by
  intro after
  have left : op.instruction.LeavesBehind env.flags ctx
      ((if 0x60 < op.opcode then 1 else 0) + op.keysCounted env.flags ctx) error after :=
    (step_leavesBehind wellFormed).of_error fails other
  exact ⟨left.altStack, left.conditionals, left.codeStart,
    left.opCount.trans (Nat.add_assoc _ _ _).symm, left.stack⟩

/-- A check that needs no signature has counted itself and its key when it finds that the spare
element is not empty. -/
theorem step_failed_spare :
    let ctx : Context := { stack := [[1], [5], [], [7], [9]], altStack := [[3]] }
    let o := (code 0xae).step { flags := { nullDummy := true } } [] 0 ctx
    o.result = .error .sigNullDummy ∧ o.context.stack = [[7], [9]] ∧
      o.context.altStack = [[3]] ∧ o.context.opCount = 2 := by
  intro ctx o
  have wellFormed : (code 0xae).WellFormed := by decide
  have fails : o.result = .error .sigNullDummy := by decide +kernel
  have stack : o.context.stack = [[7], [9]] := by decide +kernel
  have keys : (code 0xae).keysCounted { nullDummy := true } ctx = 1 := by decide +kernel
  obtain ⟨altStack, _, _, count, _⟩ := step_failed wellFormed fails nofun
  rw [keys] at count
  exact ⟨fails, stack, altStack, count⟩

end Operation

end Spending

end SpendScript
