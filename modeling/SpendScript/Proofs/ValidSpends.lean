import SpendScript.Proofs.Serialization
import SpendScript.Spend.Verify

/-!
# Valid spends as chained runs

A report is assembled from stages that each may end it. The lemmas below take a report apart
stage by stage, so that a valid verdict becomes a chain of runs: the unlocking script on an empty
stack, the locking script on what it leaves and, behind a script hash, the script taken off that
stack on what is below it. Events and questions play no part in the verdict.
-/
set_option autoImplicit false

namespace SpendScript

theorem Script.isPushOnlyBytes_of_decode {bs : Bytes} {script : Script}
    (decoded : decode bs = .ok script) : isPushOnlyBytes bs = script.isPushOnly := by
  unfold isPushOnlyBytes
  rw [decoded]

/-- In a fresh context on `stack` the script succeeds, and `left` is the stack it leaves. -/
def Script.Leaves (script : Script) (env : Environment) (stack left : Stack) : Prop :=
  (script.execute env (.start stack)).result = .ok () ∧
    (script.execute env (.start stack)).context.stack = left

namespace Report

@[simp] theorem failed_verdict (stage : Stage) (error : ScriptError) :
    (failed stage error).verdict = .refused error := rfl

@[simp] theorem after_verdict (event : Event) (r : Report) : (r.after event).verdict = r.verdict :=
  rfl

@[simp] theorem asked_verdict (queries : List SignatureQuery) (r : Report) :
    (r.asked queries).verdict = r.verdict := rfl

@[simp] theorem failed_events (stage : Stage) (error : ScriptError) :
    (failed stage error).events = [.failed stage error] := rfl

@[simp] theorem after_events (event : Event) (r : Report) :
    (r.after event).events = event :: r.events := rfl

@[simp] theorem asked_events (queries : List SignatureQuery) (r : Report) :
    (r.asked queries).events = r.events := rfl

theorem bind_valid_iff {α : Type} {stage : Stage} {value : Except ScriptError α}
    {next : α → Report} :
    (bind stage value next).verdict.valid = true ↔
      ∃ a, value = .ok a ∧ (next a).verdict.valid = true := by
  cases value with
  | ok a => simp [bind]
  | error error => simp [bind, Verdict.refused]

theorem running_valid_iff {env : Environment} {stage : Stage} {script : Script} {stack : Stack}
    {next : Stack → Report} :
    (running env stage script stack next).verdict.valid = true ↔
      ∃ left, script.Leaves env stack left ∧ (next left).verdict.valid = true := by
  unfold running
  rw [asked_verdict, bind_valid_iff]
  constructor
  · rintro ⟨⟨⟩, succeeds, valid⟩
    exact ⟨_, ⟨succeeds, rfl⟩, valid⟩
  · rintro ⟨left, ⟨succeeds, rfl⟩, valid⟩
    exact ⟨(), succeeds, valid⟩

/-- An event of a stage that goes on with a value is its own failure or comes later. -/
theorem mem_bind_events {α : Type} {stage : Stage} {value : Except ScriptError α}
    {next : α → Report} {event : Event} :
    event ∈ (bind stage value next).events ↔
      (∃ error, value = .error error ∧ event = .failed stage error) ∨
        ∃ a, value = .ok a ∧ event ∈ (next a).events := by
  cases value with
  | ok a => simp [bind]
  | error error => simp [bind]

theorem mem_running_events {env : Environment} {stage : Stage} {script : Script} {stack : Stack}
    {next : Stack → Report} {event : Event} :
    event ∈ (running env stage script stack next).events ↔
      (∃ error, (script.execute env (.start stack)).result = .error error ∧
          event = .failed stage error) ∨
        ∃ left, script.Leaves env stack left ∧ event ∈ (next left).events := by
  unfold running
  rw [asked_events, mem_bind_events]
  constructor
  · rintro (failure | ⟨⟨⟩, succeeds, later⟩)
    · exact Or.inl failure
    · exact Or.inr ⟨_, ⟨succeeds, rfl⟩, later⟩
  · rintro (failure | ⟨left, ⟨succeeds, rfl⟩, later⟩)
    · exact Or.inl failure
    · exact Or.inr ⟨(), succeeds, later⟩

end Report

namespace Spend

theorem demandTrue_eq_ok {stack : Stack} {u : Unit} :
    demandTrue stack = .ok u ↔ stack.topIsTrue = some true := by
  unfold demandTrue
  split <;> simp_all

/-- The last check refuses only a stack that is not clean where a clean one is demanded. -/
def Clean (flags : Flags) (stack : Stack) : Prop :=
  flags.cleanStack = true → stack.length = 1

theorem postCheck_valid_iff {env : Environment} {stack : Stack} :
    (postCheck env stack).verdict.valid = true ↔ Clean env.flags stack := by
  unfold postCheck Clean
  rw [Report.after_verdict]
  split
  · next dirty =>
    simp only [Bool.and_eq_true, bne_iff_ne] at dirty
    simp [Verdict.refused, dirty.1, dirty.2]
  · next clean =>
    simp only [Bool.and_eq_true, bne_iff_ne, not_and, Decidable.not_not] at clean
    exact iff_of_true rfl clean

/-- The script on top of `unlocked` decodes, succeeds on the elements below it, and leaves a true
element and a clean stack. -/
def Redeems (env : Environment) (unlocked : Stack) : Prop :=
  ∃ serialized rest script left, unlocked = serialized :: rest ∧
    Script.decode serialized = .ok script ∧ script.Leaves env rest left ∧
    left.topIsTrue = some true ∧ Clean env.flags left

theorem redeem_valid_iff {env : Environment} {unlocking : Script} {unlocked : Stack} :
    (redeem env unlocking unlocked).verdict.valid = true ↔
      unlocking.isPushOnly = true ∧ Redeems env unlocked := by
  unfold redeem Redeems
  rw [Report.after_verdict]
  cases hpush : unlocking.isPushOnly with
  | false => simp [Verdict.refused]
  | true =>
    cases unlocked with
    | nil => simp [Verdict.refused]
    | cons serialized rest =>
      simp only [Bool.not_true, Bool.false_eq_true, ↓reduceIte, true_and, Report.bind_valid_iff,
        Report.running_valid_iff, demandTrue_eq_ok, postCheck_valid_iff]
      constructor
      · rintro ⟨script, decoded, left, leaves, ⟨⟩, top, clean⟩
        exact ⟨serialized, rest, script, left, rfl, decoded, leaves, top, clean⟩
      · rintro ⟨_, _, script, left, ⟨⟩, decoded, leaves, top, clean⟩
        exact ⟨script, decoded, left, leaves, (), top, clean⟩

/-- Whether the flags ask for the script behind a hash, and the locking script has one. -/
def resolvesHash (flags : Flags) (locking : Bytes) : Bool :=
  flags.p2sh && Script.isScriptHashTemplate locking

theorem afterLocking_valid_iff {env : Environment} {locking : Bytes} {unlocking : Script}
    {unlocked left : Stack} :
    (afterLocking env locking unlocking unlocked left).verdict.valid = true ↔
      if resolvesHash env.flags locking then unlocking.isPushOnly = true ∧ Redeems env unlocked
      else Clean env.flags left := by
  have hash : (env.flags.p2sh && Script.isScriptHashTemplate locking) =
      resolvesHash env.flags locking := rfl
  unfold afterLocking
  rw [Report.after_verdict, hash]
  split
  · exact redeem_valid_iff
  · exact postCheck_valid_iff

/-- The locking script decodes and succeeds on `unlocked`, and what it leaves has a true top. -/
def Locks (env : Environment) (locking : Bytes) (unlocked left : Stack) : Prop :=
  ∃ script, Script.decode locking = .ok script ∧ script.Leaves env unlocked left ∧
    left.topIsTrue = some true

/-- A spend is valid exactly if its scripts succeed one on the stack of the other. -/
theorem verify_valid_iff {env : Environment} {locking unlocking : Bytes} :
    (verify env locking unlocking).verdict.valid = true ↔
      (env.flags.sigPushOnly = true → Script.isPushOnlyBytes unlocking = true) ∧
      ∃ script unlocked left, Script.decode unlocking = .ok script ∧
        script.Leaves env [] unlocked ∧ Locks env locking unlocked left ∧
        if resolvesHash env.flags locking then script.isPushOnly = true ∧ Redeems env unlocked
        else Clean env.flags left := by
  unfold verify
  by_cases refused : (env.flags.sigPushOnly && !Script.isPushOnlyBytes unlocking) = true
  · rw [if_pos refused]
    simp only [Bool.and_eq_true, Bool.not_eq_true'] at refused
    simp [Verdict.refused, refused.1, refused.2]
  · rw [if_neg refused]
    simp only [Bool.and_eq_true, Bool.not_eq_true', not_and, Bool.not_eq_false] at refused
    simp only [Report.after_verdict, Report.bind_valid_iff, Report.running_valid_iff, lock,
      demandTrue_eq_ok, afterLocking_valid_iff]
    constructor
    · rintro ⟨script, decoded, unlocked, leaves, locks, hlocks, left, run, ⟨⟩, top, rest⟩
      exact ⟨refused, script, unlocked, left, decoded, leaves, ⟨locks, hlocks, run, top⟩, rest⟩
    · rintro ⟨_, script, unlocked, left, decoded, leaves, ⟨locks, hlocks, run, top⟩, rest⟩
      exact ⟨script, decoded, unlocked, leaves, locks, hlocks, left, run, (), top, rest⟩

end Spend
end SpendScript
