import Mathlib.Control.Monad.Basic
import SpendScript.Proofs.ValidSpends

/-!
# Scripts are run apart

The later scripts of a verification learn two things from the unlocking script: the stack that it
left, and whether it only pushes. Everything else that its run has built up, the alternative stack,
the counted operations, the open conditionals and the place from which on signatures commit, ends
with it. Two unlocking scripts that agree in both cannot be told apart by what follows, which fails
or succeeds in the same stage, for the same reason and with the same questions.
-/
set_option autoImplicit false

namespace SpendScript

/-- A stage whose script succeeds hands on the stack it leaves, and asks what its script asks. -/
theorem Report.running_of_leaves {env : Environment} {stage : Stage} {script : Script}
    {stack left : Stack} {next : Stack → Report} (leaves : script.Leaves env stack left) :
    running env stage script stack next =
      (next left).asked (script.execute env (.start stack)).queries := by
  obtain ⟨succeeds, rfl⟩ := leaves
  rw [running, succeeds]
  rfl

namespace Spend

variable {env : Environment} {locking : Bytes}

section Later

variable {script script' : Script}

theorem redeem_congr (alike : script.isPushOnly = script'.isPushOnly) (unlocked : Stack) :
    redeem env script unlocked = redeem env script' unlocked := by
  simp only [redeem, alike]

theorem afterLocking_congr (alike : script.isPushOnly = script'.isPushOnly)
    (unlocked left : Stack) :
    afterLocking env locking script unlocked left =
      afterLocking env locking script' unlocked left := by
  rw [afterLocking, afterLocking, redeem_congr alike]

/-- All that follows the unlocking script depends on it through one answer and one stack only. -/
theorem lock_congr (alike : script.isPushOnly = script'.isPushOnly) (unlocked : Stack) :
    lock env locking script unlocked = lock env locking script' unlocked := by
  have next : afterLocking env locking script unlocked =
      afterLocking env locking script' unlocked :=
    funext fun left => afterLocking_congr alike unlocked left
  rw [lock, lock, next]

end Later

/-- Whether the flags let an unlocking script start at all. -/
def Starts (flags : Flags) (unlocking : Script) : Prop :=
  flags.sigPushOnly = true → unlocking.isPushOnly = true

section Unlocking

variable {unlocking : Bytes} {script : Script} {unlocked : Stack}

theorem verify_of_not_starts (decoded : Script.decode unlocking = .ok script)
    (refused : ¬Starts env.flags script) :
    verify env locking unlocking = .failed .start .sigPushOnly := by
  obtain ⟨demanded, other⟩ := Classical.not_imp.1 refused
  rw [verify, Script.isPushOnlyBytes_of_decode decoded, demanded, Bool.eq_false_iff.2 other]
  rfl

/-- A verification whose unlocking script succeeds goes on with the stack that this has left. -/
theorem verify_of_leaves (decoded : Script.decode unlocking = .ok script)
    (starts : Starts env.flags script) (leaves : script.Leaves env [] unlocked) :
    verify env locking unlocking = .after (.entered .start .unlocking)
      ((lock env locking script unlocked).asked (script.execute env (.start [])).queries) := by
  have allowed : ¬(env.flags.sigPushOnly && !Script.isPushOnlyBytes unlocking) = true := by
    rw [Script.isPushOnlyBytes_of_decode decoded]
    intro refused
    obtain ⟨demanded, other⟩ := Bool.and_eq_true_iff.1 refused
    rw [starts demanded] at other
    cases other
  rw [verify, if_neg allowed, decoded, Report.bind, Report.running_of_leaves leaves]

end Unlocking

/-- Two unlocking scripts that both succeed on the empty stack and leave the same one, and that both
only push or both do not, have the same verdict, reached through the same events. Unless they are
refused at the start, the same questions follow on those that each of them has asked itself. -/
theorem verify_alike_of_leaves {unlocking unlocking' : Bytes} {script script' : Script}
    {unlocked : Stack} (decoded : Script.decode unlocking = .ok script)
    (decoded' : Script.decode unlocking' = .ok script') (leaves : script.Leaves env [] unlocked)
    (leaves' : script'.Leaves env [] unlocked) (alike : script.isPushOnly = script'.isPushOnly) :
    (verify env locking unlocking).verdict = (verify env locking unlocking').verdict ∧
      (verify env locking unlocking).events = (verify env locking unlocking').events ∧
      (Starts env.flags script → ∃ later,
        (verify env locking unlocking).queries =
            (script.execute env (.start [])).queries ++ later ∧
          (verify env locking unlocking').queries =
            (script'.execute env (.start [])).queries ++ later) := by
  have starts_iff : Starts env.flags script ↔ Starts env.flags script' := by
    rw [Starts, Starts, alike]
  by_cases starts : Starts env.flags script
  · rw [verify_of_leaves decoded starts leaves,
      verify_of_leaves decoded' (starts_iff.1 starts) leaves', lock_congr alike]
    refine ⟨?_, ?_, fun _ => ⟨(lock env locking script' unlocked).queries, rfl, rfl⟩⟩
    · simp only [Report.after_verdict, Report.asked_verdict]
    · simp only [Report.after_events, Report.asked_events]
  · rw [verify_of_not_starts decoded starts,
      verify_of_not_starts decoded' fun starts' => starts (starts_iff.2 starts')]
    exact ⟨rfl, rfl, fun starts' => absurd starts' starts⟩

/-- Both unlocking scripts leave a one. The first has moved the place from which on signatures
commit; the second leaves an element on the alternative stack too, and the locking script that
demands one does not find it. -/
theorem verify_alike_of_leaves_one :
    let script : Script := [.code 0x51, .code 0xab]
    let script' : Script := [.code 0x51, .code 0x51, .code 0x6b]
    let context := (script.execute {} (.start [])).context
    let context' := (script'.execute {} (.start [])).context
    script.Leaves {} [] [[1]] ∧ script'.Leaves {} [] [[1]] ∧
      script.isPushOnly = script'.isPushOnly ∧
      context.codeStart ≠ context'.codeStart ∧ context.altStack ≠ context'.altStack ∧
      (verify {} [0x6c] [0x51, 0xab]).verdict = (verify {} [0x6c] [0x51, 0x51, 0x6b]).verdict ∧
      (verify {} [0x6c] [0x51, 0x51, 0x6b]).verdict = .refused .invalidAltstackOperation := by
  intro script script' context context'
  have decoded : Script.decode [0x51, 0xab] = .ok script :=
    @Script.decode_encode script (by decide) (by decide)
  have decoded' : Script.decode [0x51, 0x51, 0x6b] = .ok script' :=
    @Script.decode_encode script' (by decide) (by decide)
  have leaves : script.Leaves {} [] [[1]] := ⟨by decide +kernel, by decide +kernel⟩
  have leaves' : script'.Leaves {} [] [[1]] := ⟨by decide +kernel, by decide +kernel⟩
  have alike : script.isPushOnly = script'.isPushOnly := by decide
  have same : (verify {} [0x6c] [0x51, 0xab]).verdict =
      (verify {} [0x6c] [0x51, 0x51, 0x6b]).verdict :=
    (verify_alike_of_leaves decoded decoded' leaves leaves' alike).1
  exact ⟨leaves, leaves', alike, by decide +kernel, by decide +kernel, same, by decide +kernel⟩

end Spend
end SpendScript
