import SpendScript.Machine.Conditionals
import SpendScript.Proofs.Frames

/-!
# Conditionals above others

Conditionals are opened, turned and closed at the top, so those that were open before stay below
and keep what they are. What operations do to the number of conditionals above them is settled by
their instructions, and a list of operations with matched conditionals comes back to none.
-/
set_option autoImplicit false

namespace SpendScript

namespace Conditionals

/-- Further conditionals that are opened above those that are open, the innermost first. -/
def nest (c : Conditionals) (inner : List Bool) : Conditionals where
  branches := inner ++ c.branches
  skipped := inner.count false + c.skipped

variable {c : Conditionals} {inner : List Bool} {taken : Bool}

theorem nest_nil : c.nest [] = c := by
  have skipped : ([] : List Bool).count false + c.skipped = c.skipped := Nat.zero_add _
  unfold nest
  rw [skipped, List.nil_append]

theorem skipped_nest_cons :
    (c.nest (taken :: inner)).skipped =
      if taken then (c.nest inner).skipped else (c.nest inner).skipped + 1 := by
  show (taken :: inner).count false + c.skipped = _
  cases taken with
  | true => rw [List.count_cons_of_ne (by decide), if_pos rfl, nest]
  | false => rw [List.count_cons_self, if_neg Bool.false_ne_true, nest, Nat.add_right_comm]

theorem push_nest (room : inner.length + c.branches.length < Limits.stackSize) :
    (c.nest inner).push taken = .ok (c.nest (taken :: inner)) := by
  have fits : ¬Limits.stackSize ≤ (c.nest inner).branches.length := by
    show ¬Limits.stackSize ≤ (inner ++ c.branches).length
    rw [List.length_append]
    omega
  unfold push
  rw [if_neg fits, ← skipped_nest_cons]
  rfl

theorem push_eq_nest (room : c.branches.length < Limits.stackSize) :
    c.push taken = .ok (c.nest [taken]) := by
  have none : ([] : List Bool).length + c.branches.length < Limits.stackSize := by
    rwa [List.length_nil, Nat.zero_add]
  have pushed : (c.nest []).push taken = .ok (c.nest [taken]) := push_nest none
  rwa [nest_nil] at pushed

theorem toggle_nest : (c.nest (taken :: inner)).toggle = .ok (c.nest ((!taken) :: inner)) := by
  have turned : (if taken then (c.nest (taken :: inner)).skipped + 1
      else (c.nest (taken :: inner)).skipped - 1) = (c.nest ((!taken) :: inner)).skipped := by
    rw [skipped_nest_cons, skipped_nest_cons]
    cases taken <;> rfl
  show Except.ok (Conditionals.mk ((!taken) :: (inner ++ c.branches)) _) = _
  rw [turned]
  rfl

theorem pop_nest : (c.nest (taken :: inner)).pop = .ok (c.nest inner) := by
  show Except.ok (Conditionals.mk (inner ++ c.branches) _) = _
  rw [skipped_nest_cons]
  cases taken <;> rfl

/-- Above conditionals that are all taken, it is up to the inner branches what is executed. -/
theorem allTaken_nest (executing : c.allTaken = true) :
    (c.nest inner).allTaken = inner.all id := by
  have none : c.skipped = 0 := eq_of_beq executing
  induction inner with
  | nil => rw [nest_nil, executing, List.all_nil]
  | cons taken inner ih =>
    unfold Conditionals.allTaken at ih ⊢
    rw [skipped_nest_cons, List.all_cons]
    cases taken with
    | true => exact ih
    | false => rfl

theorem allTaken_nest_concat (executing : c.allTaken = true) :
    (c.nest (inner ++ [taken])).allTaken = (inner.all id && taken) := by
  rw [allTaken_nest executing, List.all_append, List.all_cons, List.all_nil, Bool.and_true]
  rfl

end Conditionals

/-- How an instruction changes the number of conditionals that are open. What is not open can
neither be turned nor closed. -/
inductive Instruction.Shifts : Instruction → Nat → Nat → Prop where
  | opens (negated : Bool) (depth : Nat) : Shifts (.openIf negated) depth (depth + 1)
  | turns (depth : Nat) : Shifts .otherwise (depth + 1) (depth + 1)
  | closes (depth : Nat) : Shifts .endIf (depth + 1) depth
  | straight {instruction : Instruction} (depth : Nat)
      (h : instruction.isBranching = false) : Shifts instruction depth depth

theorem Script.isNestedFrom_cons {op : Operation} {ops : List Operation} {depth : Nat}
    (nested : isNestedFrom depth (op :: ops) = true) :
    ∃ depth', op.instruction.Shifts depth depth' ∧ isNestedFrom depth' ops = true := by
  unfold isNestedFrom at nested
  cases instruction : op.instruction with
  | openIf negated =>
    rw [instruction] at nested
    exact ⟨depth + 1, .opens negated depth, nested⟩
  | otherwise =>
    rw [instruction] at nested
    cases depth with
    | zero => cases nested
    | succ depth => exact ⟨depth + 1, .turns depth, nested⟩
  | endIf =>
    rw [instruction] at nested
    cases depth with
    | zero => cases nested
    | succ depth => exact ⟨depth, .closes depth, nested⟩
  | _ =>
    rw [instruction] at nested
    exact ⟨depth, .straight depth rfl, nested⟩

/-- The converse: an operation that moves the conditionals may be put in front. -/
theorem Script.isNestedFrom_of_shifts {op : Operation} {ops : List Operation} {depth depth' : Nat}
    (shifts : op.instruction.Shifts depth depth') (nested : isNestedFrom depth' ops = true) :
    isNestedFrom depth (op :: ops) = true := by
  unfold isNestedFrom
  generalize op.instruction = instruction at shifts
  cases shifts with
  | opens negated => exact nested
  | turns => exact nested
  | closes => exact nested
  | straight _ straight =>
    cases instruction with
    | openIf negated => cases straight
    | otherwise => cases straight
    | endIf => cases straight
    | _ => exact nested

end SpendScript
