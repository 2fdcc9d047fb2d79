import Mathlib.Data.List.Rotate
import SpendScript.Proofs.ExactArithmetic
import SpendScript.Proofs.ShortestPushes
import SpendScript.Proofs.StackEffects

/-!
# Shuffles as picks and rolls

Two opcodes reach any depth of the stack: one copies the element there to the top, the other moves it.
The depth is itself an element, which is pushed first and gone when the stack is looked at. With it
most shuffles can be spelled out, and the two spellings cannot be told apart by the stacks they leave
or the stacks they fail on. A program of such words is followed on the stack alone; that it finds room
for the depths it pushes is a bound on how far the stacks grow in between.
-/
set_option autoImplicit false

namespace SpendScript

namespace Shuffle

/-- The opcode that asks for the shuffle. -/
def opcode : Shuffle → UInt8
  | .twoDrop => 0x6d
  | .twoDup => 0x6e
  | .threeDup => 0x6f
  | .twoOver => 0x70
  | .twoRot => 0x71
  | .twoSwap => 0x72
  | .ifDup => 0x73
  | .drop => 0x75
  | .dup => 0x76
  | .nip => 0x77
  | .over => 0x78
  | .rot => 0x7b
  | .swap => 0x7c
  | .tuck => 0x7d

theorem ofOpcode_opcode (op : Shuffle) : Instruction.ofOpcode op.opcode = .shuffle op := by
  cases op <;> rfl

/-- The elements that the shuffle looks at. -/
def arity : Shuffle → Nat
  | .drop | .dup | .ifDup => 1
  | .twoDrop | .twoDup | .over | .swap | .nip | .tuck => 2
  | .threeDup | .rot => 3
  | .twoOver | .twoSwap => 4
  | .twoRot => 6

theorem apply_eq_error_iff {op : Shuffle} {stack : Stack} :
    op.apply stack = .error .invalidStackOperation ↔ stack.length < op.arity := by
  rcases stack with _ | ⟨a, _ | ⟨b, _ | ⟨c, _ | ⟨d, _ | ⟨e, _ | ⟨f, below⟩⟩⟩⟩⟩⟩ <;>
    cases op <;> simp [apply, arity]

end Shuffle

namespace Stack

/-- The stack with the element at a depth moved or copied to the top. -/
def reach (move : Bool) (depth : Nat) (stack : Stack) : Except ScriptError Stack :=
  match stack[depth]? with
  | some x => .ok (x :: if move then stack.eraseIdx depth else stack)
  | none => .error .invalidStackOperation

variable {above below stack result : Stack} {x : Bytes} {move : Bool} {depth : Nat}

theorem reach_eq_ok_iff :
    stack.reach move depth = .ok result ↔
      ∃ x, stack[depth]? = some x ∧ result = x :: if move then stack.eraseIdx depth else stack := by
  rw [reach]
  constructor
  · intro h
    split at h
    · next x found =>
      cases h
      exact ⟨x, found, rfl⟩
    · cases h
  · rintro ⟨x, found, rfl⟩
    rw [found]

theorem reach_append :
    (above ++ x :: below).reach move above.length =
      .ok (x :: if move then above ++ below else above ++ x :: below) := by
  refine reach_eq_ok_iff.2 ⟨x, ?_, ?_⟩
  · rw [List.getElem?_append_right (Nat.le_refl _), Nat.sub_self]
    rfl
  · rw [List.eraseIdx_append_of_length_le (Nat.le_refl _), Nat.sub_self]
    rfl

theorem length_reach (h : stack.reach move depth = .ok result) :
    result.length = stack.length + if move then 0 else 1 := by
  obtain ⟨x, found, rfl⟩ := reach_eq_ok_iff.1 h
  obtain ⟨inside, _⟩ := List.getElem?_eq_some_iff.1 found
  cases move with
  | false => rfl
  | true =>
    have erased : (stack.eraseIdx depth).length = stack.length - 1 :=
      List.length_eraseIdx_of_lt inside
    show (stack.eraseIdx depth).length + 1 = stack.length
    omega

end Stack

/-- A rearrangement as scripts spell it: an opcode of its own, or a depth and the opcode that moves the
element there to the top or copies it. -/
inductive Rearrangement where
  | shuffle (op : Shuffle)
  | reach (move : Bool) (depth : Nat)

namespace Rearrangement

/-- Copies the element at a depth. -/
def pick (depth : Nat) : Rearrangement :=
  .reach false depth

/-- Moves the element at a depth. -/
def roll (depth : Nat) : Rearrangement :=
  .reach true depth

def operations : Rearrangement → List Operation
  | .shuffle op => [.code op.opcode]
  | .reach move depth =>
    [.minimalPush (SignMagnitude.encode depth), .code (if move then 0x7a else 0x79)]

def apply : Rearrangement → Stack → Except ScriptError Stack
  | .shuffle op => op.apply
  | .reach move depth => Stack.reach move depth

/-- What the words do one after the other. -/
def applyAll (words : List Rearrangement) (stack : Stack) : Except ScriptError Stack :=
  words.foldlM (fun stack word => word.apply stack) stack

/-- How many elements the word adds at most. -/
def growth : Rearrangement → Nat
  | .shuffle op => op.growth
  | .reach move _ => if move then 0 else 1

/-- The elements that the word pushes for its own use. -/
def overhead : Rearrangement → Nat
  | .shuffle _ => 0
  | .reach _ _ => 1

/-- How many elements more than before the first of the words there have to be room for, so that the
last of them is reached and finds its depth. -/
def room : List Rearrangement → Nat
  | [] => 0
  | [word] => word.overhead
  | word :: words => Nat.max word.overhead (word.growth + room words)

/-- The depth that the word names can be reached on a stack within the limit. -/
def Reachable : Rearrangement → Prop
  | .shuffle _ => True
  | .reach _ depth => depth < Limits.stackSize

end Rearrangement

/-- Words that do what the shuffle does, where it can be said by depths alone. -/
def Shuffle.expansion : Shuffle → Option (List Rearrangement)
  | .dup => some [.pick 0]
  | .over => some [.pick 1]
  | .swap => some [.roll 1]
  | .rot => some [.roll 2]
  | .twoDup => some [.shuffle .over, .shuffle .over]
  | .nip => some [.shuffle .swap, .shuffle .drop]
  | .tuck => some [.shuffle .swap, .shuffle .over]
  | .twoSwap => some [.roll 3, .roll 3]
  | .twoRot => some [.roll 5, .roll 5]
  | .threeDup => some [.pick 2, .pick 2, .pick 2]
  | .twoOver => some [.pick 3, .pick 3]
  | .drop | .twoDrop | .ifDup => none

namespace Rearrangement

theorem applyAll_expansion {op : Shuffle} {words : List Rearrangement}
    (expands : op.expansion = some words) (stack : Stack) :
    applyAll words stack = op.apply stack := by
  rcases stack with _ | ⟨a, _ | ⟨b, _ | ⟨c, _ | ⟨d, _ | ⟨e, _ | ⟨f, below⟩⟩⟩⟩⟩⟩ <;>
    cases op <;> cases expands <;> rfl

theorem reachable_expansion {op : Shuffle} {words : List Rearrangement}
    (expands : op.expansion = some words) : ∀ word ∈ words, word.Reachable := by
  cases op <;> cases expands <;> simp [Reachable, pick, roll, Limits.stackSize]

theorem length_expansion_pos {op : Shuffle} {words : List Rearrangement}
    (expands : op.expansion = some words) : 1 ≤ words.length := by
  cases op <;> cases expands <;> decide

/-- Copies of several elements need the most room. -/
theorem room_expansion {op : Shuffle} {words : List Rearrangement}
    (expands : op.expansion = some words) :
    room words ≤ if op = .threeDup then 3 else if op = .twoOver then 2 else 1 := by
  cases op <;> cases expands <;> decide

theorem overhead_le_room (word : Rearrangement) (words : List Rearrangement) :
    word.overhead ≤ room (word :: words) := by
  cases words with
  | nil => exact Nat.le_refl _
  | cons next words => exact Nat.le_max_left _ _

theorem growth_add_room_le (word next : Rearrangement) (words : List Rearrangement) :
    word.growth + room (next :: words) ≤ room (word :: next :: words) :=
  Nat.le_max_right _ _

theorem apply_length_le {word : Rearrangement} {stack result : Stack}
    (h : word.apply stack = .ok result) : result.length ≤ stack.length + word.growth := by
  cases word with
  | shuffle op => exact Shuffle.apply_length_le h
  | reach move depth => exact Nat.le_of_eq (Stack.length_reach h)

end Rearrangement

namespace Outcome

/-- The main stack has been replaced as told, with `count` operations more on the count, unless the new
one is too deep. -/
def Follows (o : Outcome) (ctx : Context) (count : Nat) (told : Except ScriptError Stack) : Prop :=
  match told with
  | .ok stack =>
    if stack.length + ctx.altStack.length ≤ Limits.stackSize then
      o = .ok { ctx with stack := stack, opCount := ctx.opCount + count }
    else o.result = .error .stackSize
  | .error error => o.result = .error error

/-- Both outcomes are successes with the same stacks, or failures for the same reason. -/
structure EndsAlike (o p : Outcome) : Prop where
  result : o.result = p.result
  contents : o.result = .ok () →
    o.context.stack = p.context.stack ∧ o.context.altStack = p.context.altStack

variable {o p : Outcome} {ctx : Context} {count count' : Nat} {stack : Stack}
  {told : Except ScriptError Stack} {error : ScriptError}

theorem Follows.eq_ok (follows : o.Follows ctx count (.ok stack))
    (fits : stack.length + ctx.altStack.length ≤ Limits.stackSize) :
    o = .ok { ctx with stack := stack, opCount := ctx.opCount + count } := by
  rwa [Follows, if_pos fits] at follows

/-- A success leaves the stack that was told. -/
theorem Follows.told_eq (follows : o.Follows ctx count told) (succeeds : o.result = .ok ()) :
    told = .ok o.context.stack := by
  cases told with
  | error error =>
    have failed : o.result = .error error := follows
    rw [succeeds] at failed
    cases failed
  | ok stack =>
    rw [Follows] at follows
    split at follows
    · rw [follows]
      rfl
    · rw [succeeds] at follows
      cases follows

theorem Follows.endsAlike (first : o.Follows ctx count told) (second : p.Follows ctx count' told) :
    o.EndsAlike p := by
  cases told with
  | error error =>
    have failed : o.result = .error error := first
    refine ⟨failed.trans (Eq.symm second), fun succeeds => ?_⟩
    rw [failed] at succeeds
    cases succeeds
  | ok stack =>
    by_cases fits : stack.length + ctx.altStack.length ≤ Limits.stackSize
    · rw [first.eq_ok fits, second.eq_ok fits]
      exact ⟨rfl, fun _ => ⟨rfl, rfl⟩⟩
    · rw [Follows, if_neg fits] at first second
      refine ⟨first.trans second.symm, fun succeeds => ?_⟩
      rw [first] at succeeds
      cases succeeds

/-- Apart from the depth, the run fails where it was told to. -/
theorem Follows.result_eq_error_iff (follows : o.Follows ctx count told) (early : error ≠ .stackSize) :
    o.result = .error error ↔ told = .error error := by
  cases told with
  | error reason =>
    have failed : o.result = .error reason := follows
    rw [failed]
    constructor <;>
    · intro same
      cases same
      rfl
  | ok stack =>
    rw [Follows] at follows
    constructor
    · intro failed
      split at follows
      · rw [follows] at failed
        cases failed
      · rw [follows] at failed
        cases failed
        exact absurd rfl early
    · intro same
      cases same

/-- What comes after a success goes on from its stack and its count. -/
theorem Follows.of_reached
    (follows : o.Follows { ctx with stack := stack, opCount := ctx.opCount + count } count' told) :
    o.Follows ctx (count + count') told := by
  cases told with
  | error error => exact follows
  | ok stack =>
    rw [Follows] at follows ⊢
    rwa [← Nat.add_assoc]

/-- The end of a step whose operation has replaced the main stack. -/
theorem follows_ofStack (ctx : Context) (below : Stack) (count : Nat) (told : Except ScriptError Stack) :
    ((ofStack { ctx with stack := below, opCount := ctx.opCount + count } told).andThen
      Context.checkDepth).Follows ctx count told := by
  cases told with
  | error error => rfl
  | ok stack =>
    by_cases fits : stack.length + ctx.altStack.length ≤ Limits.stackSize
    · rw [Follows, if_pos fits]
      exact Context.checkDepth_of_le fits
    · have deep : Limits.stackSize < Context.depth
          { ctx with stack := stack, opCount := ctx.opCount + count } := Nat.lt_of_not_le fits
      rw [Follows, if_neg fits, ofStack, ok_andThen, Context.checkDepth_of_lt deep]
      rfl

end Outcome

section Steps

variable {env : Environment} {script : Script} {index : Nat} {ctx : Context}

theorem Operation.step_code_of_counted {opcode : UInt8} {instruction : Instruction}
    (meaning : Instruction.ofOpcode opcode = instruction) (counted : instruction.isCounted = true)
    (enabled : instruction ≠ .disabled) (executing : ctx.isExecuting = true)
    (within : ctx.opCount + 1 ≤ Limits.opsPerScript) :
    (Operation.code opcode).step env script index ctx =
      (instruction.run env script index { ctx with opCount := ctx.opCount + 1 }).andThen
        Context.checkDepth := by
  rw [step, run_code_of_counted meaning counted enabled executing within]

/-- Numbers that a stack within the limit can have for depths are read back from what is pushed for
them. -/
theorem Flags.takesForNumber_encode {depth : Nat} (shallow : depth < Limits.stackSize) (flags : Flags) :
    flags.TakesForNumber (SignMagnitude.encode depth) := by
  have bound : (depth : Int).natAbs < 128 * Bytes.capacity 3 := by
    rw [Int.natAbs_natCast]
    exact Nat.lt_trans shallow (by decide)
  exact ⟨SignMagnitude.encode_length_le_iff.2 bound, fun _ => by rw [SignMagnitude.value_encode]⟩

/-- The push of a depth goes through under every rule. -/
theorem Operation.step_push_depth {depth : Nat} (shallow : depth < Limits.stackSize)
    (executing : ctx.isExecuting = true) (fits : ctx.depth + 1 ≤ Limits.stackSize) :
    (Operation.minimalPush (SignMagnitude.encode depth)).step env script index ctx =
      .ok (ctx.push (SignMagnitude.encode depth)) := by
  have short : (SignMagnitude.encode depth).length ≤ 4 :=
    (Flags.takesForNumber_encode shallow env.flags).1
  have pushes := pushes_minimalPush (Nat.lt_of_le_of_lt short (by decide))
  have result : (minimalPush (SignMagnitude.encode depth)).pushResult env.flags =
      .ok (SignMagnitude.encode depth) :=
    pushResult_eq_ok_iff.2
      ⟨pushes.pushed, Nat.le_trans short (by decide), fun _ => isMinimal_minimalPush _⟩
  rw [← Context.depth_push] at fits
  rw [step_of_isPush pushes.isPush executing, result]
  exact Context.checkDepth_of_le fits

/-- With a depth on top, the opcode that reaches there does what is told on the stack below. -/
theorem Context.follows_pickOrRoll {depth : Nat} (shallow : depth < Limits.stackSize) (flags : Flags)
    (move : Bool) :
    let loaded := { ctx.push (SignMagnitude.encode depth) with opCount := ctx.opCount + 1 }
    ((loaded.pickOrRoll flags move).andThen Context.checkDepth).Follows ctx 1
      (ctx.stack.reach move depth) := by
  intro loaded
  obtain ⟨n, read, value, _⟩ := Flags.readNumber_eq_ok (Flags.takesForNumber_encode shallow flags)
  have index : n.value.toNat? = some depth := by
    rw [value, SignMagnitude.value_encode]
    rfl
  have top : loaded.stack = SignMagnitude.encode depth :: ctx.stack := rfl
  cases below : ctx.stack with
  | nil =>
    have refused : loaded.pickOrRoll flags move = .fail .invalidStackOperation loaded := by
      rw [pickOrRoll, top, below]
    rw [refused]
    rfl
  | cons y rest =>
    have found : loaded.pickOrRoll flags move =
        .ofStack { ctx with stack := y :: rest, opCount := ctx.opCount + 1 }
          (Stack.reach move depth (y :: rest)) := by
      rw [pickOrRoll, top, below]
      dsimp only
      rw [read]
      dsimp only
      rw [index]
      dsimp only
      rw [Stack.reach, Stack.remove, Stack.top]
      cases (y :: rest)[depth]? <;> cases move <;> rfl
    rw [found]
    exact Outcome.follows_ofStack ctx (y :: rest) 1 _

/-- A word does on the stacks what is told of it, if there is room for the depth that it pushes. -/
theorem Rearrangement.run_follows {word : Rearrangement} (reachable : word.Reachable)
    (executing : ctx.isExecuting = true) (within : ctx.opCount + 1 ≤ Limits.opsPerScript)
    (fits : ctx.depth + word.overhead ≤ Limits.stackSize) :
    (script.runFrom env index word.operations ctx).Follows ctx 1 (word.apply ctx.stack) := by
  cases word with
  | shuffle op =>
    have enabled : Instruction.shuffle op ≠ .disabled := Instruction.noConfusion
    rw [operations, Script.runFrom_singleton,
      Operation.step_code_of_counted op.ofOpcode_opcode rfl enabled executing within]
    exact Outcome.follows_ofStack ctx ctx.stack 1 (op.apply ctx.stack)
  | reach move depth =>
    have pushed : (ctx.push (SignMagnitude.encode depth)).isExecuting = true := executing
    have reaches := @Context.follows_pickOrRoll ctx depth reachable env.flags move
    rw [operations, Script.runFrom, Operation.step_push_depth reachable executing fits,
      Outcome.ok_andThen, Script.runFrom_singleton]
    cases move with
    | false =>
      have meaning : Instruction.ofOpcode 0x79 = .pick := rfl
      rw [if_neg Bool.false_ne_true,
        Operation.step_code_of_counted meaning rfl (by decide) pushed within]
      exact reaches
    | true =>
      have meaning : Instruction.ofOpcode 0x7a = .roll := rfl
      rw [if_pos rfl, Operation.step_code_of_counted meaning rfl (by decide) pushed within]
      exact reaches

/-- A program of words does on the stacks what is told of the words one after the other. -/
theorem Rearrangement.runAll_follows {words : List Rearrangement}
    (reachable : ∀ word ∈ words, word.Reachable) (executing : ctx.isExecuting = true)
    (within : ctx.opCount + words.length ≤ Limits.opsPerScript)
    (fits : ctx.depth + room words ≤ Limits.stackSize) :
    (script.runFrom env index (words.flatMap operations) ctx).Follows ctx words.length
      (applyAll words ctx.stack) := by
  induction words generalizing ctx index with
  | nil =>
    have fits : ctx.depth ≤ Limits.stackSize := fits
    exact (if_pos fits).mpr rfl
  | cons word words ih =>
    obtain ⟨here, later⟩ := List.forall_mem_cons.1 reachable
    rw [List.length_cons] at within
    have overhead := overhead_le_room word words
    have first := @run_follows env script index ctx word here executing (by omega) (by omega)
    rw [List.flatMap_cons, Script.runFrom_append, applyAll, List.foldlM_cons]
    cases told : word.apply ctx.stack with
    | error error =>
      rw [told] at first
      have failed : (script.runFrom env index word.operations ctx).result = .error error := first
      rw [Outcome.andThen_of_error _ failed]
      exact first
    | ok stack =>
      rw [told] at first
      cases words with
      | nil =>
        have last := Outcome.andThen_ok (script.runFrom env index word.operations ctx)
        rw [← last] at first
        exact first
      | cons next words =>
        have grown := apply_length_le told
        have room := growth_add_room_le word next words
        have depth : ctx.depth = ctx.stack.length + ctx.altStack.length := rfl
        have counted : ctx.opCount + 1 + (next :: words).length ≤ Limits.opsPerScript := by omega
        have deep : stack.length + ctx.altStack.length + Rearrangement.room (next :: words) ≤
          Limits.stackSize := by omega
        have rest := @ih (index + word.operations.length)
          { ctx with stack := stack, opCount := ctx.opCount + 1 } later executing counted deep
        have count : (word :: next :: words).length = 1 + (next :: words).length := Nat.add_comm _ 1
        rw [first.eq_ok (by omega), Outcome.ok_andThen, count]
        exact rest.of_reached

end Steps

namespace Rearrangement

theorem apply_roll (above below : Stack) (x : Bytes) :
    (roll above.length).apply (above ++ x :: below) = .ok (x :: (above ++ below)) :=
  Stack.reach_append

theorem apply_pick (above below : Stack) (x : Bytes) :
    (pick above.length).apply (above ++ x :: below) = .ok (x :: (above ++ x :: below)) :=
  Stack.reach_append

/-- Rolling what is `n` below the top turns the first `n + 1` elements around by one place. -/
theorem applyAll_rolls {n k : Nat} {window below : Stack} (size : window.length = n + 1) :
    applyAll (List.replicate k (roll n)) (window ++ below) =
      .ok (window.rotate (n * k) ++ below) := by
  induction k generalizing window with
  | zero =>
    rw [Nat.mul_zero, List.rotate_zero]
    rfl
  | succ k ih =>
    obtain empty | ⟨above, x, rfl⟩ := List.eq_nil_or_concat' window
    · rw [empty] at size
      cases size
    · have depth : above.length = n := by
        rw [List.length_append] at size
        exact Nat.succ.inj size
      have turned : (above ++ [x]).rotate n = x :: above := by
        rw [← depth, List.rotate_append_length_eq]
        rfl
      have rolled : (roll n).apply ((above ++ [x]) ++ below) = .ok ((x :: above) ++ below) := by
        rw [← depth, List.append_assoc]
        exact apply_roll above below x
      have turns : n * (k + 1) = n + n * k := by rw [Nat.mul_succ, Nat.add_comm]
      rw [turns, ← List.rotate_rotate, turned, List.replicate_succ, applyAll, List.foldlM_cons, rolled]
      exact ih (congrArg Nat.succ depth)

/-- As many rolls as elements are moved bring each of them back to its place. -/
theorem applyAll_rolls_eq {n : Nat} {stack : Stack} (inside : n < stack.length) :
    applyAll (List.replicate (n + 1) (roll n)) stack = .ok stack := by
  have size : (stack.take (n + 1)).length = n + 1 := List.length_take_of_le inside
  have around := @applyAll_rolls n (n + 1) _ (stack.drop (n + 1)) size
  have full : n * (n + 1) = (stack.take (n + 1)).length * n := by rw [size, Nat.mul_comm]
  rwa [full, List.rotate_length_mul, List.take_append_drop] at around

theorem room_rolls_le (n k : Nat) : room (List.replicate k (roll n)) ≤ 1 := by
  induction k with
  | zero => exact Nat.zero_le 1
  | succ k ih =>
    cases k with
    | zero => exact Nat.le_refl 1
    | succ k =>
      refine Nat.max_le.2 ⟨Nat.le_refl 1, ?_⟩
      show 0 + room (List.replicate (k + 1) (roll n)) ≤ 1
      omega

variable {env : Environment} {script script' : Script} {index index' : Nat} {ctx : Context}

/-- The step of a shuffle is what is told of it. -/
theorem shuffle_follows {op : Shuffle} (executing : ctx.isExecuting = true)
    (within : ctx.opCount + 1 ≤ Limits.opsPerScript) (fits : ctx.depth ≤ Limits.stackSize) :
    (script.runFrom env index [.code op.opcode] ctx).Follows ctx 1 (op.apply ctx.stack) :=
  @run_follows env script index ctx (.shuffle op) trivial executing within fits

/-- A shuffle succeeds if there are the elements that it looks at and there is room for what it adds. -/
theorem shuffle_succeeds {op : Shuffle} (executing : ctx.isExecuting = true)
    (within : ctx.opCount + 1 ≤ Limits.opsPerScript) (enough : op.arity ≤ ctx.stack.length)
    (fits : ctx.depth + op.growth ≤ Limits.stackSize) :
    (script.runFrom env index [.code op.opcode] ctx).result = .ok () := by
  have follows := @shuffle_follows env script index ctx op executing within
    (Nat.le_trans (Nat.le_add_right _ _) fits)
  cases told : op.apply ctx.stack with
  | error error =>
    rw [Shuffle.apply_error told] at told
    exact absurd (Shuffle.apply_eq_error_iff.1 told) (Nat.not_lt.2 enough)
  | ok stack =>
    have grown := Shuffle.apply_length_le told
    have depth : ctx.depth = ctx.stack.length + ctx.altStack.length := rfl
    rw [told] at follows
    rw [follows.eq_ok (by omega)]
    rfl

/-- The opcode of a shuffle ends as its expansion does. -/
theorem expansion_endsAlike {op : Shuffle} {words : List Rearrangement}
    (expands : op.expansion = some words) (executing : ctx.isExecuting = true)
    (within : ctx.opCount + words.length ≤ Limits.opsPerScript)
    (fits : ctx.depth + room words ≤ Limits.stackSize) :
    let o := script.runFrom env index [.code op.opcode] ctx
    o.EndsAlike (script'.runFrom env index' (words.flatMap operations) ctx) ∧
      (o.result = .error .invalidStackOperation ↔ ctx.stack.length < op.arity) := by
  intro o
  have several := length_expansion_pos expands
  have alone : o.Follows ctx 1 (op.apply ctx.stack) :=
    shuffle_follows executing (by omega) (Nat.le_trans (Nat.le_add_right _ _) fits)
  have spelled := @runAll_follows env script' index' ctx words (reachable_expansion expands)
    executing within fits
  rw [applyAll_expansion expands] at spelled
  have early : ScriptError.invalidStackOperation ≠ .stackSize := by decide
  exact ⟨alone.endsAlike spelled,
    (alone.result_eq_error_iff early).trans Shuffle.apply_eq_error_iff⟩

/-- Each shuffle that has an expansion ends as the expansion does: with the same stacks, or with the same
failure. Both fail for lack of elements on the same stacks, and they succeed where there are enough and
the copies fit, with what the accesses by depth give. A roll moves the element at its depth to the top
and a pick copies it, and the others stay in order; one roll more than the depth restores the stack. -/
theorem shuffles_are_picks_and_rolls (executing : ctx.isExecuting = true)
    (shallow : ctx.depth < Limits.stackSize) :
    (∀ (op : Shuffle) (words : List Rearrangement), op.expansion = some words →
      ctx.opCount + words.length ≤ Limits.opsPerScript →
      (op = .threeDup → ctx.depth ≤ 997) → (op = .twoOver → ctx.depth ≤ 998) →
        let o := script.runFrom env index [.code op.opcode] ctx
        o.EndsAlike (script'.runFrom env index' (words.flatMap operations) ctx) ∧
          (o.result = .error .invalidStackOperation ↔ ctx.stack.length < op.arity) ∧
          (op.arity ≤ ctx.stack.length → ctx.depth + op.growth ≤ Limits.stackSize →
            o.result = .ok ()) ∧
          (o.result = .ok () → op.applyByDepth ctx.stack = .ok o.context.stack)) ∧
      (∀ (above : Stack) (x : Bytes) (below : Stack), ctx.stack = above ++ x :: below →
        ctx.opCount + 1 ≤ Limits.opsPerScript →
          script.runFrom env index (roll above.length).operations ctx =
              .ok { ctx with stack := x :: (above ++ below), opCount := ctx.opCount + 1 } ∧
            script.runFrom env index (pick above.length).operations ctx =
              .ok { ctx with stack := x :: ctx.stack, opCount := ctx.opCount + 1 }) ∧
      ∀ n < ctx.stack.length,
        applyAll (List.replicate (n + 1) (roll n)) ctx.stack = .ok ctx.stack ∧
          (ctx.opCount + (n + 1) ≤ Limits.opsPerScript →
            script.runFrom env index ((List.replicate (n + 1) (roll n)).flatMap operations) ctx =
              .ok { ctx with opCount := ctx.opCount + (n + 1) }) := by
  have depth : ctx.depth = ctx.stack.length + ctx.altStack.length := rfl
  have limit : Limits.stackSize = 1000 := rfl
  refine ⟨fun op words expands within three two => ?_, fun above x below split within => ?_,
    fun n inside => ⟨applyAll_rolls_eq inside, fun within => ?_⟩⟩
  · have room := room_expansion expands
    have several := length_expansion_pos expands
    have fits : ctx.depth + Rearrangement.room words ≤ Limits.stackSize := by
      split at room
      · next same =>
        have shallower := three same
        omega
      · split at room
        · next same =>
          have shallower := two same
          omega
        · omega
    obtain ⟨alike, fails⟩ := expansion_endsAlike expands executing within fits
    refine ⟨alike, fails, shuffle_succeeds executing (by omega), fun succeeds => ?_⟩
    rw [Shuffle.applyByDepth_eq]
    exact (shuffle_follows executing (by omega) (Nat.le_of_lt shallow)).told_eq succeeds
  · have length : ctx.stack.length = above.length + (below.length + 1) := by
      rw [split, List.length_append, List.length_cons]
    have reachable : above.length < Limits.stackSize := by omega
    have rolled := @run_follows env script index ctx (roll above.length) reachable executing within
      shallow
    have picked := @run_follows env script index ctx (pick above.length) reachable executing within
      shallow
    rw [split, apply_roll] at rolled
    rw [split, apply_pick, ← split] at picked
    refine ⟨rolled.eq_ok ?_, picked.eq_ok ?_⟩
    · rw [List.length_cons, List.length_append]
      omega
    · rw [List.length_cons]
      omega
  · have reachable : ∀ word ∈ List.replicate (n + 1) (roll n), word.Reachable := by
      intro word listed
      rw [List.eq_of_mem_replicate listed]
      show n < Limits.stackSize
      omega
    have room := room_rolls_le n (n + 1)
    have turned := @runAll_follows env script index ctx _ reachable executing
      (by rwa [List.length_replicate]) (by omega)
    rw [applyAll_rolls_eq inside] at turned
    rw [turned.eq_ok (by omega), List.length_replicate]

/-- Two rolls of what is five below the top do what the rotation of the three top pairs does, and on
five elements both fail; three rolls of what is two below the top do nothing. -/
theorem shuffles_are_picks_and_rolls_six :
    let pairs : Script := [.code 0x71]
    let rolls : Script := [.code 0x55, .code 0x7a, .code 0x55, .code 0x7a]
    let turns : Script := [.code 0x52, .code 0x7a, .code 0x52, .code 0x7a, .code 0x52, .code 0x7a]
    let env : Environment := { flags := { minimalData := true } }
    let ctx : Context := { stack := [[6], [5], [4], [3], [2], [1]], altStack := [[9]], opCount := 198 }
    let fewer : Context := { stack := [[6], [5], [4], [3], [2]] }
    (ctx.isExecuting = true ∧ ctx.depth < Limits.stackSize ∧
      (pairs.runFrom env 0 pairs ctx).EndsAlike (rolls.runFrom env 0 rolls ctx) ∧
      (rolls.runFrom env 0 rolls ctx).context.stack = [[2], [1], [6], [5], [4], [3]] ∧
      pairs.runFrom env 0 turns ctx = .ok { ctx with opCount := 201 }) ∧
    fewer.isExecuting = true ∧ fewer.depth < Limits.stackSize ∧
      (rolls.runFrom env 0 rolls fewer).result = .error .invalidStackOperation := by
  intro pairs rolls turns env ctx fewer
  have executing : ctx.isExecuting = true := rfl
  have shallow : ctx.depth < Limits.stackSize := by decide
  have executing' : fewer.isExecuting = true := rfl
  have shallow' : fewer.depth < Limits.stackSize := by decide
  have spelled : [roll 5, roll 5].flatMap operations = rolls := by decide +kernel
  have spelled' : (List.replicate 3 (roll 2)).flatMap operations = turns := by decide +kernel
  obtain ⟨alike, -, restores⟩ := @shuffles_are_picks_and_rolls env pairs rolls 0 0 ctx executing
    shallow
  obtain ⟨alike', -⟩ := @shuffles_are_picks_and_rolls env pairs rolls 0 0 fewer executing' shallow'
  have twice := (alike .twoRot [roll 5, roll 5] rfl (by decide) nofun nofun).1
  obtain ⟨twice', fails, _⟩ := alike' .twoRot [roll 5, roll 5] rfl (by decide) nofun nofun
  have restored := (restores 2 (by decide)).2 (by decide)
  rw [spelled] at twice twice'
  rw [spelled'] at restored
  refine ⟨⟨executing, shallow, twice, by decide +kernel, restored⟩, executing', shallow', ?_⟩
  rw [← twice'.result]
  exact fails.2 (by decide)

end Rearrangement
end SpendScript
