import Mathlib.Data.List.InsertIdx
import Mathlib.Logic.Equiv.Basic
import SpendScript.Stack.Indexed

/-!
# Accesses by depth

Insertion and removal at a depth undo each other, and an exchange undoes itself. All of them are
bounded by the number of elements, but only an insertion may reach the depth below the last one.
With the bottom in front a depth is an index that moves whenever the stack grows; it still falls inside
the items, and it is worked out before any item is changed, so that a failure leaves the stack alone.
-/
set_option autoImplicit false

namespace SpendScript.Stack

variable {stack swapped : Stack} {d a b : Nat} {x y : Bytes}

section Results

theorem top_of_getElem? (found : stack[d]? = some x) : stack.top d = .ok x := by
  rw [top, found]

theorem top_of_le (beyond : stack.length ≤ d) : stack.top d = .error .invalidStackOperation := by
  rw [top, List.getElem?_eq_none beyond]

theorem remove_of_getElem? (found : stack[d]? = some x) :
    stack.remove d = .ok (x, stack.eraseIdx d) := by
  rw [remove, found]

theorem remove_of_le (beyond : stack.length ≤ d) :
    stack.remove d = .error .invalidStackOperation := by
  rw [remove, List.getElem?_eq_none beyond]

theorem insert_of_le (inside : d ≤ stack.length) (x : Bytes) :
    stack.insert d x = .ok (stack.insertIdx d x) :=
  if_pos inside

theorem insert_of_lt (beyond : stack.length < d) (x : Bytes) :
    stack.insert d x = .error .invalidStackOperation :=
  if_neg (Nat.not_le.2 beyond)

theorem swap_of_getElem? (first : stack[a]? = some x) (second : stack[b]? = some y) :
    stack.swap a b = .ok ((stack.set a y).set b x) := by
  rw [swap, first, second]

theorem swap_of_le (beyond : stack.length ≤ a ∨ stack.length ≤ b) :
    stack.swap a b = .error .invalidStackOperation := by
  rw [swap]
  rcases beyond with first | second
  · rw [List.getElem?_eq_none first]
  · rw [List.getElem?_eq_none second]
    cases stack[a]? <;> rfl

end Results

section Laws

/-- What has been put in is found at its depth, and taking it out leaves what there was before. -/
theorem insert_then_remove (inside : d ≤ stack.length) (x : Bytes) :
    ∃ inserted, stack.insert d x = .ok inserted ∧ inserted.top d = .ok x ∧
      inserted.remove d = .ok (x, stack) := by
  have found : (stack.insertIdx d x)[d]? = some x := by
    rw [List.getElem?_insertIdx_self, if_pos inside]
  have removed := remove_of_getElem? found
  rw [List.eraseIdx_insertIdx_self] at removed
  exact ⟨stack.insertIdx d x, insert_of_le inside x, top_of_getElem? found, removed⟩

/-- What is taken out is what was at the depth, and goes back there. -/
theorem remove_then_insert (inside : d < stack.length) :
    ∃ x others, stack.remove d = .ok (x, others) ∧ stack.top d = .ok x ∧
      others.insert d x = .ok stack := by
  have found : stack[d]? = some stack[d] := List.getElem?_eq_getElem inside
  have fewer : (stack.eraseIdx d).length = stack.length - 1 := List.length_eraseIdx_of_lt inside
  have back : Stack.insert (stack.eraseIdx d) d stack[d] =
      .ok ((stack.eraseIdx d).insertIdx d stack[d]) :=
    insert_of_le (by omega) stack[d]
  rw [List.insertIdx_eraseIdx_getElem inside] at back
  exact ⟨stack[d], stack.eraseIdx d, remove_of_getElem? found, top_of_getElem? found, back⟩

/-- Each depth has afterwards what the depth that it is exchanged with had before. -/
theorem getElem?_exchanged (first : stack[a]? = some x) (second : stack[b]? = some y) (d : Nat) :
    ((stack.set a y).set b x)[d]? = stack[Equiv.swap a b d]? := by
  obtain ⟨left, -⟩ := List.getElem?_eq_some_iff.1 first
  obtain ⟨right, -⟩ := List.getElem?_eq_some_iff.1 second
  have right' : b < (stack.set a y).length := by rwa [List.length_set]
  by_cases atB : d = b
  · subst atB
    rw [Equiv.swap_apply_right, List.getElem?_set_self right', first]
  · rw [List.getElem?_set_ne (Ne.symm atB)]
    by_cases atA : d = a
    · subst atA
      rw [Equiv.swap_apply_left, List.getElem?_set_self left, second]
    · rw [List.getElem?_set_ne (Ne.symm atA), Equiv.swap_apply_of_ne_of_ne atA atB]

/-- An exchange needs both elements, and does nothing but exchange them. -/
theorem swap_eq_ok_iff :
    stack.swap a b = .ok swapped ↔
      (a < stack.length ∧ b < stack.length) ∧ ∀ d : Nat, swapped[d]? = stack[Equiv.swap a b d]? := by
  by_cases inside : a < stack.length ∧ b < stack.length
  · have first : stack[a]? = some stack[a] := List.getElem?_eq_getElem inside.1
    have second : stack[b]? = some stack[b] := List.getElem?_eq_getElem inside.2
    have exchanged := getElem?_exchanged first second
    rw [swap_of_getElem? first second]
    constructor
    · intro same
      cases same
      exact ⟨inside, exchanged⟩
    · intro told
      exact congrArg Except.ok (List.ext_getElem? fun d => (exchanged d).trans (told.2 d).symm)
  · have beyond : stack.length ≤ a ∨ stack.length ≤ b := by omega
    rw [swap_of_le beyond]
    exact iff_of_false nofun fun told => inside told.1

theorem swap_comm (stack : Stack) (a b : Nat) : stack.swap a b = stack.swap b a := by
  by_cases inside : a < stack.length ∧ b < stack.length
  · have exchanged := swap_of_getElem? (List.getElem?_eq_getElem inside.1)
      (List.getElem?_eq_getElem inside.2)
    obtain ⟨-, moved⟩ := swap_eq_ok_iff.1 exchanged
    rw [Equiv.swap_comm] at moved
    exact exchanged.trans (swap_eq_ok_iff.2 ⟨inside.symm, moved⟩).symm
  · rw [swap_of_le (by omega), swap_of_le (by omega)]

theorem swap_swap (exchanged : stack.swap a b = .ok swapped) : swapped.swap a b = .ok stack := by
  obtain ⟨⟨left, right⟩, moved⟩ := swap_eq_ok_iff.1 exchanged
  have first := moved a
  have second := moved b
  rw [Equiv.swap_apply_left, List.getElem?_eq_getElem right] at first
  rw [Equiv.swap_apply_right, List.getElem?_eq_getElem left] at second
  obtain ⟨left', -⟩ := List.getElem?_eq_some_iff.1 first
  obtain ⟨right', -⟩ := List.getElem?_eq_some_iff.1 second
  refine swap_eq_ok_iff.2 ⟨⟨left', right'⟩, fun d => ?_⟩
  rw [moved, Equiv.swap_apply_self]

/-- An exchange with what it leaves, depth by depth. -/
theorem swap_then_swap (left : a < stack.length) (right : b < stack.length) :
    ∃ swapped, stack.swap a b = .ok swapped ∧
      (∀ d, swapped.top d = stack.top (Equiv.swap a b d)) ∧ swapped.swap a b = .ok stack := by
  have exchanged := swap_of_getElem? (List.getElem?_eq_getElem left) (List.getElem?_eq_getElem right)
  obtain ⟨-, moved⟩ := swap_eq_ok_iff.1 exchanged
  refine ⟨_, exchanged, fun d => ?_, swap_swap exchanged⟩
  rw [top, top, moved]

end Laws

section BottomUp

theorem length_bottomUp (stack : Stack) : stack.bottomUp.length = stack.length :=
  List.length_reverse

theorem getElem?_bottomUp (inside : d < stack.length) :
    stack.bottomUp[stack.length - (d + 1)]? = stack[d]? :=
  List.getElem?_reverse' (by omega)

/-- In front of the index are the elements from the depth on. -/
theorem take_bottomUp (inside : d ≤ stack.length) :
    stack.bottomUp.take (stack.length - d) = bottomUp (stack.drop d) := by
  rw [bottomUp, List.take_reverse, Nat.sub_sub_self inside, bottomUp]

theorem drop_bottomUp (inside : d ≤ stack.length) :
    stack.bottomUp.drop (stack.length - d) = bottomUp (stack.take d) := by
  rw [bottomUp, List.drop_reverse, Nat.sub_sub_self inside, bottomUp]

theorem bottomUp_append_cons (above below : Stack) (x : Bytes) :
    bottomUp (above ++ x :: below) = below.bottomUp ++ x :: above.bottomUp := by
  rw [bottomUp, List.reverse_append, List.reverse_cons, List.append_assoc, List.singleton_append]
  rfl

theorem bottomUp_eraseIdx (inside : d < stack.length) :
    bottomUp (stack.eraseIdx d) = stack.bottomUp.eraseIdx (stack.length - (d + 1)) := by
  have next : stack.length - (d + 1) + 1 = stack.length - d := by omega
  rw [List.eraseIdx_eq_take_drop_succ, List.eraseIdx_eq_take_drop_succ, next, take_bottomUp inside,
    drop_bottomUp (Nat.le_of_lt inside)]
  exact List.reverse_append

theorem bottomUp_set (inside : d < stack.length) (x : Bytes) :
    bottomUp (stack.set d x) = stack.bottomUp.set (stack.length - (d + 1)) x := by
  have next : stack.length - (d + 1) + 1 = stack.length - d := by omega
  have index : stack.length - (d + 1) < stack.bottomUp.length := by
    rw [length_bottomUp]
    omega
  rw [List.set_eq_take_append_cons_drop, if_pos inside, List.set_eq_take_append_cons_drop,
    if_pos index, next, take_bottomUp inside, drop_bottomUp (Nat.le_of_lt inside)]
  exact bottomUp_append_cons _ _ x

theorem insertIdx_append (above below : Stack) (x : Bytes) :
    List.insertIdx (above ++ below) above.length x = above ++ x :: below := by
  induction above with
  | nil => rfl
  | cons y above ih => exact congrArg (y :: ·) ih

theorem insertIdx_eq_take_append_cons_drop (inside : d ≤ stack.length) (x : Bytes) :
    stack.insertIdx d x = stack.take d ++ x :: stack.drop d := by
  have inserted := insertIdx_append (stack.take d) (stack.drop d) x
  rwa [List.take_append_drop, List.length_take_of_le inside] at inserted

theorem bottomUp_insertIdx (inside : d ≤ stack.length) (x : Bytes) :
    bottomUp (stack.insertIdx d x) = stack.bottomUp.insertIdx (stack.length - d) x := by
  have index : stack.length - d ≤ stack.bottomUp.length := by
    rw [length_bottomUp]
    exact Nat.sub_le _ _
  rw [insertIdx_eq_take_append_cons_drop inside, insertIdx_eq_take_append_cons_drop index,
    take_bottomUp inside, drop_bottomUp inside]
  exact bottomUp_append_cons _ _ x

theorem ofBottomUp_bottomUp (stack : Stack) : ofBottomUp stack.bottomUp = stack :=
  List.reverse_reverse stack

end BottomUp

namespace Access

variable {α β : Type} {access : Access α} {next : α → Access β} {left : Stack} {maxWord : Nat}
  {error : ScriptError}

theorem on_pure (answer : α) (stack : Stack) :
    on (pure answer) stack = some (.ok answer, stack) := by
  have after : on (pure answer) stack = some (.ok answer, ofBottomUp stack.bottomUp) := rfl
  rw [after, ofBottomUp_bottomUp]

theorem on_throw (error : ScriptError) (stack : Stack) :
    on (throw error : Access α) stack = some (.error error, stack) := by
  have after : on (throw error : Access α) stack = some (.error error, ofBottomUp stack.bottomUp) :=
    rfl
  rw [after, ofBottomUp_bottomUp]

theorem on_get_bind (next : List Bytes → Access α) (stack : Stack) :
    on (get >>= next) stack = (next stack.bottomUp).on stack :=
  rfl

theorem on_lift_some (answer : α) (stack : Stack) :
    on (liftM (some answer)) stack = some (.ok answer, stack) :=
  on_pure answer stack

/-- Where the items are replaced, the stack is what they say from the other end. -/
theorem on_modify {change : List Bytes → List Bytes} (changed : change stack.bottomUp = left.bottomUp) :
    on (modify change) stack = some (.ok (), left) := by
  have after : on (modify change) stack = some (.ok (), ofBottomUp (change stack.bottomUp)) := rfl
  rw [after, changed, ofBottomUp_bottomUp]

theorem on_set {items : List Bytes} (changed : items = left.bottomUp) :
    on (set items) stack = some (.ok (), left) :=
  on_modify changed

theorem on_bind_of_ok {answer : α} (done : access.on stack = some (.ok answer, left)) :
    (access >>= next).on stack = (next answer).on left := by
  obtain ⟨⟨_, items⟩, ran, same⟩ := Option.map_eq_some_iff.1 done
  cases same
  have items_eq : bottomUp (ofBottomUp items) = items := List.reverse_reverse items
  rw [on, ExceptT.run_bind, StateT.run_bind, ran, on, items_eq]
  rfl

theorem on_bind_of_error (failed : access.on stack = some (.error error, left)) :
    (access >>= next).on stack = some (.error error, left) := by
  obtain ⟨⟨_, items⟩, ran, same⟩ := Option.map_eq_some_iff.1 failed
  cases same
  rw [on, ExceptT.run_bind, StateT.run_bind, ran]
  rfl

section Depths

variable (word : d < maxWord)
include word

/-- Where the sum is a word, the number of elements decides. -/
theorem on_indexFromTop_eq (stack : Stack) :
    (indexFromTop maxWord d).on stack =
      on (if stack.length < d + 1 then throw .invalidStackOperation
        else pure (stack.length - (d + 1))) stack := by
  rw [indexFromTop, on_get_bind, successor?, if_pos word, on_bind_of_ok (on_lift_some _ _),
    length_bottomUp]

theorem on_indexFromTop (inside : d < stack.length) :
    (indexFromTop maxWord d).on stack = some (.ok (stack.length - (d + 1)), stack) := by
  rw [on_indexFromTop_eq word, if_neg (by omega)]
  exact on_pure _ stack

theorem on_indexFromTop_of_le (beyond : stack.length ≤ d) :
    (indexFromTop maxWord d).on stack = some (.error .invalidStackOperation, stack) := by
  rw [on_indexFromTop_eq word, if_pos (by omega)]
  exact on_throw _ stack

end Depths

/-- The index of a depth is that of an item. -/
theorem on_item (found : stack[d]? = some x) :
    (item (stack.length - (d + 1))).on stack = some (.ok x, stack) := by
  obtain ⟨inside, -⟩ := List.getElem?_eq_some_iff.1 found
  rw [item, on_get_bind, getElem?_bottomUp inside, found]
  exact on_lift_some _ _

theorem on_putAt (inside : d ≤ stack.length) (x : Bytes) :
    (putAt (stack.length - d) x).on stack = some (.ok (), stack.insertIdx d x) := by
  rw [putAt, on_get_bind, length_bottomUp, if_pos (Nat.sub_le _ _)]
  exact on_set (bottomUp_insertIdx inside x).symm

theorem on_top (word : d < maxWord) (stack : Stack) :
    (top maxWord d).on stack = some (stack.top d, stack) := by
  rcases Nat.lt_or_ge d stack.length with inside | beyond
  · have found : stack[d]? = some stack[d] := List.getElem?_eq_getElem inside
    rw [top, on_bind_of_ok (on_indexFromTop word inside), on_item found, top_of_getElem? found]
  · rw [top, on_bind_of_error (on_indexFromTop_of_le word beyond), top_of_le beyond]

-- one more than the greatest word is none
example : (top 7 7).on [[2], [1]] = none := rfl

theorem on_remove (word : d < maxWord) (stack : Stack) :
    (remove maxWord d).on stack = some (stack.kept (stack.remove d)) := by
  rcases Nat.lt_or_ge d stack.length with inside | beyond
  · have found : stack[d]? = some stack[d] := List.getElem?_eq_getElem inside
    rw [remove, on_bind_of_ok (on_indexFromTop word inside), on_bind_of_ok (on_item found),
      on_bind_of_ok (on_modify (bottomUp_eraseIdx inside).symm), remove_of_getElem? found]
    exact on_pure _ _
  · rw [remove, on_bind_of_error (on_indexFromTop_of_le word beyond), remove_of_le beyond]
    rfl

theorem on_insert (d : Nat) (x : Bytes) (stack : Stack) :
    (insert d x).on stack = some (stack.kept ((stack.insert d x).map ((), ·))) := by
  rw [insert, on_get_bind, length_bottomUp]
  rcases Nat.lt_or_ge stack.length d with beyond | inside
  · rw [if_pos beyond, insert_of_lt beyond]
    exact on_throw _ _
  · rw [if_neg (Nat.not_lt.2 inside), insert_of_le inside]
    exact on_putAt inside x

theorem on_swap (word : a < maxWord) (word' : b < maxWord) (stack : Stack) :
    (swap maxWord a b).on stack = some (stack.kept ((stack.swap a b).map ((), ·))) := by
  rcases Nat.lt_or_ge a stack.length with left | beyond
  · rcases Nat.lt_or_ge b stack.length with right | beyond
    · have first : stack[a]? = some stack[a] := List.getElem?_eq_getElem left
      have second : stack[b]? = some stack[b] := List.getElem?_eq_getElem right
      have length : (stack.set a stack[b]).length = stack.length := List.length_set
      have changed : bottomUp ((stack.set a stack[b]).set b stack[a]) =
          (stack.bottomUp.set (stack.length - (a + 1)) stack[b]).set (stack.length - (b + 1)) stack[a] := by
        rw [bottomUp_set (by rwa [length]), length, bottomUp_set left]
      rw [swap, on_bind_of_ok (on_indexFromTop word left), on_bind_of_ok (on_indexFromTop word' right),
        on_bind_of_ok (on_item first), on_bind_of_ok (on_item second), on_modify changed.symm,
        swap_of_getElem? first second]
      rfl
    · rw [swap, on_bind_of_ok (on_indexFromTop word left),
        on_bind_of_error (on_indexFromTop_of_le word' beyond), swap_of_le (.inr beyond)]
      rfl
  · rw [swap, on_bind_of_error (on_indexFromTop_of_le word beyond), swap_of_le (.inl beyond)]
    rfl

end Access

/-- An insertion is undone by the removal at its depth, a removal by the insertion of what it answers,
and an exchange, in which the order of the depths does not matter, by itself; each succeeds as far as
the elements reach and fails for the same reason beyond. On the items themselves, with the bottom in
front, the accesses have these answers at every depth below the greatest word, and leave the items as
they were where they fail. -/
theorem depth_accesses_are_coherent (stack : Stack) :
    (∀ d x,
      (d ≤ stack.length → ∃ inserted, stack.insert d x = .ok inserted ∧ inserted.top d = .ok x ∧
        inserted.remove d = .ok (x, stack)) ∧
      (stack.length < d → stack.insert d x = .error .invalidStackOperation)) ∧
    (∀ d,
      (d < stack.length → ∃ x others, stack.remove d = .ok (x, others) ∧ stack.top d = .ok x ∧
        others.insert d x = .ok stack) ∧
      (stack.length ≤ d → stack.remove d = .error .invalidStackOperation ∧
        stack.top d = .error .invalidStackOperation)) ∧
    (∀ a b,
      (a < stack.length → b < stack.length → ∃ swapped, stack.swap a b = .ok swapped ∧
        (∀ d, swapped.top d = stack.top (Equiv.swap a b d)) ∧ swapped.swap a b = .ok stack) ∧
      (stack.length ≤ a ∨ stack.length ≤ b → stack.swap a b = .error .invalidStackOperation) ∧
      stack.swap a b = stack.swap b a) ∧
    (∀ d x, (Access.insert d x).on stack = some (stack.kept ((stack.insert d x).map ((), ·)))) ∧
    ∀ maxWord,
      (∀ d < maxWord,
        (Access.top maxWord d).on stack = some (stack.top d, stack) ∧
        (Access.remove maxWord d).on stack = some (stack.kept (stack.remove d))) ∧
      ∀ a < maxWord, ∀ b < maxWord,
        (Access.swap maxWord a b).on stack = some (stack.kept ((stack.swap a b).map ((), ·))) := by
  refine ⟨fun d x => ⟨fun inside => ?_, fun beyond => ?_⟩, fun d => ⟨fun inside => ?_, fun beyond => ?_⟩,
    fun a b => ⟨fun left right => ?_, fun beyond => ?_, swap_comm stack a b⟩,
    fun d x => Access.on_insert d x stack,
    fun maxWord => ⟨fun d word => ?_, fun a word b word' => Access.on_swap word word' stack⟩⟩
  · exact insert_then_remove inside x
  · exact insert_of_lt beyond x
  · exact remove_then_insert inside
  · exact ⟨remove_of_le beyond, top_of_le beyond⟩
  · exact swap_then_swap left right
  · exact swap_of_le beyond
  · exact ⟨Access.on_top word stack, Access.on_remove word stack⟩

/-- The depth of an insertion may be the number of elements; that of the others may not, and then
nothing has been changed. -/
theorem depth_accesses_are_coherent_four :
    let stack : Stack := [[4], [3], [2], [1]]
    let maxWord := 0xffffffffffffffff
    (∃ inserted, stack.insert 4 [9] = .ok inserted ∧ inserted.top 4 = .ok [9] ∧
      inserted.remove 4 = .ok ([9], stack)) ∧
    stack.insert 5 [9] = .error .invalidStackOperation ∧
    (∃ x others, stack.remove 3 = .ok (x, others) ∧ stack.top 3 = .ok x ∧
      others.insert 3 x = .ok stack) ∧
    stack.remove 4 = .error .invalidStackOperation ∧
    (∃ swapped, stack.swap 0 3 = .ok swapped ∧
      (∀ d, swapped.top d = stack.top (Equiv.swap 0 3 d)) ∧ swapped.swap 0 3 = .ok stack) ∧
    (Access.insert 1 [9]).on stack = some (.ok (), [[4], [9], [3], [2], [1]]) ∧
    (Access.remove maxWord 2).on stack = some (.ok [2], [[4], [3], [1]]) ∧
    (Access.swap maxWord 0 4).on stack = some (.error .invalidStackOperation, stack) := by
  intro stack maxWord
  obtain ⟨inserts, removes, swaps, inserted, indexed⟩ := depth_accesses_are_coherent stack
  obtain ⟨accesses, exchanges⟩ := indexed maxWord
  obtain ⟨-, removed⟩ := accesses 2 (by decide)
  exact ⟨(inserts 4 [9]).1 (by decide), (inserts 5 [9]).2 (by decide), (removes 3).1 (by decide),
    ((removes 4).2 (by decide)).1, (swaps 0 3).1 (by decide) (by decide), inserted 1 [9], removed,
    exchanges 0 (by decide) 4 (by decide)⟩

end SpendScript.Stack
