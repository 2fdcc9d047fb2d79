import SpendScript.Machine.Run
import SpendScript.Proofs.KeyMatching
import SpendScript.Proofs.OpcodeTable
import SpendScript.Script.Nesting

/-!
# Runs on a deeper stack

Elements are addressed from the top, so a run that succeeds never looks below the elements it was
given, however deep it picks and however many keys and signatures it takes. More elements below them
stay where they are, and the run does the same above them, unless it now meets the limit on the
depth. The one operation that is excepted pushes the depth itself.
-/
set_option autoImplicit false

namespace SpendScript

/-- The context with more elements below those of its main stack. -/
def Context.above (ctx : Context) (below : Stack) : Context :=
  { ctx with stack := ctx.stack ++ below }

def Outcome.above (o : Outcome) (below : Stack) : Outcome :=
  { o with context := o.context.above below }

/-- A success is the same above more elements, or it comes to nothing because the stacks become too
deep. -/
def Outcome.Deepens (below : Stack) (o deeper : Outcome) : Prop :=
  o.result = .ok () → deeper = o.above below ∨ deeper.result = .error .stackSize

namespace Outcome

variable {below : Stack} {ctx : Context} {o deeper : Outcome}

theorem Deepens.of_eq (h : deeper = o.above below) : o.Deepens below deeper :=
  fun _ => Or.inl h

theorem deepens_ok : (ok ctx).Deepens below (ok (ctx.above below)) :=
  .of_eq rfl

/-- Nothing is claimed of a failure: it may be one for want of elements. -/
theorem deepens_fail {error : ScriptError} : (fail error ctx).Deepens below deeper :=
  fun succeeds => nomatch succeeds

theorem Deepens.asked (h : o.Deepens below deeper) (queries : List SignatureQuery) :
    (o.asked queries).Deepens below (deeper.asked queries) :=
  fun succeeds => (h succeeds).imp_left (congrArg (Outcome.asked queries))

theorem Deepens.andThen {next next' : Context → Outcome} (h : o.Deepens below deeper)
    (hnext : ∀ ctx, (next ctx).Deepens below (next' (ctx.above below))) :
    (o.andThen next).Deepens below (deeper.andThen next') := by
  intro succeeds
  cases result : o.result with
  | error error =>
    rw [andThen_of_error next result, result] at succeeds
    cases succeeds
  | ok =>
    rcases h result with rfl | deep
    · have later := (hnext o.context).asked o.queries
      rw [andThen_of_ok next result] at succeeds ⊢
      rw [andThen_of_ok next' (show (o.above below).result = .ok () from result)]
      exact later succeeds
    · rw [andThen_of_error next' deep]
      exact Or.inr deep

theorem deepens_conclude {demand success : Bool} {error : ScriptError} :
    (conclude ctx demand error success).Deepens below
      (conclude (ctx.above below) demand error success) := by
  unfold conclude
  cases demand
  · exact deepens_ok
  · cases success
    · exact deepens_fail
    · exact deepens_ok

theorem deepens_ofStack {r r' : Except ScriptError Stack}
    (h : ∀ stack, r = .ok stack → r' = .ok (stack ++ below)) :
    (ofStack ctx r).Deepens below (ofStack (ctx.above below) r') := by
  cases r with
  | error error => exact deepens_fail
  | ok stack =>
    rw [h stack rfl]
    exact .of_eq rfl

end Outcome

section Operands

variable {below stack result : Stack} {flags : Flags}

theorem Shuffle.apply_append {op : Shuffle} (h : op.apply stack = .ok result) :
    op.apply (stack ++ below) = .ok (result ++ below) := by
  unfold apply at h
  split at h
  case h_4 x rest =>
    cases h
    show Except.ok (if SignMagnitude.truthy x then _ else _) = _
    split <;> rfl
  all_goals
    cases h
    try rfl

theorem UnaryOp.run_append {op : UnaryOp} (h : op.run flags stack = .ok result) :
    op.run flags (stack ++ below) = .ok (result ++ below) := by
  cases stack with
  | nil => cases h
  | cons x rest =>
    rw [run_cons, except_bind_eq_ok] at h
    obtain ⟨n, read, h⟩ := h
    obtain ⟨value, applied, rfl⟩ := except_map_eq_ok.1 h
    rw [List.cons_append, run_cons, read]
    exact except_map_eq_ok.2 ⟨value, applied, rfl⟩

theorem Flags.readTwo_append {a b : ScriptNum} {rest : Stack}
    (h : flags.readTwo stack = .ok (a, b, rest)) :
    flags.readTwo (stack ++ below) = .ok (a, b, rest ++ below) := by
  rcases stack with _ | ⟨y, _ | ⟨x, deeper⟩⟩
  · cases h
  · cases h
  · rw [readTwo_cons, except_bind_eq_ok] at h
    obtain ⟨first, readFirst, h⟩ := h
    obtain ⟨second, readSecond, h⟩ := except_bind_eq_ok.1 h
    cases h
    rw [List.cons_append, List.cons_append, readTwo_cons, readFirst, readSecond]
    rfl

theorem BinaryOp.run_append {op : BinaryOp} (h : op.run flags stack = .ok result) :
    op.run flags (stack ++ below) = .ok (result ++ below) := by
  rw [run_eq_bind, except_bind_eq_ok] at h
  obtain ⟨⟨a, b, rest⟩, read, h⟩ := h
  obtain ⟨value, applied, rfl⟩ := except_map_eq_ok.1 h
  rw [run_eq_bind, Flags.readTwo_append read]
  exact except_map_eq_ok.2 ⟨value, applied, rfl⟩

theorem Stack.within_append (h : stack.within flags = .ok result) :
    Stack.within flags (stack ++ below) = .ok (result ++ below) := by
  rcases stack with _ | ⟨upper, _ | ⟨lower, _ | ⟨x, rest⟩⟩⟩
  · cases h
  · cases h
  · cases h
  · rw [within_cons, except_bind_eq_ok] at h
    obtain ⟨n, readX, h⟩ := h
    obtain ⟨least, readLower, h⟩ := except_bind_eq_ok.1 h
    obtain ⟨bound, readUpper, h⟩ := except_bind_eq_ok.1 h
    cases h
    rw [List.cons_append, List.cons_append, List.cons_append, within_cons, readX, readLower,
      readUpper]
    rfl

theorem Stack.top_append {depth : Nat} {x : Bytes} (h : stack.top depth = .ok x) :
    Stack.top (stack ++ below) depth = .ok x := by
  unfold top at h ⊢
  split at h
  · next found =>
    obtain ⟨inRange, _⟩ := List.getElem?_eq_some_iff.1 found
    cases h
    rw [List.getElem?_append_left inRange, found]
  · cases h

theorem Stack.remove_append {depth : Nat} {x : Bytes} {others : Stack}
    (h : stack.remove depth = .ok (x, others)) :
    Stack.remove (stack ++ below) depth = .ok (x, others ++ below) := by
  unfold remove at h ⊢
  split at h
  · next found =>
    obtain ⟨inRange, _⟩ := List.getElem?_eq_some_iff.1 found
    cases h
    rw [List.getElem?_append_left inRange, found]
    dsimp only
    rw [List.eraseIdx_append_of_lt_length inRange]
  · cases h

theorem MultiSig.readKeyCount_append {count : Nat} (h : readKeyCount flags stack = .ok count) :
    readKeyCount flags (stack ++ below) = .ok count := by
  cases stack with
  | nil => cases h
  | cons x rest => exact h

theorem lt_length_of_drop_eq_cons {n : Nat} {x : Bytes} {rest : Stack}
    (h : stack.drop n = x :: rest) : n < stack.length :=
  (List.getElem?_eq_some_iff.1 (MultiSig.drop_eq_cons h).1).1

theorem drop_append_of_eq_cons {n : Nat} {x : Bytes} {rest : Stack}
    (h : stack.drop n = x :: rest) : (stack ++ below).drop n = x :: (rest ++ below) := by
  rw [List.drop_append_of_le_length (Nat.le_of_lt (lt_length_of_drop_eq_cons h)), h]
  rfl

/-- The arguments of a check end with its spare element, so what is below that is only passed on. -/
theorem MultiSig.readArguments_append {keyCount : Nat} {args : Arguments}
    (h : readArguments flags keyCount stack = .ok args) :
    readArguments flags keyCount (stack ++ below) =
      .ok { args with rest := args.rest ++ below } := by
  unfold readArguments at h ⊢
  split at h
  · cases h
  · next x deeper hdrop =>
    rw [drop_append_of_eq_cons hdrop]
    split at h
    · next count hcount =>
      split at h
      · cases h
      · next spare rest hspare =>
        cases h
        have many : keyCount + 1 < stack.length := lt_length_of_drop_eq_cons hdrop
        have enough : count < deeper.length := lt_length_of_drop_eq_cons hspare
        have keys : ((stack ++ below).drop 1).take keyCount = (stack.drop 1).take keyCount := by
          rw [List.drop_append_of_le_length (by omega), List.take_append_of_le_length]
          rw [List.length_drop]
          omega
        have signatures : (deeper ++ below).take count = deeper.take count :=
          List.take_append_of_le_length (Nat.le_of_lt enough)
        dsimp only
        rw [hcount, keys]
        dsimp only
        rw [drop_append_of_eq_cons hspare, signatures]
    · cases h

end Operands

section Operations

variable {env : Environment} {script : Script} {index : Nat} {below : Stack}

theorem Context.countOps_deepens (ctx : Context) (n : Nat) :
    (ctx.countOps n).Deepens below ((ctx.above below).countOps n) := by
  unfold countOps above
  dsimp only
  split
  · exact Outcome.deepens_fail
  · exact Outcome.deepens_ok

theorem Context.setConditionals_deepens (ctx : Context) (r : Except ScriptError Conditionals) :
    (ctx.setConditionals r).Deepens below ((ctx.above below).setConditionals r) := by
  cases r with
  | error error => exact Outcome.deepens_fail
  | ok conditionals => exact Outcome.deepens_ok

theorem Context.openIf_deepens (ctx : Context) (negated : Bool) :
    (ctx.openIf negated).Deepens below ((ctx.above below).openIf negated) := by
  have executing : (ctx.above below).isExecuting = ctx.isExecuting := rfl
  unfold openIf
  rw [executing]
  split
  · rcases ctx with ⟨_ | ⟨x, rest⟩, altStack, conditionals, opCount, codeStart⟩
    · exact Outcome.deepens_fail
    · exact Context.setConditionals_deepens ⟨rest, altStack, conditionals, opCount, codeStart⟩ _
  · exact ctx.setConditionals_deepens _

theorem Context.pickOrRoll_deepens (ctx : Context) (flags : Flags) (move : Bool) :
    (ctx.pickOrRoll flags move).Deepens below ((ctx.above below).pickOrRoll flags move) := by
  rcases ctx with ⟨_ | ⟨x, _ | ⟨y, rest⟩⟩, altStack, conditionals, opCount, codeStart⟩
  · exact Outcome.deepens_fail
  · exact Outcome.deepens_fail
  · unfold pickOrRoll above
    dsimp only [List.cons_append]
    split
    · split
      · refine Outcome.deepens_ofStack fun stack found => ?_
        cases move with
        | true =>
          obtain ⟨⟨item, others⟩, removed, rfl⟩ := except_map_eq_ok.1 found
          exact except_map_eq_ok.2 ⟨(item, others ++ below), Stack.remove_append removed, rfl⟩
        | false =>
          obtain ⟨item, there, rfl⟩ := except_map_eq_ok.1 found
          exact except_map_eq_ok.2 ⟨item, Stack.top_append there, rfl⟩
      · exact Outcome.deepens_fail
    · exact Outcome.deepens_fail

theorem Context.checkSig_deepens (ctx : Context) (demand : Bool) :
    (ctx.checkSig env script demand).Deepens below
      ((ctx.above below).checkSig env script demand) := by
  rcases ctx with ⟨_ | ⟨key, _ | ⟨signature, rest⟩⟩, altStack, conditionals, opCount, codeStart⟩
  · exact Outcome.deepens_fail
  · exact Outcome.deepens_fail
  · unfold checkSig above
    dsimp only [List.cons_append]
    split
    · exact Outcome.deepens_conclude.asked _
    · exact Outcome.deepens_fail

theorem MultiSig.judge_deepens (ctx : Context) (demand : Bool) (args : Arguments) :
    (judge env script demand ctx args).Deepens below
      (judge env script demand (ctx.above below) { args with rest := args.rest ++ below }) := by
  unfold judge finish Context.above
  dsimp only
  split
  · refine Outcome.Deepens.asked ?_ _
    split
    · exact Outcome.deepens_fail
    · exact Outcome.deepens_conclude
  · exact Outcome.deepens_fail.asked _

theorem Context.checkMultiSig_deepens (ctx : Context) (demand : Bool) :
    (ctx.checkMultiSig env script demand).Deepens below
      ((ctx.above below).checkMultiSig env script demand) := by
  unfold checkMultiSig
  split
  · next keyCount counted =>
    have deeper : MultiSig.readKeyCount env.flags (ctx.above below).stack = .ok keyCount :=
      MultiSig.readKeyCount_append counted
    rw [deeper]
    refine (ctx.countOps_deepens keyCount).andThen fun ctx => ?_
    split
    · next args read =>
      have deeper : MultiSig.readArguments env.flags keyCount (ctx.above below).stack =
          .ok { args with rest := args.rest ++ below } := MultiSig.readArguments_append read
      rw [deeper]
      exact MultiSig.judge_deepens ctx demand args
    · exact Outcome.deepens_fail
  · exact Outcome.deepens_fail

/-- An instruction that does not push the depth finds the elements it looks at in the same places
above more elements. -/
theorem Instruction.run_deepens {instruction : Instruction} (relative : instruction ≠ .depth)
    (ctx : Context) :
    (instruction.run env script index ctx).Deepens below
      (instruction.run env script index (ctx.above below)) := by
  cases instruction with
  | depth => exact absurd rfl relative
  | openIf negated => exact ctx.openIf_deepens negated
  | otherwise => exact ctx.setConditionals_deepens _
  | endIf => exact ctx.setConditionals_deepens _
  | pick => exact ctx.pickOrRoll_deepens _ _
  | roll => exact ctx.pickOrRoll_deepens _ _
  | checkSig demand => exact ctx.checkSig_deepens demand
  | checkMultiSig demand => exact ctx.checkMultiSig_deepens demand
  | shuffle op => exact Outcome.deepens_ofStack fun _ => Shuffle.apply_append
  | unary op => exact Outcome.deepens_ofStack fun _ => UnaryOp.run_append
  | binary op => exact Outcome.deepens_ofStack fun _ => BinaryOp.run_append
  | within => exact Outcome.deepens_ofStack fun _ => Stack.within_append
  | numEqualVerify =>
    unfold run
    dsimp only
    split
    · next a b rest read =>
      have deeper : env.flags.readTwo (ctx.above below).stack = .ok (a, b, rest ++ below) :=
        Flags.readTwo_append read
      rw [deeper]
      exact @Outcome.deepens_conclude below { ctx with stack := rest } _ _ _
    · exact Outcome.deepens_fail
  | push | versionIf | reserved | disabled | ret => exact Outcome.deepens_fail
  | pushNumber n => exact Outcome.deepens_ok
  | nop => exact Outcome.deepens_ok
  | codeSeparator => exact Outcome.deepens_ok
  | upgradableNop =>
    unfold run
    dsimp only
    split
    · exact Outcome.deepens_fail
    · exact Outcome.deepens_ok
  | verify =>
    rcases ctx with ⟨_ | ⟨x, rest⟩, altStack, conditionals, opCount, codeStart⟩
    · exact Outcome.deepens_fail
    · unfold run Context.above
      dsimp only [List.cons_append]
      split
      · exact Outcome.deepens_ok
      · exact Outcome.deepens_fail
  | toAltStack =>
    rcases ctx with ⟨_ | ⟨x, rest⟩, altStack, conditionals, opCount, codeStart⟩
    · exact Outcome.deepens_fail
    · exact Outcome.deepens_ok
  | fromAltStack =>
    rcases ctx with ⟨stack, _ | ⟨x, rest⟩, conditionals, opCount, codeStart⟩
    · exact Outcome.deepens_fail
    · exact Outcome.deepens_ok
  | size =>
    rcases ctx with ⟨_ | ⟨x, rest⟩, altStack, conditionals, opCount, codeStart⟩
    · exact Outcome.deepens_fail
    · exact Outcome.deepens_ok
  | equal demand =>
    rcases ctx with ⟨_ | ⟨y, _ | ⟨x, rest⟩⟩, altStack, conditionals, opCount, codeStart⟩
    · exact Outcome.deepens_fail
    · exact Outcome.deepens_fail
    · exact Outcome.deepens_conclude
  | hash function =>
    rcases ctx with ⟨_ | ⟨x, rest⟩, altStack, conditionals, opCount, codeStart⟩
    · exact Outcome.deepens_fail
    · exact Outcome.deepens_ok

theorem Context.pushData_deepens (ctx : Context) (flags : Flags) (form : PushForm) (data : Bytes) :
    (ctx.pushData flags form data).Deepens below
      ((ctx.above below).pushData flags form data) := by
  have executing : (ctx.above below).isExecuting = ctx.isExecuting := rfl
  unfold pushData
  rw [executing]
  split
  · exact Outcome.deepens_fail
  · split
    · exact Outcome.deepens_ok
    · split
      · exact Outcome.deepens_fail
      · exact Outcome.deepens_ok

theorem Operation.count_deepens (op : Operation) (ctx : Context) :
    (op.count ctx).Deepens below (op.count (ctx.above below)) := by
  unfold count
  split
  · exact ctx.countOps_deepens 1
  · exact Outcome.deepens_ok

/-- The check of the depth is the one place where a deeper stack makes a difference. -/
theorem Context.checkDepth_deepens (ctx : Context) :
    ctx.checkDepth.Deepens below (ctx.above below).checkDepth := by
  intro succeeds
  by_cases deep : Limits.stackSize < ctx.depth
  · rw [checkDepth_of_lt deep] at succeeds
    cases succeeds
  · rw [checkDepth_of_le (Nat.le_of_not_lt deep)]
    by_cases deeper : Limits.stackSize < (ctx.above below).depth
    · rw [checkDepth_of_lt deeper]
      exact Or.inr rfl
    · rw [checkDepth_of_le (Nat.le_of_not_lt deeper)]
      exact Or.inl rfl

theorem Operation.step_deepens {op : Operation} (relative : op ≠ .code 0x74) (ctx : Context) :
    (op.step env script index ctx).Deepens below
      (op.step env script index (ctx.above below)) := by
  refine Outcome.Deepens.andThen ?_ Context.checkDepth_deepens
  cases op with
  | push form data => exact ctx.pushData_deepens _ form data
  | code opcode =>
    have relative : Instruction.ofOpcode opcode ≠ .depth := fun depth =>
      relative (congrArg Operation.code (Instruction.ofOpcode_eq_depth_iff.1 depth))
    unfold run
    refine (count_deepens _ ctx).andThen fun ctx => ?_
    have executing : (ctx.above below).isExecuting = ctx.isExecuting := rfl
    dsimp only
    rw [executing]
    split
    · exact Outcome.deepens_fail
    · split
      · exact Instruction.run_deepens relative ctx
      · exact Outcome.deepens_ok

theorem Script.runFrom_deepens {ops : List Operation} (relative : ∀ op ∈ ops, op ≠ .code 0x74)
    (index : Nat) (ctx : Context) :
    (script.runFrom env index ops ctx).Deepens below
      (script.runFrom env index ops (ctx.above below)) := by
  induction ops generalizing index ctx with
  | nil => exact Outcome.deepens_ok
  | cons op ops ih =>
    obtain ⟨first, later⟩ := List.forall_mem_cons.1 relative
    exact (Operation.step_deepens first ctx).andThen (ih later (index + 1))

theorem Context.checkClosed_deepens (ctx : Context) :
    ctx.checkClosed.Deepens below (ctx.above below).checkClosed := by
  unfold checkClosed above
  dsimp only
  split
  · exact Outcome.deepens_ok
  · exact Outcome.deepens_fail

end Operations

namespace Script

variable {script : Script} {env : Environment} {ctx : Context}

theorem execute_deepens (relative : ∀ op ∈ script, op ≠ .code 0x74) (below : Stack) :
    (script.execute env ctx).Deepens below (script.execute env (ctx.above below)) :=
  (runFrom_deepens relative 0 ctx).andThen Context.checkClosed_deepens

/-- A script that does not push the depth and succeeds on a stack does the same above any further
elements and leaves them as they are, or the stacks become too deep. -/
theorem execute_above (relative : ∀ op ∈ script, op ≠ .code 0x74)
    (succeeds : (script.execute env ctx).result = .ok ()) (below : Stack) :
    let o := script.execute env ctx
    let deeper := script.execute env { ctx with stack := ctx.stack ++ below }
    deeper.result = .error .stackSize ∨
      deeper.result = .ok () ∧ deeper.queries = o.queries ∧
        deeper.context = { o.context with stack := o.context.stack ++ below } := by
  intro o deeper
  rcases execute_deepens relative below succeeds with same | deep
  · have same : deeper = o.above below := same
    rw [same]
    exact Or.inr ⟨succeeds, rfl, rfl⟩
  · exact Or.inl deep

/-- The number of keys is rolled up from the bottom, and the check then takes all there is; the two
elements below it are still there afterwards. -/
theorem execute_above_roll :
    let script : Script := [.code 0x7a, .code 0xae]
    let ctx : Context := { stack := [[4], [2], [1], [3], [], [1]] }
    let deeper := script.execute {} { ctx with stack := ctx.stack ++ [[5], [6]] }
    (script.execute {} ctx).context.stack = [[]] ∧ deeper.result = .ok () ∧
      deeper.context.stack = [[], [5], [6]] ∧ deeper.queries.length = 1 := by
  intro script ctx deeper
  have relative : ∀ op ∈ script, op ≠ .code 0x74 := by decide
  have succeeds : (script.execute {} ctx).result = .ok () := by decide +kernel
  have stack : (script.execute {} ctx).context.stack = [[]] := by decide +kernel
  have asked : (script.execute {} ctx).queries.length = 1 := by decide +kernel
  have shallow : deeper.result = .ok () := by decide +kernel
  obtain ⟨queries, context⟩ : deeper.queries = (script.execute {} ctx).queries ∧
      deeper.context = (script.execute {} ctx).context.above [[5], [6]] := by
    rcases execute_above relative succeeds [[5], [6]] with deep | ⟨_, same⟩
    · rw [shallow] at deep
      cases deep
    · exact same
  refine ⟨stack, shallow, ?_, ?_⟩
  · rw [context]
    show (script.execute {} ctx).context.stack ++ [[5], [6]] = _
    rw [stack]
    rfl
  · rw [queries, asked]

end Script
end SpendScript
