import SpendScript.Proofs.KeyMatching

/-!
# What operations do to the main stack

The results of the operations that work on the main stack alone, seen through what they keep: a
shuffle invents no element and adds at most three, arithmetic replaces its operands by one short
number, and a check of several signatures removes what it read. A refusal leaves no new stack, and
its reason is one of two.
-/
set_option autoImplicit false

namespace SpendScript

/-- How many elements the shuffle adds at most. -/
def Shuffle.growth : Shuffle → Nat
  | .dup | .ifDup | .over | .tuck => 1
  | .twoDup | .twoOver => 2
  | .threeDup => 3
  | _ => 0

theorem Shuffle.growth_le (op : Shuffle) : op.growth ≤ 3 := by
  cases op <;> decide

theorem Shuffle.apply_length_le {op : Shuffle} {stack result : Stack}
    (h : op.apply stack = .ok result) : result.length ≤ stack.length + op.growth := by
  unfold apply at h
  split at h
  case h_4 =>
    cases h
    split <;> simp [growth]
  all_goals
    cases h
    try simp only [List.length_cons, growth]
    try omega

theorem Shuffle.mem_of_apply {op : Shuffle} {stack result : Stack}
    (h : op.apply stack = .ok result) {x : Bytes} (hx : x ∈ result) : x ∈ stack := by
  unfold apply at h
  split at h
  case h_4 =>
    cases h
    split at hx <;> simp_all
  all_goals
    cases h
    try simp only [List.mem_cons] at hx ⊢
    try grind

theorem Shuffle.apply_error {op : Shuffle} {stack : Stack} {error : ScriptError}
    (h : op.apply stack = .error error) : error = .invalidStackOperation := by
  unfold apply at h
  split at h
  case h_15 =>
    cases h
    rfl
  all_goals cases h

theorem ScriptNum.ofInt?_error {v : Int} {error : ScriptError} (h : ofInt? v = .error error) :
    error = .unknown := by
  rw [ofInt?] at h
  split at h
  · cases h
  · cases h
    rfl

theorem UnaryOp.apply_error {op : UnaryOp} {n : ScriptNum} {error : ScriptError}
    (h : op.apply n = .error error) : error = .unknown := by
  unfold apply ScriptNum.add? ScriptNum.sub? ScriptNum.neg? ScriptNum.abs? at h
  split at h
  all_goals
    first
    | exact ScriptNum.ofInt?_error h
    | cases h

theorem BinaryOp.apply_error {op : BinaryOp} {a b : ScriptNum} {error : ScriptError}
    (h : op.apply a b = .error error) : error = .unknown := by
  unfold apply ScriptNum.add? ScriptNum.sub? at h
  split at h
  all_goals
    first
    | exact ScriptNum.ofInt?_error h
    | cases h

/-- The reasons for which arithmetic and the addressing of elements are refused. -/
def ScriptError.isOperandReason : ScriptError → Bool
  | .invalidStackOperation | .unknown => true
  | _ => false

/-- Arithmetic on one number replaces the top by the bytes of a number. -/
theorem UnaryOp.run_eq_ok {op : UnaryOp} {flags : Flags} {stack result : Stack}
    (h : op.run flags stack = .ok result) :
    ∃ x rest n, stack = x :: rest ∧ result = ScriptNum.encode n :: rest := by
  cases stack with
  | nil => cases h
  | cons x rest =>
    rw [run_cons, except_bind_eq_ok] at h
    obtain ⟨n, _, h⟩ := h
    obtain ⟨value, _, rfl⟩ := except_map_eq_ok.1 h
    exact ⟨x, rest, value, rfl, rfl⟩

theorem UnaryOp.run_error {op : UnaryOp} {flags : Flags} {stack : Stack} {error : ScriptError}
    (h : op.run flags stack = .error error) : error.isOperandReason = true := by
  cases stack with
  | nil =>
    cases h
    rfl
  | cons x rest =>
    rw [run_cons, except_bind_eq_error] at h
    rcases h with unread | ⟨n, _, h⟩
    · rw [Flags.readNumber_error unread]
      rfl
    · rw [apply_error (except_map_eq_error.1 h)]
      rfl

theorem Flags.readTwo_eq_ok {flags : Flags} {stack rest : Stack} {a b : ScriptNum}
    (h : flags.readTwo stack = .ok (a, b, rest)) : ∃ y x, stack = y :: x :: rest := by
  rcases stack with _ | ⟨y, _ | ⟨x, below⟩⟩
  · cases h
  · cases h
  · rw [readTwo_cons, except_bind_eq_ok] at h
    obtain ⟨_, _, h⟩ := h
    obtain ⟨_, _, h⟩ := except_bind_eq_ok.1 h
    cases h
    exact ⟨y, x, rfl⟩

theorem Flags.readTwo_error {flags : Flags} {stack : Stack} {error : ScriptError}
    (h : flags.readTwo stack = .error error) : error.isOperandReason = true := by
  rcases stack with _ | ⟨y, _ | ⟨x, below⟩⟩
  · cases h
    rfl
  · cases h
    rfl
  · rw [readTwo_cons, except_bind_eq_error] at h
    rcases h with unread | ⟨_, _, h⟩
    · rw [readNumber_error unread]
      rfl
    · rcases except_bind_eq_error.1 h with unread | ⟨_, _, h⟩
      · rw [readNumber_error unread]
        rfl
      · cases h

theorem BinaryOp.run_eq_ok {op : BinaryOp} {flags : Flags} {stack result : Stack}
    (h : op.run flags stack = .ok result) :
    ∃ y x rest n, stack = y :: x :: rest ∧ result = ScriptNum.encode n :: rest := by
  rw [run_eq_bind, except_bind_eq_ok] at h
  obtain ⟨⟨a, b, rest⟩, read, h⟩ := h
  obtain ⟨value, _, rfl⟩ := except_map_eq_ok.1 h
  obtain ⟨y, x, rfl⟩ := Flags.readTwo_eq_ok read
  exact ⟨y, x, rest, value, rfl, rfl⟩

theorem BinaryOp.run_error {op : BinaryOp} {flags : Flags} {stack : Stack} {error : ScriptError}
    (h : op.run flags stack = .error error) : error.isOperandReason = true := by
  rw [run_eq_bind, except_bind_eq_error] at h
  rcases h with unread | ⟨operands, _, h⟩
  · exact Flags.readTwo_error unread
  · rw [apply_error (except_map_eq_error.1 h)]
    rfl

theorem Stack.within_eq_ok {flags : Flags} {stack result : Stack}
    (h : stack.within flags = .ok result) :
    ∃ upper lower x rest answer, stack = upper :: lower :: x :: rest ∧
      result = Stack.ofBool answer :: rest := by
  rcases stack with _ | ⟨upper, _ | ⟨lower, _ | ⟨x, rest⟩⟩⟩
  · cases h
  · cases h
  · cases h
  · rw [within_cons, except_bind_eq_ok] at h
    obtain ⟨_, _, h⟩ := h
    obtain ⟨_, _, h⟩ := except_bind_eq_ok.1 h
    obtain ⟨_, _, h⟩ := except_bind_eq_ok.1 h
    cases h
    exact ⟨upper, lower, x, rest, _, rfl, rfl⟩

theorem Stack.within_error {flags : Flags} {stack : Stack} {error : ScriptError}
    (h : stack.within flags = .error error) : error.isOperandReason = true := by
  have unknown {x : Bytes} (unread : flags.readNumber x = .error error) :
      error.isOperandReason = true := by
    rw [Flags.readNumber_error unread]
    rfl
  rcases stack with _ | ⟨upper, _ | ⟨lower, _ | ⟨x, rest⟩⟩⟩
  · cases h
    rfl
  · cases h
    rfl
  · cases h
    rfl
  · rw [within_cons, except_bind_eq_error] at h
    rcases h with unread | ⟨_, _, h⟩
    · exact unknown unread
    · rcases except_bind_eq_error.1 h with unread | ⟨_, _, h⟩
      · exact unknown unread
      · rcases except_bind_eq_error.1 h with unread | ⟨_, _, h⟩
        · exact unknown unread
        · cases h

theorem Stack.top_eq_ok {stack : Stack} {depth : Nat} {x : Bytes} (h : stack.top depth = .ok x) :
    x ∈ stack := by
  rw [top] at h
  split at h
  · next found =>
    cases h
    exact List.mem_of_getElem? found
  · cases h

theorem Stack.top_error {stack : Stack} {depth : Nat} {error : ScriptError}
    (h : stack.top depth = .error error) : error = .invalidStackOperation := by
  rw [top] at h
  split at h
  · cases h
  · cases h
    rfl

theorem Stack.length_le_of_top_error {stack : Stack} {depth : Nat} {error : ScriptError}
    (h : stack.top depth = .error error) : stack.length ≤ depth := by
  rw [top] at h
  split at h
  · cases h
  · next missing => exact List.getElem?_eq_none_iff.1 missing

theorem Stack.remove_eq_ok {stack others : Stack} {depth : Nat} {x : Bytes}
    (h : stack.remove depth = .ok (x, others)) : x ∈ stack ∧ others.Sublist stack := by
  rw [remove] at h
  split at h
  · next found =>
    cases h
    exact ⟨List.mem_of_getElem? found, List.eraseIdx_sublist stack depth⟩
  · cases h

theorem Stack.remove_error {stack : Stack} {depth : Nat} {error : ScriptError}
    (h : stack.remove depth = .error error) : error = .invalidStackOperation := by
  rw [remove] at h
  split at h
  · cases h
  · cases h
    rfl

theorem Stack.length_le_of_remove_error {stack : Stack} {depth : Nat} {error : ScriptError}
    (h : stack.remove depth = .error error) : stack.length ≤ depth := by
  rw [remove] at h
  split at h
  · cases h
  · next missing => exact List.getElem?_eq_none_iff.1 missing

/-- A scan that ends without an answer met a pair that breaks an encoding rule. -/
theorem MultiSig.scan_error {env : Environment} {code : Bytes} {signatures keys : List Bytes}
    {error : ScriptError} (h : (scan env code signatures keys).result = .error error) :
    ∃ signature key, env.flags.checkEncodings signature key = .error error := by
  induction keys generalizing signatures with
  | nil => cases signatures <;> cases h
  | cons key keys ih =>
    cases signatures with
    | nil => cases h
    | cons signature signatures =>
      rw [scan] at h
      split at h
      · cases h
      · split at h
        · exact ih h
        · next refused =>
          cases h
          exact ⟨signature, key, refused⟩

/-- The reasons for which the arguments of a check of several signatures are not found. -/
def ScriptError.isArgumentReason : ScriptError → Bool
  | .invalidStackOperation | .unknown | .pubkeyCount | .sigCount => true
  | _ => false

theorem MultiSig.readKeyCount_eq_ok {flags : Flags} {stack : Stack} {keyCount : Nat}
    (h : readKeyCount flags stack = .ok keyCount) : keyCount ≤ Limits.keysPerMultiSig := by
  unfold readKeyCount at h
  split at h
  · obtain ⟨_, _, _, few⟩ := readCount_eq_ok_iff.1 h
    exact few
  · cases h

theorem MultiSig.readKeyCount_error {flags : Flags} {stack : Stack} {error : ScriptError}
    (h : readKeyCount flags stack = .error error) : error.isArgumentReason = true := by
  unfold readKeyCount at h
  split at h
  · rcases readCount_error h with rfl | rfl <;> rfl
  · cases h
    rfl

theorem MultiSig.readArguments_error {flags : Flags} {keyCount : Nat} {stack : Stack}
    {error : ScriptError} (h : readArguments flags keyCount stack = .error error) :
    error.isArgumentReason = true := by
  rw [readArguments] at h
  split at h
  · cases h
    rfl
  · split at h
    · split at h
      · cases h
        rfl
      · cases h
    · next unread =>
      cases h
      rcases readCount_error unread with rfl | rfl <;> rfl

end SpendScript
