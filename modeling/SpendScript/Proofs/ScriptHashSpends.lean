import SpendScript.Proofs.ResourceLimits
import SpendScript.Proofs.ValidSpends

/-!
# Spends of a script hash

The template that pays to a script hash is one short script: hash the top, push 20 bytes, compare.
Run on any stack it fails for want of an element or of room, since the pushed bytes stand beside
the whole stack for one step, and otherwise it leaves the answer in place of the top. With that the
chain of runs behind a valid spend has no locking script in it any more.
-/
set_option autoImplicit false

namespace SpendScript

namespace Script

/-- Hashes the top and compares it with the given bytes. -/
def payToHash (hash : Bytes) : Script :=
  [.code 0xa9, .push .direct hash, .code 0x87]

variable {hash : Bytes}

theorem encode_payToHash (h : hash.length = 20) :
    (payToHash hash).encode = 0xa9 :: 0x14 :: (hash ++ [0x87]) := by
  simp [payToHash, encode, Operation.encode, PushForm.opcode, PushForm.width, Bytes.ofNatLE, h]

theorem isScriptHashTemplate_iff {bs : Bytes} :
    isScriptHashTemplate bs = true ↔ ∃ hash, hash.length = 20 ∧ bs = (payToHash hash).encode := by
  constructor
  · intro h
    unfold isScriptHashTemplate at h
    split at h
    · next rest =>
      rw [Bool.and_eq_true, beq_iff_eq, beq_iff_eq] at h
      obtain ⟨length, last⟩ := h
      obtain ⟨hash, rfl⟩ := List.getLast?_eq_some_iff.1 last
      rw [List.length_append, List.length_singleton] at length
      have h20 : hash.length = 20 := by omega
      exact ⟨hash, h20, (encode_payToHash h20).symm⟩
    · cases h
  · intro h
    obtain ⟨hash, h20, rfl⟩ := h
    rw [encode_payToHash h20]
    simp [isScriptHashTemplate, h20]

theorem decode_payToHash (h : hash.length = 20) :
    decode (payToHash hash).encode = .ok (payToHash hash) := by
  refine decode_encode ?_ ?_
  · intro op hop
    simp only [payToHash, List.mem_cons, List.not_mem_nil, or_false] at hop
    rcases hop with rfl | rfl | rfl
    · exact (by decide : (0x4e : UInt8) < 0xa9)
    · exact (h.trans_lt (by decide) : hash.length < 76)
    · exact (by decide : (0x4e : UInt8) < 0x87)
  · rw [encode_payToHash h]
    simp [h, Limits.scriptSize]

/-- Data of twenty bytes is minimal in the shortest form, so no flag refuses its push. -/
theorem step_push_hash (h : hash.length = 20) {env : Environment} {script : Script} {index : Nat}
    {ctx : Context} (executing : ctx.isExecuting = true) :
    (Operation.push .direct hash).step env script index ctx = (ctx.push hash).checkDepth := by
  have minimal : isMinimalPush (PushForm.opcode .direct hash.length) hash = true := by
    rw [h]
    unfold isMinimalPush
    split
    · cases h
    · cases h
    · rw [h]
      rfl
  unfold Operation.step Operation.run Context.pushData
  dsimp only
  rw [if_neg (by rw [h]; decide), executing, minimal]
  simp

variable {env : Environment} {x : Bytes} {rest : Stack}

theorem step_hash_top (script : Script) :
    (Operation.code 0xa9).step env script 0 (.start (x :: rest)) =
      Context.checkDepth { stack := env.hashing.digest .hash160 x :: rest, opCount := 1 } := rfl

theorem step_compare (script : Script) :
    (Operation.code 0x87).step env script 2
        { stack := hash :: env.hashing.digest .hash160 x :: rest, opCount := 1 } =
      Context.checkDepth
        { stack := Stack.ofBool (env.hashing.digest .hash160 x == hash) :: rest, opCount := 2 } :=
  rfl

theorem execute_payToHash (h : hash.length = 20) (room : rest.length + 2 ≤ Limits.stackSize) :
    (payToHash hash).execute env (.start (x :: rest)) = .ok
      { stack := Stack.ofBool (env.hashing.digest .hash160 x == hash) :: rest, opCount := 2 } := by
  let hashed : Context := { stack := env.hashing.digest .hash160 x :: rest, opCount := 1 }
  have both : (hashed.push hash).depth ≤ Limits.stackSize := room
  have fits (y : Bytes) (n : Nat) :
      Context.depth { stack := y :: rest, opCount := n } ≤ Limits.stackSize := by
    show rest.length + 1 + 0 ≤ Limits.stackSize
    omega
  unfold execute payToHash
  rw [runFrom, step_hash_top, Context.checkDepth_of_le (fits _ _), Outcome.ok_andThen, runFrom,
    step_push_hash h rfl, Context.checkDepth_of_le both, Outcome.ok_andThen, runFrom]
  rw [Context.push, step_compare, Context.checkDepth_of_le (fits _ _)]
  rfl

/-- The pushed bytes stand beside the whole stack when its depth is looked at. -/
theorem execute_payToHash_deep (h : hash.length = 20)
    (deep : Limits.stackSize < rest.length + 2) :
    ((payToHash hash).execute env (.start (x :: rest))).result = .error .stackSize := by
  unfold execute payToHash
  rw [runFrom, step_hash_top]
  let hashed : Context := { stack := env.hashing.digest .hash160 x :: rest, opCount := 1 }
  have both : Limits.stackSize < (hashed.push hash).depth := deep
  by_cases long : Limits.stackSize < hashed.depth
  · rw [Context.checkDepth_of_lt long]
    rfl
  · rw [Context.checkDepth_of_le (Nat.le_of_not_lt long), Outcome.ok_andThen, runFrom,
      step_push_hash h rfl, Context.checkDepth_of_lt both]
    rfl

/-- What the template leaves, and the stacks on which it succeeds. -/
theorem payToHash_leaves_iff (h : hash.length = 20) {stack left : Stack} :
    (payToHash hash).Leaves env stack left ↔
      ∃ x rest, stack = x :: rest ∧ stack.length < Limits.stackSize ∧
        left = Stack.ofBool (env.hashing.digest .hash160 x == hash) :: rest := by
  cases stack with
  | nil =>
    refine iff_of_false ?_ nofun
    intro leaves
    cases leaves.1
  | cons x rest =>
    constructor
    · intro leaves
      obtain ⟨succeeds, hleft⟩ := leaves
      by_cases deep : Limits.stackSize < rest.length + 2
      · rw [execute_payToHash_deep h deep] at succeeds
        cases succeeds
      · have room : rest.length + 2 ≤ Limits.stackSize := Nat.le_of_not_lt deep
        rw [execute_payToHash h room] at hleft
        exact ⟨x, rest, rfl, room, hleft.symm⟩
    · intro runs
      obtain ⟨_, _, same, room, rfl⟩ := runs
      cases same
      rw [Leaves, execute_payToHash h room]
      exact ⟨rfl, rfl⟩

/-- What a script leaves obeys the limits if what it began with does. -/
theorem Leaves.within {script : Script} {stack left : Stack} (leaves : script.Leaves env stack left)
    (h : (Context.start stack).Within Limits.stackSize) :
    (Context.start left).Within Limits.stackSize := by
  obtain ⟨succeeds, rfl⟩ := leaves
  obtain ⟨small, depth_le, _, _⟩ := (execute_within h).of_ok succeeds
  refine ⟨fun y hy => ?_, ?_, Nat.zero_le _, Nat.le_refl _⟩
  · rw [Context.start, List.append_nil] at hy
    exact small y (List.mem_append_left _ hy)
  · exact (Nat.le_add_right _ _).trans depth_le

end Script

namespace Spend

variable {env : Environment} {locking unlocking : Bytes}

/-- An event of the redeem stage happens only after both scripts have run. -/
theorem afterLocking_of_mem_events {event : Event}
    (h : event ∈ (verify env locking unlocking).events)
    (late : event = .entered .locking .redeem ∨ ∃ error, event = .failed .redeem error) :
    ∃ script unlocked left, Script.decode unlocking = .ok script ∧
      script.Leaves env [] unlocked ∧ Locks env locking unlocked left ∧
      event ∈ (afterLocking env locking script unlocked left).events := by
  have notBefore {stage : Stage} {error : ScriptError} (early : stage ≠ .redeem) :
      event ≠ .failed stage error := by
    rintro rfl
    simp [early] at late
  have notEntered {before after : Stage} (early : before ≠ .locking) :
      event ≠ .entered before after := by
    rintro rfl
    simp [early] at late
  rw [verify] at h
  split at h
  · rw [Report.failed_events, List.mem_singleton] at h
    exact absurd h (notBefore (by decide))
  · rw [Report.after_events, List.mem_cons, Report.mem_bind_events] at h
    rcases h with entered | ⟨_, _, failed⟩ | ⟨script, decoded, h⟩
    · exact absurd entered (notEntered (by decide))
    · exact absurd failed (notBefore (by decide))
    · rcases Report.mem_running_events.1 h with ⟨_, _, failed⟩ | ⟨unlocked, leaves, h⟩
      · exact absurd failed (notBefore (by decide))
      · rw [lock, Report.after_events, List.mem_cons, Report.mem_bind_events] at h
        rcases h with entered | ⟨_, _, failed⟩ | ⟨lockScript, lockDecoded, h⟩
        · exact absurd entered (notEntered (by decide))
        · exact absurd failed (notBefore (by decide))
        · rcases Report.mem_running_events.1 h with ⟨_, _, failed⟩ | ⟨left, lockLeaves, h⟩
          · exact absurd failed (notBefore (by decide))
          · rcases Report.mem_bind_events.1 h with ⟨_, _, failed⟩ | ⟨_, top, h⟩
            · exact absurd failed (notBefore (by decide))
            · exact ⟨script, unlocked, left, decoded, leaves,
                ⟨lockScript, lockDecoded, lockLeaves, demandTrue_eq_ok.1 top⟩, h⟩

/-- The locking script of a script hash succeeds exactly on the stacks whose top has the hash. -/
theorem locks_iff {hash : Bytes} (h : hash.length = 20) {unlocked left : Stack} :
    Locks env (Script.payToHash hash).encode unlocked left ↔
      ∃ x rest, unlocked = x :: rest ∧ unlocked.length < Limits.stackSize ∧
        env.hashing.digest .hash160 x = hash ∧ left = Stack.ofBool true :: rest := by
  rw [Locks, Script.decode_payToHash h]
  constructor
  · intro locks
    obtain ⟨_, ⟨⟩, leaves, top⟩ := locks
    obtain ⟨x, rest, same, room, rfl⟩ := (Script.payToHash_leaves_iff h).1 leaves
    cases answer : env.hashing.digest .hash160 x == hash with
    | false =>
      rw [answer] at top
      cases top
    | true => exact ⟨x, rest, same, room, beq_iff_eq.1 answer, rfl⟩
  · intro matching
    obtain ⟨x, rest, same, room, hashed, rfl⟩ := matching
    refine ⟨_, rfl, (Script.payToHash_leaves_iff h).2 ⟨x, rest, same, room, ?_⟩, rfl⟩
    rw [hashed, beq_self_eq_true]

/-- Elements are too short to be scripts beyond the size limit, and no run fails for that reason. -/
theorem not_mem_redeem_events {script : Script} {unlocked : Stack}
    (h : (Context.start unlocked).Within Limits.stackSize) :
    .failed .redeem .scriptSize ∉ (redeem env script unlocked).events := by
  intro failed
  unfold redeem at failed
  rw [Report.after_events, List.mem_cons] at failed
  rcases failed with other | failed
  · cases other
  · split at failed
    · rw [Report.failed_events, List.mem_singleton] at failed
      cases failed
    · split at failed
      · rw [Report.failed_events, List.mem_singleton] at failed
        cases failed
      · next serialized rest =>
        have short : serialized.length ≤ Limits.elementSize :=
          h.small_stack serialized List.mem_cons_self
        have below : (Context.start rest).Within Limits.stackSize :=
          h.setSuffix (List.suffix_cons serialized rest)
        rcases Report.mem_bind_events.1 failed with ⟨error, refused, same⟩ | ⟨redeemed, _, failed⟩
        · cases same
          cases Script.decode_error (short.trans (by decide)) refused
        · rcases Report.mem_running_events.1 failed with ⟨error, stopped, same⟩ | ⟨left, _, failed⟩
          · cases same
            cases ((redeemed.execute_within below).of_error stopped).reason
          · rcases Report.mem_bind_events.1 failed with ⟨error, refused, same⟩ | ⟨_, _, failed⟩
            · cases same
              unfold demandTrue at refused
              split at refused <;> cases refused
            · rw [postCheck, Report.after_events, List.mem_cons] at failed
              rcases failed with other | failed
              · cases other
              · split at failed <;> simp at failed

theorem start_within : (Context.start []).Within Limits.stackSize :=
  ⟨nofun, Nat.zero_le _, Nat.zero_le _, Nat.le_refl _⟩

theorem verify_payToHash_valid_iff {hash : Bytes} (length : hash.length = 20)
    (resolves : resolvesHash env.flags (Script.payToHash hash).encode = true) :
    (verify env (Script.payToHash hash).encode unlocking).verdict.valid = true ↔
      ∃ script serialized rest redeemed left,
        Script.decode unlocking = .ok script ∧ script.isPushOnly = true ∧
        script.Leaves env [] (serialized :: rest) ∧
        (serialized :: rest).length < Limits.stackSize ∧
        env.hashing.digest .hash160 serialized = hash ∧
        Script.decode serialized = .ok redeemed ∧ redeemed.Leaves env rest left ∧
        left.topIsTrue = some true ∧ (env.flags.cleanStack = true → left.length = 1) := by
  rw [verify_valid_iff]
  simp only [locks_iff length, resolves, if_true]
  constructor
  · intro valid
    obtain ⟨_, script, unlocked, _, decoded, leaves, locks, pushOnly, redeems⟩ := valid
    obtain ⟨serialized, rest, rfl, room, hashed, _⟩ := locks
    obtain ⟨_, _, redeemed, left, ⟨⟩, redeemDecoded, redeemLeaves, top, clean⟩ := redeems
    exact ⟨script, serialized, rest, redeemed, left, decoded, pushOnly, leaves, room, hashed,
      redeemDecoded, redeemLeaves, top, clean⟩
  · intro chain
    obtain ⟨script, serialized, rest, redeemed, left, decoded, pushOnly, leaves, room, hashed,
      redeemDecoded, redeemLeaves, top, clean⟩ := chain
    refine ⟨fun _ => ?_, script, serialized :: rest, _, decoded, leaves,
      ⟨serialized, rest, rfl, room, hashed, rfl⟩, pushOnly, ?_⟩
    · rw [Script.isPushOnlyBytes_of_decode decoded, pushOnly]
    · exact ⟨serialized, rest, redeemed, left, rfl, redeemDecoded, redeemLeaves, top, clean⟩

/-- Where a script behind a hash is resolved, the redeem stage does not fail for its size. -/
theorem not_mem_verify_events (resolves : resolvesHash env.flags locking = true) :
    .failed .redeem .scriptSize ∉ (verify env locking unlocking).events := by
  intro failed
  obtain ⟨script, unlocked, left, _, leaves, _, failed⟩ :=
    afterLocking_of_mem_events failed (Or.inr ⟨_, rfl⟩)
  have hash : (env.flags.p2sh && Script.isScriptHashTemplate locking) = true := resolves
  rw [afterLocking, Report.after_events, List.mem_cons, if_pos hash] at failed
  rcases failed with other | failed
  · cases other
  · exact not_mem_redeem_events (leaves.within start_within) failed

/-- A spend of a script hash is valid exactly if the unlocking script only pushes and leaves, below
the limit on depth, a script with the hash that succeeds on the elements below it. When that script
is to be run there always is one, and it is never too long. This is so whatever function to twenty
bytes the hash is. -/
theorem verify_scriptHash_iff (enabled : env.flags.p2sh = true)
    (template : Script.isScriptHashTemplate locking = true) :
    ((verify env locking unlocking).verdict.valid = true ↔
      ∃ script serialized rest redeemed left,
        Script.decode unlocking = .ok script ∧ script.isPushOnly = true ∧
        script.Leaves env [] (serialized :: rest) ∧
        (serialized :: rest).length < Limits.stackSize ∧
        env.hashing.digest .hash160 serialized = (locking.drop 2).take 20 ∧
        Script.decode serialized = .ok redeemed ∧ redeemed.Leaves env rest left ∧
        left.topIsTrue = some true ∧ (env.flags.cleanStack = true → left.length = 1)) ∧
    .failed .redeem .scriptSize ∉ (verify env locking unlocking).events ∧
    (.entered .locking .redeem ∈ (verify env locking unlocking).events →
      ∃ script serialized rest, Script.decode unlocking = .ok script ∧
        script.Leaves env [] (serialized :: rest)) := by
  have resolves : resolvesHash env.flags locking = true := by
    rw [resolvesHash, enabled, template]
    rfl
  obtain ⟨hash, length, rfl⟩ := Script.isScriptHashTemplate_iff.1 template
  have named : ((Script.payToHash hash).encode.drop 2).take 20 = hash := by
    rw [Script.encode_payToHash length]
    exact List.take_left' length
  refine ⟨?_, not_mem_verify_events resolves, ?_⟩
  · rw [named]
    exact verify_payToHash_valid_iff length resolves
  · intro entered
    obtain ⟨script, unlocked, left, decoded, leaves, locks, _⟩ :=
      afterLocking_of_mem_events entered (Or.inl rfl)
    obtain ⟨serialized, rest, rfl, _⟩ := (locks_iff length).1 locks
    exact ⟨script, serialized, rest, decoded, leaves⟩

/-- A push of the script that is hidden behind its hash is enough when that script needs nothing. -/
theorem verify_scriptHash_iff_one :
    (verify { flags := { p2sh := true, cleanStack := true } }
      (Script.payToHash (Digest.hash160 [0x51])).encode [0x01, 0x51]).verdict.valid = true := by
  have length : (Digest.hash160 [0x51]).length = 20 := Digest.length_hash160 _
  have template := Script.isScriptHashTemplate_iff.2 ⟨_, length, rfl⟩
  have pushed : Script.decode [0x01, 0x51] = .ok [.push .direct [0x51]] :=
    @Script.decode_encode [.push .direct [0x51]] (by decide) (by decide)
  have hidden : Script.decode [0x51] = .ok [.code 0x51] :=
    @Script.decode_encode [.code 0x51] (by decide) (by decide)
  have hashed : Digest.hash160 [0x51] =
      ((Script.payToHash (Digest.hash160 [0x51])).encode.drop 2).take 20 := by
    rw [Script.encode_payToHash length]
    exact (List.take_left' length).symm
  refine (verify_scriptHash_iff rfl template).1.2 ⟨_, [0x51], [], _, [[1]], pushed, rfl, ⟨rfl, rfl⟩,
    by decide, hashed, hidden, ⟨rfl, by decide +kernel⟩, rfl, fun _ => rfl⟩

end Spend
end SpendScript
