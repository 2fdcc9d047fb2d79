import SpendScript.Proofs.DerForms

/-!
# Integers in two's complement

DER writes an integer in the shortest bytes that stand for it in two's complement. For a natural
number these are the ones that are written in a signature: a first byte that can be left out shows
in the first two bytes, and a shorter string could not keep the sign bit clear.
-/
set_option autoImplicit false

namespace SpendScript

namespace Bytes

/-- The integer that the bytes stand for in two's complement, the most significant byte first. -/
def toIntBE : Bytes → Int
  | [] => 0
  | first :: rest =>
    if first < 0x80 then toNatBE (first :: rest)
    else toNatBE (first :: rest) - capacity (first :: rest).length

theorem toNatBE_lt (bs : Bytes) : toNatBE bs < capacity bs.length := by
  induction bs using List.reverseRecOn with
  | nil => exact capacity_pos 0
  | append_singleton front last ih =>
    have byte : last.toNat < 256 := last.toNat_lt
    rw [toNatBE_concat, List.length_append, List.length_singleton, capacity]
    omega

theorem toNatBE_cons (first : UInt8) (rest : Bytes) :
    toNatBE (first :: rest) = first.toNat * capacity rest.length + toNatBE rest := by
  induction rest using List.reverseRecOn with
  | nil => simp [toNatBE, capacity]
  | append_singleton front last ih =>
    rw [← List.cons_append, toNatBE_concat, toNatBE_concat, ih, List.length_append,
      List.length_singleton, capacity, Nat.mul_left_comm, Nat.mul_add, Nat.add_assoc]

/-- Only bytes with a clear sign bit stand for a natural number, and for the one that they are read
as without a sign. -/
theorem toIntBE_eq_natCast_iff {first : UInt8} {rest : Bytes} {n : Nat} :
    toIntBE (first :: rest) = n ↔ first < 0x80 ∧ toNatBE (first :: rest) = n := by
  have bound := toNatBE_lt (first :: rest)
  rw [toIntBE]
  by_cases clear : first < 0x80
  · rw [if_pos clear, Int.natCast_inj]
    exact (and_iff_right clear).symm
  · rw [if_neg clear]
    refine iff_of_false (fun negative => ?_) fun other => clear other.1
    omega

end Bytes

namespace StrictDer

theorem signClear_of_isNatural {first : UInt8} {rest : Bytes}
    (canonical : isNatural (first :: rest) = true) : first < 0x80 := by
  cases rest with
  | nil => simpa [isNatural] using canonical
  | cons second rest =>
    simp only [isNatural, Bool.and_eq_true, decide_eq_true_eq] at canonical
    exact canonical.1

/-- The shortest bytes that stand for an integer in two's complement; zero takes one, too. -/
structure IsDerInteger (v : Int) (bs : Bytes) : Prop where
  nonempty : bs ≠ []
  value : bs.toIntBE = v
  shortest : ∀ other : Bytes, other ≠ [] → other.toIntBE = v → bs.length ≤ other.length

theorem isDerInteger_natural (n : Nat) : IsDerInteger n (natural n) := by
  have canonical := isNatural_natural n
  have value := toNatBE_natural n
  refine ⟨natural_ne_nil n, ?_, fun other nonempty same => ?_⟩
  · cases digits : natural n with
    | nil => exact absurd digits (natural_ne_nil n)
    | cons first rest =>
      rw [digits] at canonical value
      exact Bytes.toIntBE_eq_natCast_iff.2 ⟨signClear_of_isNatural canonical, value⟩
  · cases other with
    | nil => exact absurd rfl nonempty
    | cons first rest =>
      obtain ⟨clear, same⟩ := Bytes.toIntBE_eq_natCast_iff.1 same
      have clear : first.toNat ≤ 127 := Nat.le_of_lt_succ clear
      have high := Nat.mul_le_mul_right (Bytes.capacity rest.length) clear
      have low := Bytes.toNatBE_lt rest
      refine natural_length_le_iff.2 ?_
      rw [← same, Bytes.toNatBE_cons]
      omega

/-- A first byte that only repeats the sign could be left out. -/
theorem IsDerInteger.isNatural {n : Nat} {bs : Bytes} (h : IsDerInteger n bs) :
    isNatural bs = true := by
  rcases bs with _ | ⟨first, _ | ⟨second, rest⟩⟩
  · exact absurd rfl h.nonempty
  · obtain ⟨clear, _⟩ := Bytes.toIntBE_eq_natCast_iff.1 h.value
    simpa [StrictDer.isNatural] using clear
  · obtain ⟨clear, same⟩ := Bytes.toIntBE_eq_natCast_iff.1 h.value
    have used : first ≠ 0 ∨ 0x80 ≤ second := by
      by_contra spare
      obtain ⟨zero, bit⟩ := not_or.1 spare
      have smaller : Bytes.toIntBE (second :: rest) = n := by
        refine Bytes.toIntBE_eq_natCast_iff.2 ⟨UInt8.not_le.1 bit, ?_⟩
        rw [← same, Bytes.toNatBE_cons first, not_not.1 zero]
        simp
      have notLonger := h.shortest (second :: rest) (List.cons_ne_nil _ _) smaller
      exact absurd notLonger (Nat.not_succ_le_self _)
    simpa [StrictDer.isNatural, clear] using used

theorem isDerInteger_iff {n : Nat} {bs : Bytes} : IsDerInteger n bs ↔ bs = natural n := by
  constructor
  · intro h
    have canonical := h.isNatural
    cases bs with
    | nil => exact absurd rfl h.nonempty
    | cons first rest =>
      obtain ⟨_, same⟩ := Bytes.toIntBE_eq_natCast_iff.1 h.value
      rw [← same, natural_toNatBE canonical]
  · rintro rfl
    exact isDerInteger_natural n

end StrictDer
end SpendScript
