import Mathlib.Data.List.Induction
import SpendScript.Signature.StrictDer

/-!
# The written form of a signature

A natural number has one shortest form that leaves the sign bit clear: either one byte, or a shorter
number in that form with a byte after it, where the whole needs more than one byte. Strict reading
looks at the first two bytes alone, but along this recursion both say the same. A signature is two
such numbers with their lengths, so what is read strictly is what is written, and nothing else.
-/
set_option autoImplicit false

namespace SpendScript

namespace Bytes

theorem toNatBE_concat (bs : Bytes) (b : UInt8) :
    toNatBE (bs ++ [b]) = 256 * toNatBE bs + b.toNat := by
  simp [toNatBE, List.foldl_append]

theorem toNatBE_singleton (b : UInt8) : toNatBE [b] = b.toNat := by
  simp [toNatBE]

/-- A byte that is not zero counts, wherever it stands. -/
theorem toNatBE_pos {bs : Bytes} {b : UInt8} (mem : b ∈ bs) (nonzero : b ≠ 0) :
    0 < toNatBE bs := by
  induction bs using List.reverseRecOn with
  | nil => cases mem
  | append_singleton front last ih =>
    rw [toNatBE_concat]
    rcases List.mem_append.1 mem with inFront | isLast
    · have pos := ih inFront
      omega
    · obtain rfl := List.mem_singleton.1 isLast
      have pos : b.toNat ≠ 0 := fun zero => nonzero (UInt8.toNat_inj.1 zero)
      omega

end Bytes

namespace StrictDer

theorem natural_of_lt {n : Nat} (small : n < 128) : natural n = [UInt8.ofNat n] := by
  rw [natural, if_pos small]

theorem natural_of_le {n : Nat} (large : 128 ≤ n) :
    natural n = natural (n / 256) ++ [UInt8.ofNat n] := by
  rw [natural, if_neg (Nat.not_lt.2 large)]

theorem natural_ne_nil (n : Nat) : natural n ≠ [] := by
  rcases Nat.lt_or_ge n 128 with small | large
  · simp [natural_of_lt small]
  · simp [natural_of_le large]

/-- What is written for a number has its value. -/
theorem toNatBE_natural (n : Nat) : Bytes.toNatBE (natural n) = n := by
  induction n using natural.induct with
  | case1 n small =>
    rw [natural_of_lt small, Bytes.toNatBE_singleton, UInt8.toNat_ofNat']
    omega
  | case2 n large ih =>
    rw [natural_of_le (Nat.not_lt.1 large), Bytes.toNatBE_concat, ih, UInt8.toNat_ofNat']
    omega

/-- With the sign bit, so many bytes hold half of what they hold without. -/
theorem natural_length_le_iff {n width : Nat} :
    (natural n).length ≤ width + 1 ↔ n < 128 * Bytes.capacity width := by
  induction width generalizing n with
  | zero =>
    rw [Bytes.capacity]
    rcases Nat.lt_or_ge n 128 with small | large
    · simp [natural_of_lt small, small]
    · have front := List.length_pos_iff.2 (natural_ne_nil (n / 256))
      rw [natural_of_le large, List.length_append, List.length_singleton]
      omega
  | succ width ih =>
    rw [Bytes.capacity]
    rcases Nat.lt_or_ge n 128 with small | large
    · have positive := Bytes.capacity_pos width
      simp [natural_of_lt small]
      omega
    · rw [natural_of_le large, List.length_append, List.length_singleton,
        Nat.add_le_add_iff_right, ih]
      omega

/-- Of two bytes or more, the first two are not both without use. -/
theorem toNatBE_pos_of_isNatural {first second : UInt8} {rest : Bytes}
    (shortest : isNatural (first :: second :: rest) = true) :
    0 < Bytes.toNatBE (first :: second :: rest) := by
  simp only [isNatural, Bool.and_eq_true, Bool.or_eq_true, bne_iff_ne, decide_eq_true_eq]
    at shortest
  obtain ⟨_, used | needed⟩ := shortest
  · exact Bytes.toNatBE_pos List.mem_cons_self used
  · refine Bytes.toNatBE_pos (List.mem_cons_of_mem _ List.mem_cons_self) ?_
    rintro rfl
    exact absurd needed (by decide)

/-- With one more byte a shortest form stays one exactly if the value needs more than that byte. -/
theorem isNatural_concat {front : Bytes} (nonempty : front ≠ []) (b : UInt8) :
    isNatural (front ++ [b]) = true ↔
      isNatural front = true ∧ 128 ≤ Bytes.toNatBE (front ++ [b]) := by
  rcases front with _ | ⟨first, _ | ⟨second, rest⟩⟩
  · exact absurd rfl nonempty
  · have nonzero : first ≠ 0 ↔ first.toNat ≠ 0 := not_congr UInt8.toNat_inj.symm
    rw [Bytes.toNatBE_concat, Bytes.toNatBE_singleton]
    simp only [isNatural, List.cons_append, List.nil_append, Bool.and_eq_true, Bool.or_eq_true,
      bne_iff_ne, decide_eq_true_eq, UInt8.lt_iff_toNat_lt, UInt8.le_iff_toNat_le, nonzero,
      UInt8.reduceToNat]
    omega
  · have same : isNatural (first :: second :: rest ++ [b]) = isNatural (first :: second :: rest) :=
      rfl
    rw [same, iff_self_and]
    intro shortest
    have pos := toNatBE_pos_of_isNatural shortest
    rw [Bytes.toNatBE_concat]
    omega

theorem isNatural_singleton {b : UInt8} : isNatural [b] = true ↔ b.toNat < 128 := by
  simp [isNatural, UInt8.lt_iff_toNat_lt]

/-- What is written for a number is in shortest form. -/
theorem isNatural_natural (n : Nat) : isNatural (natural n) = true := by
  induction n using natural.induct with
  | case1 n small =>
    rw [natural_of_lt small, isNatural_singleton, UInt8.toNat_ofNat']
    omega
  | case2 n large ih =>
    have long : 128 ≤ n := Nat.not_lt.1 large
    have value := toNatBE_natural n
    rw [natural_of_le long] at value ⊢
    rw [isNatural_concat (natural_ne_nil _), value]
    exact ⟨ih, long⟩

/-- What is in shortest form is written for its value. -/
theorem natural_toNatBE {digits : Bytes} (shortest : isNatural digits = true) :
    natural (Bytes.toNatBE digits) = digits := by
  induction digits using List.reverseRecOn with
  | nil => cases shortest
  | append_singleton front last ih =>
    have byte : last.toNat < 256 := last.toNat_lt
    by_cases single : front = []
    · subst single
      rw [List.nil_append, isNatural_singleton] at shortest
      rw [List.nil_append, Bytes.toNatBE_singleton, natural_of_lt shortest, UInt8.ofNat_toNat]
    · obtain ⟨shorter, large⟩ := (isNatural_concat single last).1 shortest
      have before : (256 * Bytes.toNatBE front + last.toNat) / 256 = Bytes.toNatBE front := by omega
      have lowest : UInt8.ofNat (256 * Bytes.toNatBE front + last.toNat) = last := by
        apply UInt8.toNat_inj.1
        rw [UInt8.toNat_ofNat']
        omega
      rw [natural_of_le large, Bytes.toNatBE_concat, before, lowest, ih shorter]

/-- The bytes of an integer behind its tag and its length. -/
def tagged (digits : Bytes) : Bytes :=
  0x02 :: UInt8.ofNat digits.length :: digits

/-- The written form of the parts of a signature. -/
def Fields.encode (f : Fields) : Bytes :=
  0x30 :: UInt8.ofNat (tagged f.r ++ tagged f.s).length :: (tagged f.r ++ tagged f.s ++ [f.hashType])

theorem length_tagged (digits : Bytes) : (tagged digits).length = digits.length + 2 := rfl

theorem Fields.length_encode (f : Fields) : f.encode.length = f.r.length + f.s.length + 7 := by
  simp [encode, length_tagged]
  omega

theorem encode_eq (r s : Nat) (hashType : UInt8) :
    encode r s hashType = Fields.encode ⟨natural r, natural s, hashType⟩ := by
  have length : 4 + (natural r).length + (natural s).length =
      (tagged (natural r) ++ tagged (natural s)).length := by
    rw [List.length_append, length_tagged, length_tagged]
    omega
  simp [encode, Fields.encode, tagged, length]

theorem length_encode (r s : Nat) (hashType : UInt8) :
    (encode r s hashType).length = (natural r).length + (natural s).length + 7 := by
  rw [encode_eq, Fields.length_encode]

theorem encode_ne_nil (r s : Nat) (hashType : UInt8) : encode r s hashType ≠ [] := by
  rw [encode_eq]
  exact List.cons_ne_nil _ _

theorem readNatural?_tagged {digits : Bytes} (rest : Bytes) (shortest : isNatural digits = true)
    (short : digits.length < 256) : readNatural? (tagged digits ++ rest) = some (digits, rest) := by
  have length : (UInt8.ofNat digits.length).toNat = digits.length := by
    rw [UInt8.toNat_ofNat']
    omega
  simp [tagged, readNatural?, length, Bytes.cut?_append, shortest]

theorem readNatural?_eq_some {bs digits rest : Bytes} (h : readNatural? bs = some (digits, rest)) :
    bs = tagged digits ++ rest ∧ isNatural digits = true := by
  rcases bs with _ | ⟨tag, _ | ⟨length, body⟩⟩
  · cases h
  · cases h
  · dsimp only [readNatural?] at h
    split at h
    · next integer =>
      split at h
      · next cut =>
        split at h
        · next shortest =>
          cases h
          obtain ⟨rfl, width⟩ := Bytes.cut?_eq_some cut
          have same : UInt8.ofNat digits.length = length := by rw [width, UInt8.ofNat_toNat]
          exact ⟨by simp [tagged, integer, same], shortest⟩
        · cases h
      · cases h
    · cases h

theorem readBody?_eq_some {body : Bytes} {f : Fields} (h : readBody? body = some f) :
    body = tagged f.r ++ tagged f.s ++ [f.hashType] ∧ isNatural f.r = true ∧
      isNatural f.s = true := by
  unfold readBody? at h
  split at h
  · next r afterR first =>
    split at h
    · next s hashType second =>
      cases h
      obtain ⟨rfl, shortestR⟩ := readNatural?_eq_some first
      obtain ⟨rfl, shortestS⟩ := readNatural?_eq_some second
      exact ⟨by simp, shortestR, shortestS⟩
    · cases h
  · cases h

/-- Strict reading gives back the parts of what is written, if these are in shortest form and not
too long, and it reads nothing else. -/
theorem parse?_eq_some_iff {sig : Bytes} {f : Fields} :
    parse? sig = some f ↔ sig = f.encode ∧ isNatural f.r = true ∧ isNatural f.s = true ∧
      sig.length ≤ maxLength := by
  constructor
  · intro h
    rcases sig with _ | ⟨tag, _ | ⟨length, body⟩⟩
    · cases h
    · cases h
    · dsimp only [parse?] at h
      split at h
      · next framed =>
        obtain ⟨sequence, width, short⟩ := framed
        obtain ⟨rfl, shortestR, shortestS⟩ := readBody?_eq_some h
        refine ⟨?_, shortestR, shortestS, short⟩
        have inner : length.toNat = (tagged f.r ++ tagged f.s).length := by
          simp only [List.length_cons, List.length_append, List.length_nil] at width ⊢
          omega
        rw [Fields.encode, ← inner, UInt8.ofNat_toNat, sequence]
      · cases h
  · rintro ⟨rfl, shortestR, shortestS, short⟩
    have length := f.length_encode
    have limit : maxLength = 73 := rfl
    have framed : (UInt8.ofNat (tagged f.r ++ tagged f.s).length).toNat + 3 = f.encode.length := by
      rw [UInt8.toNat_ofNat', List.length_append, length_tagged, length_tagged]
      omega
    have body : readBody? (tagged f.r ++ tagged f.s ++ [f.hashType]) = some f := by
      unfold readBody?
      rw [List.append_assoc, readNatural?_tagged _ shortestR (by omega)]
      dsimp only
      rw [readNatural?_tagged _ shortestS (by omega)]
    unfold Fields.encode parse? at *
    exact (if_pos ⟨rfl, framed, short⟩).trans body

theorem parse?_encode {r s : Nat} {hashType : UInt8}
    (short : (encode r s hashType).length ≤ maxLength) :
    parse? (encode r s hashType) = some ⟨natural r, natural s, hashType⟩ :=
  parse?_eq_some_iff.2 ⟨encode_eq r s hashType, isNatural_natural r, isNatural_natural s, short⟩

/-- A string is read strictly exactly if it is the written form of two numbers and a hash type, and
not too long. -/
theorem isValid_iff {sig : Bytes} :
    isValid sig = true ↔ ∃ r s hashType, sig = encode r s hashType ∧ sig.length ≤ maxLength := by
  unfold isValid
  rw [Option.isSome_iff_exists]
  constructor
  · rintro ⟨f, parsed⟩
    obtain ⟨written, shortestR, shortestS, short⟩ := parse?_eq_some_iff.1 parsed
    refine ⟨Bytes.toNatBE f.r, Bytes.toNatBE f.s, f.hashType, ?_, short⟩
    rw [encode_eq, natural_toNatBE shortestR, natural_toNatBE shortestS, written]
  · rintro ⟨r, s, hashType, rfl, short⟩
    exact ⟨_, parse?_encode short⟩

theorem isValid_encode {r s : Nat} {hashType : UInt8}
    (short : (encode r s hashType).length ≤ maxLength) : isValid (encode r s hashType) = true :=
  isValid_iff.2 ⟨r, s, hashType, rfl, short⟩

end StrictDer
end SpendScript
