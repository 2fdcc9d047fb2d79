import SpendScript.Proofs.DerIntegers
import SpendScript.Signature.ByteChecks

/-!
# What strict DER accepts

The check by single bytes first settles both lengths. Bytes that come this far are framed as a
signature, so that each integer lies where it is looked for, and the integers decide the rest. No
look can miss, and the answer is that of reading from the front. What is accepted are the shortest
two's complement forms of two natural numbers with their lengths and a hash type, which the bytes
determine.
-/
set_option autoImplicit false

namespace SpendScript.StrictDer

section ByteChecks

variable {sig : Bytes} {rTag sTag : UInt8} {f : Fields}

/-- An integer that the bytes hold in full is judged as by itself. -/
theorem integerAt?_eq (front : Bytes) {digits behind : Bytes} {tag length : UInt8}
    (h : sig = front ++ tag :: length :: (digits ++ behind)) :
    integerAt? sig front.length digits.length = some (tag == 0x02 && isNatural digits) := by
  subst h
  have sign (b : UInt8) : (b < 0x80 ∧ ¬0x80 ≤ b) ∨ (¬b < 0x80 ∧ 0x80 ≤ b) := by
    rw [UInt8.not_le, UInt8.not_lt]
    exact (UInt8.lt_or_le b 0x80).imp (fun h => ⟨h, h⟩) fun h => ⟨h, h⟩
  by_cases integer : tag = 0x02
  · rcases digits with _ | ⟨first, _ | ⟨second, rest⟩⟩
    · simp [integerAt?, isNatural, integer]
    · rcases sign first with ⟨clear, notSet⟩ | ⟨notClear, set⟩
      · simp [integerAt?, isNatural, integer, clear, notSet]
      · simp [integerAt?, isNatural, integer, notClear, set]
    · rcases sign first with ⟨clear, notSet⟩ | ⟨notClear, set⟩
      · by_cases zero : first = 0
        · rcases sign second with ⟨spare, notSpare⟩ | ⟨notSpare, needed⟩
          · simp [integerAt?, isNatural, integer, zero, spare, notSpare]
          · simp [integerAt?, isNatural, integer, zero, notSpare, needed]
        · simp [integerAt?, isNatural, integer, clear, notSet, zero]
      · simp [integerAt?, isNatural, integer, notClear, set]
  · simp [integerAt?, integer]

/-- The parts of a signature with the right lengths, behind any tags. -/
def framed (rTag sTag : UInt8) (f : Fields) : Bytes :=
  0x30 :: UInt8.ofNat (f.r.length + f.s.length + 4) :: rTag :: UInt8.ofNat f.r.length ::
    (f.r ++ sTag :: UInt8.ofNat f.s.length :: (f.s ++ [f.hashType]))

theorem length_framed (rTag sTag : UInt8) (f : Fields) :
    (framed rTag sTag f).length = f.r.length + f.s.length + 7 := by
  simp only [framed, List.length_cons, List.length_append, List.length_nil]
  omega

theorem framed_integers (f : Fields) : framed 0x02 0x02 f = f.encode := by
  have length : (tagged f.r ++ tagged f.s).length = f.r.length + f.s.length + 4 := by
    rw [List.length_append, length_tagged, length_tagged]
    omega
  rw [Fields.encode, length]
  simp [framed, tagged]

theorem framed_rLength (rTag sTag : UInt8) (f : Fields) :
    (framed rTag sTag f)[3]? = some (UInt8.ofNat f.r.length) := rfl

theorem framed_sLength (rTag sTag : UInt8) (f : Fields) :
    (framed rTag sTag f)[5 + f.r.length]? = some (UInt8.ofNat f.s.length) := by
  rw [show 5 + f.r.length = f.r.length + 1 + 4 by omega]
  simp [framed]

/-- Once all lengths are right, the integers decide. -/
theorem isValidAt?_framed (atLeast : 9 ≤ (framed rTag sTag f).length)
    (atMost : (framed rTag sTag f).length ≤ maxLength) :
    isValidAt? (framed rTag sTag f) =
      some ((rTag == 0x02 && isNatural f.r) && (sTag == 0x02 && isNatural f.s)) := by
  have limit : maxLength = 73 := rfl
  have total := length_framed rTag sTag f
  obtain ⟨sig, same⟩ : ∃ sig, sig = framed rTag sTag f := ⟨_, rfl⟩
  rw [← same] at atLeast atMost total ⊢
  have fits {n : Nat} (small : n < 256) : (UInt8.ofNat n).toNat = n := by
    rw [UInt8.toNat_ofNat', Nat.mod_eq_of_lt small]
  have at0 : sig[0]? = some 0x30 := by rw [same]; rfl
  have at1 : sig[1]? = some (UInt8.ofNat (f.r.length + f.s.length + 4)) := by rw [same]; rfl
  have at3 : sig[3]? = some (UInt8.ofNat f.r.length) := by rw [same, framed_rLength]
  have atSLength : sig[5 + f.r.length]? = some (UInt8.ofNat f.s.length) := by
    rw [same, framed_sLength]
  have first : integerAt? sig 2 f.r.length = some (rTag == 0x02 && isNatural f.r) :=
    integerAt?_eq [0x30, _] same
  have second : integerAt? sig (f.r.length + 4) f.s.length =
      some (sTag == 0x02 && isNatural f.s) :=
    integerAt?_eq (0x30 :: _ :: _ :: _ :: f.r) same
  rw [isValidAt?, if_neg (by omega)]
  simp only [at0, at1, at3, atSLength, Option.bind_eq_bind, Option.bind_some,
    fits (show f.r.length < 256 by omega), fits (show f.s.length < 256 by omega),
    fits (show f.r.length + f.s.length + 4 < 256 by omega), first]
  rw [if_neg (by simp), if_neg (by omega), if_neg (by omega), if_neg (by omega)]
  cases rTag == 0x02 && isNatural f.r
  · rfl
  · exact second

theorem two_in_front {bs : Bytes} (long : 2 ≤ bs.length) :
    ∃ first second rest, bs = first :: second :: rest := by
  match bs, long with
  | first :: second :: rest, _ => exact ⟨first, second, rest, rfl⟩

/-- What follows the first length can be cut where both lengths say, if it has the right size. -/
theorem cut_at_lengths {body : Bytes} {m n : Nat} (size : body.length = m + n + 3) :
    ∃ r s sTag sLength hashType, body = r ++ sTag :: sLength :: (s ++ [hashType]) ∧
      r.length = m ∧ s.length = n := by
  obtain ⟨sTag, sLength, rest, second⟩ : ∃ sTag sLength rest,
      body.drop m = sTag :: sLength :: rest := by
    refine two_in_front ?_
    rw [List.length_drop]
    omega
  have cut : body = body.take m ++ sTag :: sLength :: rest := by
    rw [← second, List.take_append_drop]
  have front : (body.take m).length = m := by
    rw [List.length_take]
    omega
  have behind : rest.length = n + 1 := by
    have whole := congrArg List.length cut
    rw [List.length_append, List.length_cons, List.length_cons, front] at whole
    omega
  have nonempty : rest ≠ [] := List.ne_nil_of_length_eq_add_one behind
  refine ⟨body.take m, rest.dropLast, sTag, sLength, rest.getLast nonempty, ?_, front, ?_⟩
  · rw [List.dropLast_concat_getLast]
    exact cut
  · rw [List.length_dropLast]
    omega

/-- Unless a check before the integers says no, all lengths are right. In particular every byte that
is looked at is there. -/
theorem framed_of_not_refused (passed : isValidAt? sig ≠ some false) :
    9 ≤ sig.length ∧ sig.length ≤ maxLength ∧ ∃ rTag sTag f, sig = framed rTag sTag f := by
  unfold isValidAt? at passed
  split at passed
  · exact absurd rfl passed
  next range =>
  have atLeast : 9 ≤ sig.length := by omega
  refine ⟨atLeast, by omega, ?_⟩
  obtain ⟨tag, length, inner, outer⟩ := two_in_front (show 2 ≤ sig.length by omega)
  obtain ⟨rTag, rLength, body, rfl⟩ := two_in_front (show 2 ≤ inner.length by
    rw [outer, List.length_cons, List.length_cons] at atLeast
    omega)
  have size : sig.length = body.length + 4 := by rw [outer]; rfl
  have at0 : sig[0]? = some tag := by rw [outer]; rfl
  have at1 : sig[1]? = some length := by rw [outer]; rfl
  have at3 : sig[3]? = some rLength := by rw [outer]; rfl
  simp only [at0, at1, at3, Option.bind_eq_bind, Option.bind_some] at passed
  split at passed
  · exact absurd rfl passed
  next sequence =>
  split at passed
  · exact absurd rfl passed
  next whole =>
  split at passed
  · exact absurd rfl passed
  next room =>
  obtain ⟨sLength, atSLength⟩ : ∃ b, sig[5 + rLength.toNat]? = some b :=
    ⟨_, List.getElem?_eq_getElem (Nat.lt_of_not_le room)⟩
  rw [atSLength, Option.bind_some] at passed
  split at passed
  · exact absurd rfl passed
  next total =>
  obtain ⟨r, s, sTag, here, hashType, rfl, rWhole, sWhole⟩ :=
    cut_at_lengths (show body.length = rLength.toNat + sLength.toNat + 3 by omega)
  have same : here = sLength := by
    rw [outer, ← rWhole, show 5 + r.length = r.length + 1 + 4 by omega] at atSLength
    simpa using atSLength
  have lengthByte : UInt8.ofNat (r.length + s.length + 4) = length := by
    rw [show r.length + s.length + 4 = length.toNat by omega, UInt8.ofNat_toNat]
  refine ⟨rTag, sTag, ⟨r, s, hashType⟩, ?_⟩
  rw [framed, lengthByte, rWhole, sWhole, UInt8.ofNat_toNat, UInt8.ofNat_toNat, outer, same]
  rw [Decidable.not_not.1 sequence]

theorem length_pos_of_isNatural {digits : Bytes} (shortest : isNatural digits = true) :
    0 < digits.length := by
  cases digits with
  | nil => cases shortest
  | cons => exact Nat.succ_pos _

/-- No look of the check by single bytes misses the bytes, and it says the same as reading. -/
theorem isValidAt?_eq (sig : Bytes) : isValidAt? sig = some (isValid sig) := by
  cases valid : isValid sig with
  | true =>
    obtain ⟨f, parsed⟩ := Option.isSome_iff_exists.1 valid
    obtain ⟨rfl, shortestR, shortestS, short⟩ := parse?_eq_some_iff.1 parsed
    have rPos := length_pos_of_isNatural shortestR
    have sPos := length_pos_of_isNatural shortestS
    have length := length_framed 0x02 0x02 f
    rw [← framed_integers] at short ⊢
    rw [isValidAt?_framed (by omega) short, shortestR, shortestS]
    rfl
  | false =>
    by_contra passed
    obtain ⟨atLeast, atMost, rTag, sTag, f, rfl⟩ := framed_of_not_refused passed
    have judged := isValidAt?_framed atLeast atMost
    cases answer : (rTag == 0x02 && isNatural f.r) && (sTag == 0x02 && isNatural f.s) with
    | false => exact passed (judged.trans (congrArg some answer))
    | true =>
      simp only [Bool.and_eq_true, beq_iff_eq] at answer
      obtain ⟨⟨rfl, shortestR⟩, rfl, shortestS⟩ := answer
      rw [framed_integers] at valid atMost
      rw [isValid, parse?_eq_some_iff.2 ⟨rfl, shortestR, shortestS, atMost⟩] at valid
      cases valid

end ByteChecks

/-- The bytes are a sequence of two natural numbers, each written as a DER integer with its tag and
its length, and a hash type, at most 73 bytes in all. -/
def Spells (sig : Bytes) (r s : Nat) (hashType : UInt8) : Prop :=
  ∃ rBytes sBytes : Bytes, IsDerInteger r rBytes ∧ IsDerInteger s sBytes ∧
    sig = [0x30, UInt8.ofNat (4 + rBytes.length + sBytes.length), 0x02, UInt8.ofNat rBytes.length]
      ++ rBytes ++ [0x02, UInt8.ofNat sBytes.length] ++ sBytes ++ [hashType] ∧
    sig.length ≤ 73

theorem spells_iff {sig : Bytes} {r s : Nat} {hashType : UInt8} :
    Spells sig r s hashType ↔ sig = encode r s hashType ∧ sig.length ≤ maxLength := by
  constructor
  · rintro ⟨rBytes, sBytes, hr, hs, rfl, short⟩
    obtain rfl := isDerInteger_iff.1 hr
    obtain rfl := isDerInteger_iff.1 hs
    exact ⟨by simp [encode], short⟩
  · rintro ⟨rfl, short⟩
    exact ⟨natural r, natural s, isDerInteger_natural r, isDerInteger_natural s, by simp [encode],
      short⟩

/-- The numbers and the hash type can be read back. -/
theorem Spells.unique {sig : Bytes} {r s r' s' : Nat} {hashType hashType' : UInt8}
    (h : Spells sig r s hashType) (h' : Spells sig r' s' hashType') :
    r = r' ∧ s = s' ∧ hashType = hashType' := by
  obtain ⟨rfl, short⟩ := spells_iff.1 h
  obtain ⟨same, _⟩ := spells_iff.1 h'
  have parsed := parse?_encode short
  rw [same] at short parsed
  rw [parse?_encode short, Option.some.injEq, Fields.mk.injEq] at parsed
  obtain ⟨hr, hs, last⟩ := parsed
  refine ⟨?_, ?_, last.symm⟩
  · rw [← toNatBE_natural r, ← hr, toNatBE_natural]
  · rw [← toNatBE_natural s, ← hs, toNatBE_natural]

/-- Strict DER accepts the written forms of two natural numbers and a hash type and nothing else;
what is written is determined by the bytes. The check by single bytes gives this answer for all
bytes, so it never looks at a byte that is not there. -/
theorem accepts_canonical_encodings (sig : Bytes) :
    (isValid sig = true ↔ ∃ r s hashType, Spells sig r s hashType) ∧
    (∀ r s hashType r' s' hashType', Spells sig r s hashType → Spells sig r' s' hashType' →
      r = r' ∧ s = s' ∧ hashType = hashType') ∧
    isValidAt? sig = some (isValid sig) := by
  refine ⟨?_, fun r s hashType r' s' hashType' => Spells.unique, isValidAt?_eq sig⟩
  rw [isValid_iff]
  simp only [spells_iff]

/-- The number 128 needs a zero byte in front. -/
theorem accepts_canonical_encodings_padded :
    let sig : Bytes := [0x30, 0x07, 0x02, 0x01, 0x01, 0x02, 0x02, 0x00, 0x80, 0x81]
    isValid sig = true ∧ isValidAt? sig = some true ∧
      ∀ r s hashType, Spells sig r s hashType → r = 1 ∧ s = 128 ∧ hashType = 0x81 := by
  intro sig
  obtain ⟨accepted, unique, noMiss⟩ := accepts_canonical_encodings sig
  have valid : isValid sig = true := by decide
  have written : Spells sig 1 128 0x81 := by
    refine spells_iff.2 ⟨?_, by decide⟩
    simp [sig, encode, natural]
  refine ⟨valid, valid ▸ noMiss, fun r s hashType spells => ?_⟩
  obtain ⟨hr, hs, last⟩ := unique _ _ _ _ _ _ spells written
  exact ⟨hr, hs, last⟩

end SpendScript.StrictDer
