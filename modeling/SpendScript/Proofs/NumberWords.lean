import Mathlib.Data.Nat.Bitwise
import Mathlib.Tactic.Ring
import SpendScript.Number.Words
import SpendScript.Proofs.ShortestNumbers

/-!
# Numbers read and written in words

A word of 64 bits is enough for every number that is read from up to eight bytes, although the
bytes, before their sign is taken out, can fill it to its top bit: the shifts stay inside the word,
and what is negated is never the least integer. So words give the same numbers as integers do, and
the same bytes the other way round.
-/
set_option autoImplicit false

namespace SpendScript

theorem Bytes.capacity_eq_two_pow (width : Nat) : capacity width = 2 ^ (8 * width) := by
  induction width with
  | zero => rfl
  | succ width ih => rw [capacity, ih, Nat.mul_succ, Nat.pow_add, Nat.mul_comm]

section Byte

variable (b : UInt8)

theorem and_sign_bit_ne_zero_iff : b &&& 0x80 ≠ 0 ↔ 128 ≤ b.toNat := by
  have byte : b.toNat < 256 := b.toNat_lt
  have masked : (b &&& 0x80).toNat = (b.toNat.testBit 7).toNat * 2 ^ 7 := by
    rw [UInt8.toNat_and]
    exact Nat.and_two_pow b.toNat 7
  have bit : b.toNat.testBit 7 = decide (128 ≤ b.toNat) := by
    rw [Nat.testBit_eq_decide_div_mod_eq]
    exact decide_eq_decide.2 (by omega)
  rw [Ne, ← UInt8.toNat_inj, masked, bit]
  by_cases high : 128 ≤ b.toNat <;> simp [high]

theorem toNat_and_low_bits : (b &&& 0x7f).toNat = b.toNat % 128 := by
  rw [UInt8.toNat_and]
  exact Nat.and_two_pow_sub_one_eq_mod b.toNat 7

theorem or_sign_bit (low : b.toNat < 128) : b ||| 0x80 = UInt8.ofNat (b.toNat + 128) := by
  apply UInt8.toNat_inj.1
  have joined : 128 + b.toNat = 128 ||| b.toNat := Nat.two_pow_add_eq_or_of_lt (i := 7) low 1
  have small : (b.toNat + 128) % 256 = 128 + b.toNat := by omega
  rw [UInt8.toNat_or, UInt8.toNat_ofNat', small, joined]
  exact Nat.or_comm b.toNat 128

end Byte

namespace SignMagnitude

/-- The sign is the top bit of the last byte, and the magnitude what the bytes are without it. -/
theorem read_concat (front : Bytes) (last : UInt8) :
    magnitude (front ++ [last]) = Bytes.toNatLE (front ++ [last &&& 0x7f]) ∧
      isNegative (front ++ [last]) = decide (128 ≤ last.toNat) := by
  induction front with
  | nil =>
    have low := toNat_and_low_bits last
    simp [magnitude, isNegative, Bytes.toNatLE, low]
  | cons b front ih =>
    obtain ⟨value, sign⟩ := read_cons b (List.append_ne_nil_of_right_ne_nil front (List.cons_ne_nil last []))
    rw [List.cons_append, List.cons_append, value, sign, ih.1, ih.2]
    exact ⟨rfl, rfl⟩

theorem value_concat (front : Bytes) (last : UInt8) :
    value (front ++ [last]) =
      if last &&& 0x80 ≠ 0 then -(Bytes.toNatLE (front ++ [last &&& 0x7f]) : Int)
      else Bytes.toNatLE (front ++ [last &&& 0x7f]) := by
  obtain ⟨magnitude, sign⟩ := read_concat front last
  rw [value, magnitude, sign]
  by_cases high : 128 ≤ last.toNat
  · rw [if_pos (decide_eq_true high), if_pos ((and_sign_bit_ne_zero_iff last).2 high)]
  · rw [if_neg (by simpa using high), if_neg (mt (and_sign_bit_ne_zero_iff last).1 high)]

/-- All bits of the string as a natural number: the sign stands above the magnitude. -/
theorem toNatLE_concat (front : Bytes) (last : UInt8) :
    Bytes.toNatLE (front ++ [last]) = magnitude (front ++ [last]) +
      if 128 ≤ last.toNat then 128 * Bytes.capacity front.length else 0 := by
  induction front with
  | nil =>
    have byte : last.toNat < 256 := last.toNat_lt
    simp only [List.nil_append, Bytes.toNatLE, magnitude, List.length_nil, Bytes.capacity]
    split <;> omega
  | cons b front ih =>
    obtain ⟨value, -⟩ := read_cons b (List.append_ne_nil_of_right_ne_nil front (List.cons_ne_nil last []))
    rw [List.cons_append, value, Bytes.toNatLE, ih, List.length_cons, Bytes.capacity]
    split <;> omega

theorem hasMinimalEnd_cons (b : UInt8) {rest : Bytes} (several : 1 < rest.length) :
    hasMinimalEnd (b :: rest) = hasMinimalEnd rest := by
  match rest, several with
  | next :: after :: rest, _ => simp [hasMinimalEnd, List.getLast?_cons, List.dropLast_cons_of_ne_nil]

theorem hasMinimalEnd_eq (bs : Bytes) : hasMinimalEnd bs = isMinimal bs := by
  induction bs using isMinimal.induct with
  | case1 => rfl
  | case2 last =>
    have low := toNat_and_low_bits last
    simp [hasMinimalEnd, isMinimal, ← UInt8.toNat_inj, low]
  | case3 before last =>
    have bare : last &&& 0x7f = 0 ↔ last.toNat % 128 = 0 := by
      rw [← toNat_and_low_bits, ← UInt8.toNat_inj]
      rfl
    have high := and_sign_bit_ne_zero_iff before
    by_cases used : last.toNat % 128 = 0 <;> simp [hasMinimalEnd, isMinimal, used, bare, high]
  | case4 b next rest more ih =>
    have several : 1 < (next :: rest).length := Nat.succ_lt_succ (List.length_pos_iff.2 more)
    rw [hasMinimalEnd_cons b several, isMinimal_cons b several, ih]

end SignMagnitude

namespace Word

theorem shiftLeft?_eq_some (w : Word) (places : Nat) (near : places < 64)
    (room : w.toNat * 2 ^ places < 2 ^ 64) :
    ∃ v, shiftLeft? w places = some v ∧ v.toNat = w.toNat * 2 ^ places := by
  have moved : (w <<< places).toNat = w.toNat * 2 ^ places := by
    rw [BitVec.toNat_shiftLeft, Nat.shiftLeft_eq, Nat.mod_eq_of_lt room]
  have back : (w <<< places) >>> places = w := by
    apply BitVec.eq_of_toNat_eq
    rw [BitVec.toNat_ushiftRight, moved, Nat.shiftRight_eq_div_pow,
      Nat.mul_div_cancel _ (Nat.two_pow_pos places)]
  exact ⟨w <<< places, if_pos ⟨near, back⟩, moved⟩

/-- The bytes are put above those that are in the word already. -/
theorem gather?_eq_some (bs : Bytes) {w : Word} {i : Nat} (below : w.toNat < Bytes.capacity i)
    (room : i + bs.length ≤ 8) :
    ∃ v, gather? w i bs = some v ∧ v.toNat = w.toNat + Bytes.capacity i * Bytes.toNatLE bs := by
  induction bs generalizing w i with
  | nil => exact ⟨w, rfl, rfl⟩
  | cons b rest ih =>
    rw [List.length_cons] at room
    have byte : b.toNat < 256 := b.toNat_lt
    have narrow : (b.toBitVec.setWidth 64).toNat = b.toNat :=
      BitVec.toNat_setWidth_of_le (by decide)
    have power := Bytes.capacity_eq_two_pow i
    have next : i + 1 ≤ 8 := by omega
    have width : Bytes.capacity (i + 1) ≤ 2 ^ 64 := Bytes.capacity_le next
    -- the byte at its place, and the word below it, stay under the place of the next byte
    have part : b.toNat * Bytes.capacity i ≤ 255 * Bytes.capacity i :=
      Nat.mul_le_mul_right _ (by omega)
    rw [Bytes.capacity] at width
    obtain ⟨placed, shifted, high⟩ := shiftLeft?_eq_some (b.toBitVec.setWidth 64) (8 * i)
      (by omega) (by rw [narrow, ← power]; omega)
    rw [narrow, ← power] at high
    have joined : (w ||| placed).toNat = w.toNat + b.toNat * Bytes.capacity i := by
      rw [BitVec.toNat_or, high, Nat.or_comm, Nat.mul_comm, power,
        ← Nat.two_pow_add_eq_or_of_lt (by rwa [← power]), Nat.add_comm]
    obtain ⟨v, gathered, sum⟩ := ih (w := w ||| placed) (i := i + 1)
      (by rw [joined, Bytes.capacity]; omega) (by omega)
    refine ⟨v, ?_, ?_⟩
    · rw [gather?, shifted]
      exact gathered
    · rw [sum, joined, Bytes.toNatLE, Bytes.capacity]
      ring

theorem gather?_zero {bs : Bytes} (room : bs.length ≤ 8) :
    ∃ v, gather? 0 0 bs = some v ∧ v.toNat = Bytes.toNatLE bs := by
  obtain ⟨v, gathered, sum⟩ :=
    gather?_eq_some bs (w := 0) (i := 0) (Bytes.capacity_pos 0) (by omega)
  refine ⟨v, gathered, ?_⟩
  rw [sum, Bytes.capacity, Nat.one_mul]
  exact Nat.zero_add _

theorem shiftLeft?_sign {index : Nat} (room : index < 8) :
    ∃ v, shiftLeft? 0x80 (8 * index) = some v ∧ v.toNat = 2 ^ (8 * index + 7) := by
  have inside : 2 ^ (8 * index + 7) < 2 ^ 64 := Nat.pow_lt_pow_right (by decide) (by omega)
  have split : (0x80 : Word).toNat * 2 ^ (8 * index) = 2 ^ (8 * index + 7) := by
    rw [Nat.pow_add, Nat.mul_comm]
    rfl
  obtain ⟨v, shifted, high⟩ :=
    shiftLeft?_eq_some 0x80 (8 * index) (by omega) (by rwa [split])
  exact ⟨v, shifted, high.trans split⟩

/-- A bit that stands above all others is taken out. -/
theorem toNat_clear {w sign : Word} {n k : Nat} (low : n < 2 ^ k) (room : k < 64)
    (bit : sign.toNat = 2 ^ k) (all : w.toNat = n + 2 ^ k) : (w &&& ~~~sign).toNat = n := by
  have power : sign = BitVec.twoPow 64 k := by
    apply BitVec.eq_of_toNat_eq
    rw [bit, BitVec.toNat_twoPow, Nat.mod_eq_of_lt (Nat.pow_lt_pow_right (by decide) room)]
  have joined : w.toNat = 2 ^ k ||| n := by
    have sum := Nat.two_pow_add_eq_or_of_lt low 1
    rw [Nat.mul_one] at sum
    rw [all, Nat.add_comm, sum]
  have within : n < 2 ^ 64 := Nat.lt_trans low (Nat.pow_lt_pow_right (by decide) room)
  have same : w &&& ~~~sign = BitVec.ofNat 64 n := by
    apply BitVec.eq_of_getLsbD_eq
    intro i inside
    rw [BitVec.getLsbD_and, BitVec.getLsbD_not, power, BitVec.getLsbD_twoPow,
      ← BitVec.testBit_toNat, joined, Nat.testBit_or, Nat.testBit_two_pow, BitVec.getLsbD_ofNat]
    -- the bit itself is the only one that the mask takes out, and `n` does not have it
    by_cases here : k = i
    · simp [← here, room, Nat.testBit_lt_two_pow low]
    · simp [here, inside]
  rw [same, BitVec.toNat_ofNat, Nat.mod_eq_of_lt within]

theorem neg?_eq_some {w : Word} (small : w.toNat < 2 ^ 63) :
    neg? w = some (BitVec.ofInt 64 (-(w.toNat : Int))) := by
  have positive : w ≠ BitVec.intMin 64 := by
    intro least
    rw [least, BitVec.toNat_intMin] at small
    exact absurd small (by decide)
  rw [neg?, if_neg positive, BitVec.ofInt_neg, BitVec.ofInt_natCast, BitVec.ofNat_toNat,
    BitVec.setWidth_eq]

/-- No step of the reading overflows. -/
theorem ofSignMagnitude?_eq_some {bs : Bytes} (room : bs.length ≤ 8) :
    ofSignMagnitude? bs = some (BitVec.ofInt 64 (SignMagnitude.value bs)) := by
  rcases List.eq_nil_or_concat bs with rfl | ⟨front, last, rfl⟩
  · rfl
  · rw [List.concat_eq_append] at room ⊢
    have inside : front.length + 1 ≤ 8 := by simpa using room
    obtain ⟨w, gathered, all⟩ := gather?_zero room
    rw [SignMagnitude.toNatLE_concat] at all
    have low : SignMagnitude.magnitude (front ++ [last]) < 128 * Bytes.capacity front.length :=
      SignMagnitude.magnitude_lt (by simp)
    have top : 128 * Bytes.capacity front.length = 2 ^ (8 * front.length + 7) := by
      rw [Bytes.capacity_eq_two_pow, Nat.pow_add, Nat.mul_comm]
    have wide : 2 ^ (8 * front.length + 7) ≤ 2 ^ 63 := Nat.pow_le_pow_right (by decide) (by omega)
    have places : (front ++ [last]).length - 1 = front.length := by simp
    obtain ⟨-, sign⟩ := SignMagnitude.read_concat front last
    rw [ofSignMagnitude?, List.getLast?_concat, SignMagnitude.value, sign, places]
    simp only [gathered, Option.bind_eq_bind, Option.bind_some, and_sign_bit_ne_zero_iff]
    rw [top] at low all
    -- with the sign the word may be the least integer or above; without it, it is below `2 ^ 63`
    by_cases negative : 128 ≤ last.toNat
    · obtain ⟨bit, shifted, high⟩ := shiftLeft?_sign inside
      rw [if_pos negative] at all
      have cleared := toNat_clear low (by omega) high all
      rw [if_pos negative, if_pos (decide_eq_true negative), shifted, Option.bind_some,
        neg?_eq_some (by omega), cleared]
    · rw [if_neg negative, Nat.add_zero] at all
      rw [if_neg negative, if_neg (by simpa using negative), BitVec.ofInt_natCast, ← all,
        BitVec.ofNat_toNat, BitVec.setWidth_eq]
      rfl

theorem digits_of_ne_zero {w : Word} (positive : w ≠ 0) :
    digits w = UInt8.ofNat w.toNat :: digits (w >>> 8) := by
  have low : (w &&& 0xff).toNat = w.toNat % 256 := by
    rw [BitVec.toNat_and]
    exact Nat.and_two_pow_sub_one_eq_mod w.toNat 8
  have byte : UInt8.ofNat (w.toNat % 256) = UInt8.ofNat w.toNat := by
    apply UInt8.toNat_inj.1
    simp
  rw [digits, dif_neg positive, low, byte]

theorem withSign_cons (negative : Bool) (b : UInt8) {rest : Bytes} (nonempty : rest ≠ []) :
    withSign negative (b :: rest) = b :: withSign negative rest := by
  obtain ⟨front, last, rfl⟩ := List.eq_nil_or_concat rest |>.resolve_left nonempty
  simp only [withSign, List.concat_eq_append, ← List.cons_append, List.getLast?_concat,
    List.dropLast_concat]
  split
  · rfl
  · split <;> rfl

theorem toNat_shift_byte (w : Word) : (w >>> 8).toNat = w.toNat / 256 := by
  rw [BitVec.toNat_ushiftRight, Nat.shiftRight_eq_div_pow]

theorem ne_zero_of_toNat_pos {w : Word} (positive : 0 < w.toNat) : w ≠ 0 := by
  rintro rfl
  exact absurd positive (by decide)

theorem digits_of_byte {w : Word} (positive : 0 < w.toNat) (byte : w.toNat < 256) :
    digits w = [UInt8.ofNat w.toNat] := by
  have none : w >>> 8 = 0 := by
    apply BitVec.eq_of_toNat_eq
    rw [toNat_shift_byte, Nat.div_eq_of_lt byte]
    rfl
  rw [digits_of_ne_zero (ne_zero_of_toNat_pos positive), none, digits, dif_pos rfl]

/-- The digits of a word, with a sign put into them, are those of the number. -/
theorem withSign_digits (negative : Bool) {w : Word} {n : Nat} (same : w.toNat = n)
    (positive : 0 < n) : withSign negative (digits w) = SignMagnitude.digits negative n := by
  induction n using SignMagnitude.digits.induct negative generalizing w with
  | case1 n small =>
    have low : (UInt8.ofNat n).toNat = n :=
      UInt8.toNat_ofNat_of_lt' (Nat.lt_trans small (by decide))
    have free : ¬(UInt8.ofNat n &&& 0x80 ≠ 0) := by
      rw [and_sign_bit_ne_zero_iff, low]
      omega
    rw [digits_of_byte (by omega) (by omega), same, SignMagnitude.digits_of_lt small]
    simp only [withSign, List.getLast?_singleton, if_neg free]
    cases negative with
    | false => rfl
    | true =>
      have signed : UInt8.ofNat n ||| 0x80 = UInt8.ofNat (n + 128) := by
        rw [or_sign_bit _ (by omega), low]
      exact congrArg (fun b => [b]) signed
  | case2 n large byte =>
    have low : (UInt8.ofNat n).toNat = n := UInt8.toNat_ofNat_of_lt' byte
    have used : UInt8.ofNat n &&& 0x80 ≠ 0 := by
      rw [and_sign_bit_ne_zero_iff, low]
      omega
    rw [digits_of_byte (by omega) (by omega), same, SignMagnitude.digits_of_byte (by omega) byte]
    simp only [withSign, List.getLast?_singleton, if_pos used]
    cases negative <;> rfl
  | case3 n large long ih =>
    have high : (w >>> 8).toNat = n / 256 := by rw [toNat_shift_byte, same]
    have more : digits (w >>> 8) ≠ [] := by
      rw [digits_of_ne_zero (ne_zero_of_toNat_pos (by omega))]
      exact List.cons_ne_nil _ _
    rw [SignMagnitude.digits_of_le (by omega), digits_of_ne_zero (ne_zero_of_toNat_pos (by omega)),
      withSign_cons _ _ more, ih high (by omega), same]

end Word

namespace ScriptNum

theorem toInt_toWord (n : ScriptNum) : n.toWord.toInt = n.value :=
  BitVec.toInt_ofInt_eq_self (by decide) n.fits.1 n.fits.2

/-- The least number has an absolute value too, which fills the word to its top bit. -/
theorem toNat_abs_toWord (n : ScriptNum) : n.toWord.abs.toNat = n.value.natAbs := by
  have bound := n.toWord.isLt
  have signed := toInt_toWord n
  rw [BitVec.toInt_eq_msb_cond] at signed
  rw [BitVec.toNat_abs]
  split at signed
  · next negative =>
    rw [if_pos negative]
    omega
  · next positive =>
    rw [if_neg positive]
    omega

theorem toSignMagnitude_toWord (n : ScriptNum) : n.toWord.toSignMagnitude = n.encode := by
  have signed : n.toWord.slt 0 = decide (n.value < 0) := by
    rw [BitVec.slt_eq_decide, toInt_toWord]
    rfl
  rw [Word.toSignMagnitude, encode, SignMagnitude.encode, signed]
  by_cases zero : n.value = 0
  · rw [if_pos zero, toWord, zero]
    rfl
  · have abs := toNat_abs_toWord n
    have positive : n.toWord ≠ 0 := by
      intro none
      rw [none] at abs
      have : (0 : Word).abs.toNat = 0 := rfl
      omega
    rw [if_neg zero, if_neg positive, Word.withSign_digits _ abs (by omega)]

theorem decodeWord?_eq (bs : Bytes) (minimal : Bool) (maxLen : Nat) :
    decodeWord? bs minimal maxLen = some ((decode bs minimal maxLen).map toWord) := by
  rw [decodeWord?, decode, SignMagnitude.hasMinimalEnd_eq]
  by_cases short : bs.length ≤ Nat.min maxLen maxWidth
  · rw [if_neg (Nat.not_lt.2 short), dif_pos short]
    split
    · rfl
    · rw [Word.ofSignMagnitude?_eq_some (Nat.le_trans short (Nat.min_le_right _ _))]
      rfl
  · rw [if_pos (Nat.lt_of_not_le short), dif_neg short]
    rfl

/-- Whether an integer has a place in `maxLen` bytes, of which no more than eight are used: all
bits but one are for the magnitude. -/
def FitsIn (maxLen : Nat) (v : Int) : Prop :=
  if maxLen = 0 then v = 0 else v.natAbs < 2 ^ (8 * Nat.min maxLen 8 - 1)

instance (maxLen : Nat) (v : Int) : Decidable (FitsIn maxLen v) :=
  inferInstanceAs (Decidable (if maxLen = 0 then v = 0 else v.natAbs < 2 ^ (8 * Nat.min maxLen 8 - 1)))

theorem fitsIn_iff {maxLen : Nat} {v : Int} :
    FitsIn maxLen v ↔ (SignMagnitude.encode v).length ≤ Nat.min maxLen 8 := by
  cases maxLen with
  | zero =>
    have empty : (SignMagnitude.encode v).length ≤ 0 ↔ v.natAbs = 0 := by
      constructor
      · intro short
        rw [← SignMagnitude.value_encode v, List.length_eq_zero_iff.1 (Nat.le_zero.1 short)]
        rfl
      · intro zero
        rw [Int.natAbs_eq_zero.1 zero]
        exact Nat.le_refl 0
    exact Int.natAbs_eq_zero.symm.trans empty.symm
  | succ width =>
    have room : Nat.min (width + 1) 8 = Nat.min width 7 + 1 := Nat.succ_min_succ width 7
    have bits : 2 ^ (8 * (Nat.min width 7 + 1) - 1) = 128 * Bytes.capacity (Nat.min width 7) :=
      calc 2 ^ (8 * (Nat.min width 7 + 1) - 1)
          = 2 ^ (7 + 8 * Nat.min width 7) := congrArg _ (by omega)
        _ = 128 * Bytes.capacity (Nat.min width 7) := by
          rw [Nat.pow_add, Bytes.capacity_eq_two_pow]
    rw [room, SignMagnitude.encode_length_le_iff, ← bits, ← room]
    rfl

theorem decode_encode (n : ScriptNum) (minimal : Bool) (maxLen : Nat) :
    decode n.encode minimal maxLen =
      if FitsIn maxLen n.value then .ok n else .error .unknown := by
  split
  · next fits =>
    refine decode_eq_ok_iff.2 ⟨fitsIn_iff.1 fits, fun _ => ?_, ?_⟩
    · exact SignMagnitude.isMinimal_encode n.value
    · exact (SignMagnitude.value_encode n.value).symm
  · next wide => exact dif_neg (mt fitsIn_iff.2 wide)

theorem map_value_decode (bs : Bytes) (minimal : Bool) (maxLen : Nat) :
    (decode bs minimal maxLen).map value =
      if bs.length ≤ Nat.min maxLen 8 ∧
          (minimal = true → SignMagnitude.encode (SignMagnitude.value bs) = bs)
      then .ok (SignMagnitude.value bs) else .error .unknown := by
  simp only [← SignMagnitude.isMinimal_iff]
  split
  · next readable =>
    have fits := fitsInt64_value (Nat.le_trans readable.1 (Nat.min_le_right maxLen 8))
    have read : decode bs minimal maxLen = .ok ⟨SignMagnitude.value bs, fits⟩ :=
      decode_eq_ok_iff.2 ⟨readable.1, readable.2, rfl⟩
    rw [read]
    rfl
  · next unreadable =>
    cases outcome : decode bs minimal maxLen with
    | error error => rw [decode_error outcome]; rfl
    | ok n =>
      obtain ⟨short, shortest, -⟩ := decode_eq_ok_iff.1 outcome
      exact absurd ⟨short, shortest⟩ unreadable

/-- Writing and reading are inverse to each other as far as the bytes reach, and one word is enough
for both: no shift and no negation on the way overflows. -/
theorem decode_inverts_encode (minimal : Bool) (maxLen : Nat) :
    (∀ n : ScriptNum, decode n.encode minimal maxLen =
      if FitsIn maxLen n.value then .ok n else .error .unknown) ∧
    (∀ bs, (decode bs minimal maxLen).map value =
      if bs.length ≤ Nat.min maxLen 8 ∧
          (minimal = true → SignMagnitude.encode (SignMagnitude.value bs) = bs)
      then .ok (SignMagnitude.value bs) else .error .unknown) ∧
    (SignMagnitude.value [] = 0 ∧ ∀ front last,
      SignMagnitude.value (front ++ [last]) =
        if last &&& 0x80 ≠ 0 then -(Bytes.toNatLE (front ++ [last &&& 0x7f]) : Int)
        else Bytes.toNatLE (front ++ [last &&& 0x7f])) ∧
    (∀ bs, decodeWord? bs minimal maxLen = some ((decode bs minimal maxLen).map toWord)) ∧
    (∀ n : ScriptNum, n.toWord.toInt = n.value ∧ n.toWord.toSignMagnitude = n.encode) :=
  ⟨fun n => decode_encode n minimal maxLen, fun bs => map_value_decode bs minimal maxLen,
    ⟨rfl, SignMagnitude.value_concat⟩, fun bs => decodeWord?_eq bs minimal maxLen,
    fun n => ⟨toInt_toWord n, toSignMagnitude_toWord n⟩⟩

-- eight bytes fill the word: on the way to minus one it is the least integer plus one
example : decodeWord? [1, 0, 0, 0, 0, 0, 0, 0x80] false 9 = some (.ok (-1)) := rfl

end ScriptNum
end SpendScript
