import Mathlib.Data.Nat.Bitwise
import Mathlib.Tactic.Tauto
import SpendScript.Flags

/-!
# Flags by name and by bit

A set of flags is written as a text of names or as a number, and both are read again. What is read from
names depends on which names there are and not on where they stand; only of several unknown ones it is
the first that is reported. Each way of writing loses nothing, because no name holds a comma and no two
flags share a bit. What is written for a set and read again is therefore the set, unless it breaks the
rule that sets have to meet, and no set that was read does.
-/
set_option autoImplicit false

namespace SpendScript

namespace Commas

/-- Between two pieces stands one comma. -/
theorem join_eq_intercalate (pieces : List (List Char)) :
    join pieces = [','].intercalate pieces := by
  induction pieces using join.induct with
  | case1 => rfl
  | case2 piece => exact (List.append_nil piece).symm
  | case3 piece next pieces ih =>
    rw [join, ih]
    rfl

theorem comma_not_mem_of_mem_split {text piece : List Char} (h : piece ∈ split text) :
    ',' ∉ piece := by
  induction text generalizing piece with
  | nil =>
    rw [List.mem_singleton.1 h]
    exact List.not_mem_nil
  | cons c rest ih =>
    rw [split] at h
    split at h
    · rcases List.mem_cons.1 h with rfl | h
      · exact List.not_mem_nil
      · exact ih h
    · next other =>
      split at h
      · rw [List.mem_singleton.1 h]
        exact fun same => other (List.mem_singleton.1 same).symm
      · next first pieces found =>
        rw [found] at ih
        rcases List.mem_cons.1 h with rfl | h
        · intro comma
          rcases List.mem_cons.1 comma with same | comma
          · exact other same.symm
          · exact ih List.mem_cons_self comma
        · exact ih (List.mem_cons_of_mem _ h)

/-- The text consists of these pieces with a comma between neighbours and no other comma. -/
structure Pieces (text : String) (pieces : List String) : Prop where
  nonempty : pieces ≠ []
  unbroken : ∀ piece ∈ pieces, ',' ∉ piece.toList
  joined : ",".intercalate pieces = text

/-- A text has its pieces in one way, and splitting finds them. -/
theorem pieces_iff {text : String} {pieces : List String} :
    Pieces text pieces ↔ pieces = (split text.toList).map String.ofList := by
  constructor
  · intro ⟨nonempty, unbroken, joined⟩
    have spelled : join (pieces.map String.toList) = text.toList := by
      rw [join_eq_intercalate, ← joined, String.toList_intercalate]
      rfl
    have whole : ∀ piece ∈ pieces.map String.toList, ',' ∉ piece := List.forall_mem_map.2 unbroken
    rw [← spelled, split_join (mt List.map_eq_nil_iff.1 nonempty) whole, List.map_map]
    simp
  · rintro rfl
    refine ⟨mt List.map_eq_nil_iff.1 (split_ne_nil _), List.forall_mem_map.2 ?_, ?_⟩
    · intro piece listed
      rw [String.toList_ofList]
      exact comma_not_mem_of_mem_split listed
    · apply String.toList_inj.1
      have back : ((split text.toList).map String.ofList).map String.toList = split text.toList := by
        simp
      rw [String.toList_intercalate, back]
      exact (join_eq_intercalate _).symm.trans (join_split _)

end Commas

namespace Flags

/-- The name stands in the registry. -/
def Registered (name : String) : Prop :=
  name ∈ registry.map Prod.fst

instance (name : String) : Decidable (Registered name) :=
  inferInstanceAs (Decidable (_ ∈ _))

/-- The first of the names that does not stand there. -/
def firstUnknown? (names : List String) : Option String :=
  names.find? fun name => decide ¬Registered name

theorem registered_name (f : Flag) : Registered f.name := by
  cases f <;> decide

theorem name_ne_none (f : Flag) : f.name ≠ "NONE" := by
  cases f <;> decide

theorem lookup?_eq (name : String) :
    lookup? name = if Registered name then some (ofPred fun f => f.name == name) else none := by
  split
  · next known =>
    have rows : ∀ row ∈ registry, lookup? row.1 = some (ofPred fun f => f.name == row.1) := by decide
    obtain ⟨row, listed, rfl⟩ := List.mem_map.1 known
    exact rows row listed
  · next unknown =>
    refine List.lookup_eq_none_iff.2 fun row listed => ?_
    rw [bne_iff_ne]
    rintro rfl
    exact unknown (List.mem_map_of_mem listed)

/-- The flags that are named. -/
def ofNames (names : List String) : Flags :=
  ofPred fun f => decide (f.name ∈ names)

theorem has_ofNames (names : List String) (f : Flag) :
    (ofNames names).has f = true ↔ f.name ∈ names := by
  rw [ofNames, has_ofPred, decide_eq_true_iff]

/-- A flag is named if one of the names is looked up to a set that has it. -/
theorem has_ofNames_iff_lookup? (names : List String) (f : Flag) :
    (ofNames names).has f = true ↔
      ∃ name ∈ names, ∃ set, lookup? name = some set ∧ set.has f = true := by
  rw [has_ofNames]
  constructor
  · intro listed
    refine ⟨f.name, listed, _, by rw [lookup?_eq, if_pos (registered_name f)], ?_⟩
    rw [has_ofPred, beq_self_eq_true]
  · rintro ⟨name, listed, set, found, member⟩
    rw [lookup?_eq] at found
    split at found
    · cases found
      rw [has_ofPred, beq_iff_eq] at member
      rwa [member]
    · cases found

theorem collect_eq (names : List String) :
    collect names =
      match firstUnknown? names with
      | some name => .error (.unknownFlag name)
      | none => .ok (ofNames names) := by
  induction names with
  | nil => rfl
  | cons name names ih =>
    rw [collect, lookup?_eq, firstUnknown?, List.find?_cons]
    by_cases known : Registered name
    · rw [if_pos known, decide_eq_false (not_not_intro known)]
      dsimp only
      rw [ih, firstUnknown?]
      cases names.find? fun name => decide ¬Registered name with
      | some other => rfl
      | none =>
        refine congrArg Except.ok (ext_has fun f => ?_)
        rw [has_union, has_ofPred, ofNames, ofNames, has_ofPred, has_ofPred]
        by_cases same : f.name = name <;> simp [same]
    · rw [if_neg known, decide_eq_true known]

theorem resolve_eq (names : List String) :
    resolve names =
      match firstUnknown? names with
      | some name => .error (.unknownFlag name)
      | none => (ofNames names).validated := by
  rw [resolve, collect_eq]
  cases firstUnknown? names <;> rfl

/-- If all the names are known, it remains to look at the rule that sets have to meet. -/
theorem resolve_of_registered {names : List String} (known : ∀ name ∈ names, Registered name) :
    resolve names = (ofNames names).validated := by
  have found : firstUnknown? names = none :=
    List.find?_eq_none.2 fun name listed => by simpa using known name listed
  rw [resolve_eq, found]

theorem resolve_of_unknown {names : List String} {name : String} (listed : name ∈ names)
    (unknown : ¬Registered name) : ∃ first, resolve names = .error (.unknownFlag first) := by
  rw [resolve_eq]
  cases found : firstUnknown? names with
  | some first => exact ⟨first, rfl⟩
  | none => exact absurd (decide_eq_true unknown) (List.find?_eq_none.1 found name listed)

/-- Of known names it only matters which there are, and the one of the empty set does not matter. -/
theorem resolve_congr {names names' : List String} (known : ∀ name ∈ names, Registered name)
    (known' : ∀ name ∈ names', Registered name)
    (same : ∀ name, name ≠ "NONE" → (name ∈ names ↔ name ∈ names')) :
    resolve names = resolve names' := by
  have union : ofNames names = ofNames names' := by
    refine ext_has fun f => Bool.eq_iff_iff.2 ?_
    rw [has_ofNames, has_ofNames]
    exact same f.name (name_ne_none f)
  rw [resolve_of_registered known, resolve_of_registered known', union]

theorem validated_eq (names : List String) :
    (ofNames names).validated =
      if "CLEANSTACK" ∈ names ∧ "P2SH" ∉ names then .error .cleanStackWithoutP2sh
      else .ok (ofNames names) := by
  have clean : (ofNames names).cleanStack = decide ("CLEANSTACK" ∈ names) := rfl
  have p2sh : (ofNames names).p2sh = decide ("P2SH" ∈ names) := rfl
  rw [validated, clean, p2sh]
  by_cases asked : "CLEANSTACK" ∈ names <;> by_cases given : "P2SH" ∈ names <;> simp [asked, given]

theorem validated_eq_ok {flags result : Flags} (h : flags.validated = .ok result) : result = flags := by
  rw [validated] at h
  split at h
  · cases h
  · exact (Except.ok.inj h).symm

/-- The names that are written for the set. -/
def written (flags : Flags) : List String :=
  if flags.isEmpty then ["NONE"] else flags.names

/-- A mark that tells the flags apart is the mark of a member only for the members. -/
theorem exists_mem_toList_iff {α : Type} {mark : Flag → α}
    (distinct : ∀ f ∈ Flag.all, ∀ g ∈ Flag.all, mark f = mark g → f = g) {flags : Flags} {f : Flag} :
    (∃ g ∈ flags.toList, mark g = mark f) ↔ flags.has f = true := by
  constructor
  · rintro ⟨g, listed, same⟩
    rw [← distinct g (Flag.mem_all g) f (Flag.mem_all f) same]
    exact (List.mem_filter.1 listed).2
  · intro member
    exact ⟨f, List.mem_filter.2 ⟨Flag.mem_all f, member⟩, rfl⟩

theorem toList_eq_nil_iff {flags : Flags} : flags.toList = [] ↔ flags.isEmpty = true := by
  rw [toList, List.filter_eq_nil_iff, isEmpty, List.all_eq_true]
  simp only [Bool.not_eq_true, Bool.not_eq_eq_eq_not, Bool.not_true]

theorem name_mem_names {flags : Flags} {f : Flag} : f.name ∈ flags.names ↔ flags.has f = true :=
  List.mem_map.trans (exists_mem_toList_iff (by decide))

/-- The names that are written for a set stand for it. -/
theorem ofNames_written (flags : Flags) : ofNames flags.written = flags := by
  refine ext_has fun f => Bool.eq_iff_iff.2 ?_
  rw [has_ofNames, written]
  split
  · next empty =>
    have unnamed : f.name ∉ ["NONE"] := fun same => name_ne_none f (List.mem_singleton.1 same)
    have absent : flags.has f = false := by
      simpa using List.all_eq_true.1 empty f (Flag.mem_all f)
    rw [absent]
    exact iff_of_false unnamed Bool.false_ne_true
  · exact name_mem_names

theorem registered_of_mem_written {flags : Flags} {name : String} (h : name ∈ flags.written) :
    Registered name := by
  rw [written] at h
  split at h
  · rw [List.mem_singleton.1 h]
    decide
  · obtain ⟨f, _, rfl⟩ := List.mem_map.1 h
    exact registered_name f

theorem pieces_display (flags : Flags) : Commas.Pieces flags.display flags.written := by
  have whole : ∀ name ∈ registry.map Prod.fst, ',' ∉ name.toList := by decide
  refine ⟨?_, fun name listed => whole name (registered_of_mem_written listed), ?_⟩
  · rw [written]
    split
    · exact List.cons_ne_nil _ _
    · next some =>
      intro none
      exact some (toList_eq_nil_iff.1 (List.map_eq_nil_iff.1 none))
  · apply String.toList_inj.1
    rw [String.toList_intercalate, written, display]
    split
    · rfl
    · exact (Commas.join_eq_intercalate _).symm.trans String.toList_ofList.symm

theorem parse_of_pieces {text : String} {pieces : List String} (nonempty : text ≠ "")
    (h : Commas.Pieces text pieces) : parse text = resolve pieces := by
  rw [Commas.pieces_iff.1 h, parse]
  split
  · next none => exact absurd (String.toList_inj.1 none) nonempty
  · rfl

/-- What is written for a set and read again is the set, if it may be a set at all. -/
theorem parse_display (flags : Flags) : parse flags.display = flags.validated := by
  have known : ∀ name ∈ flags.written, Registered name := fun _ => registered_of_mem_written
  have nonempty : flags.display ≠ "" := by
    intro none
    have pieces := Commas.pieces_iff.1 (none ▸ pieces_display flags)
    have blank : "" ∈ flags.written := by
      rw [pieces]
      decide
    exact absurd (known "" blank) (by decide)
  rw [parse_of_pieces nonempty (pieces_display flags), resolve_of_registered known, ofNames_written]

/-- A bit below all the others is added as it is put in. -/
theorem two_pow_add_eq_or {p rest : Nat} (low : ∀ k ≤ p, rest.testBit k = false) :
    2 ^ p + rest = rest ||| 2 ^ p := by
  have none : rest % 2 ^ (p + 1) = 0 := by
    refine Nat.eq_of_testBit_eq fun k => ?_
    rw [Nat.testBit_mod_two_pow, Nat.zero_testBit]
    by_cases below : k < p + 1
    · rw [low k (Nat.le_of_lt_succ below), Bool.and_false]
    · rw [decide_eq_false below, Bool.false_and]
  have small : 2 ^ p < 2 ^ (p + 1) := Nat.pow_lt_pow_succ Nat.one_lt_two
  have split := Nat.two_pow_add_eq_or_of_lt small (rest / 2 ^ (p + 1))
  rw [Nat.mul_div_cancel' (Nat.dvd_of_mod_eq_zero none)] at split
  rw [Nat.add_comm, split]

/-- Bits at increasing positions do not run into each other when they are added. -/
theorem testBit_sum {flags : List Flag} (sorted : flags.Pairwise fun f g => f.position < g.position)
    (k : Nat) :
    (flags.foldr (fun f sum => (1 <<< f.position) + sum) 0).testBit k =
      flags.any fun f => decide (f.position = k) := by
  induction flags generalizing k with
  | nil => exact Nat.zero_testBit k
  | cons f flags ih =>
    obtain ⟨least, sorted⟩ := List.pairwise_cons.1 sorted
    have low : ∀ k ≤ f.position,
        (flags.foldr (fun f sum => (1 <<< f.position) + sum) 0).testBit k = false := by
      intro k below
      refine (ih sorted k).trans (List.any_eq_false.2 fun g listed => ?_)
      have above := least g listed
      rw [decide_eq_true_iff]
      omega
    rw [List.foldr_cons, Nat.one_shiftLeft, two_pow_add_eq_or low, Nat.testBit_or, ih sorted,
      Nat.testBit_two_pow, List.any_cons, Bool.or_comm]

theorem testBit_bits (flags : Flags) (k : Nat) :
    flags.bits.testBit k = flags.toList.any fun f => decide (f.position = k) := by
  have sorted : Flag.all.Pairwise fun f g => f.position < g.position := by decide
  exact testBit_sum (sorted.filter _) k

theorem testBit_position (flags : Flags) (f : Flag) :
    flags.bits.testBit f.position = flags.has f := by
  rw [testBit_bits, Bool.eq_iff_iff, List.any_eq_true]
  simp only [decide_eq_true_iff]
  exact exists_mem_toList_iff (by decide)

theorem bits_lt (flags : Flags) : flags.bits < 2 ^ Flag.all.length := by
  have bound : ∀ f ∈ Flag.all, f.position < Flag.all.length := by decide
  refine Nat.lt_pow_two_of_testBit _ fun k high => ?_
  rw [testBit_bits]
  refine List.any_eq_false.2 fun f _ => ?_
  have low := bound f (Flag.mem_all f)
  rw [decide_eq_true_iff]
  omega

/-- The bits of a set give it back, if it may be a set at all. -/
theorem ofBits?_bits (flags : Flags) : ofBits? flags.bits = flags.validated := by
  have owned : flags.bits >>> Flag.all.length = 0 := Nat.shiftRight_eq_zero _ _ (bits_lt flags)
  have same : (ofPred fun f => flags.bits.testBit f.position) = flags :=
    ext_has fun f => (has_ofPred _ f).trans (testBit_position flags f)
  rw [ofBits?, owned, Nat.zero_shiftLeft, if_neg (not_not_intro rfl), same]

/-- Only a set that meets the rule is ever read. -/
theorem validated_of_parse {text : String} {flags : Flags} (h : parse text = .ok flags) :
    flags.validated = .ok flags := by
  rw [parse] at h
  split at h
  · cases h
    rfl
  · rw [resolve] at h
    cases collected : collect ((Commas.split text.toList).map String.ofList) with
    | error error =>
      rw [collected] at h
      cases h
    | ok union =>
      rw [collected] at h
      have valid : union.validated = .ok flags := h
      rwa [← validated_eq_ok valid] at valid

/-- Of unknown names the first is reported; of known ones it matters which there are. A text stands for
its pieces between commas, of which an empty one is no name. What is read is written in names and in
bits from which it is read again. -/
theorem flags_of_names :
    (∀ names : List String,
      resolve names =
        match firstUnknown? names with
        | some name => .error (.unknownFlag name)
        | none =>
          if "CLEANSTACK" ∈ names ∧ "P2SH" ∉ names then .error .cleanStackWithoutP2sh
          else .ok (ofNames names)) ∧
      (∀ (names : List String) (f : Flag), (ofNames names).has f = true ↔
        ∃ name ∈ names, ∃ set, lookup? name = some set ∧ set.has f = true) ∧
      (∀ names names' : List String, (∀ name ∈ names, Registered name) →
        (∀ name ∈ names', Registered name) →
        (∀ name, name ≠ "NONE" → (name ∈ names ↔ name ∈ names')) → resolve names = resolve names') ∧
      parse "" = .ok empty ∧
      (∀ text : String, text ≠ "" →
        ∃ pieces : List String, (∀ other, Commas.Pieces text other ↔ other = pieces) ∧
          parse text = resolve pieces ∧
            ("" ∈ pieces → ∃ name, parse text = .error (.unknownFlag name))) ∧
      ∀ (text : String) (flags : Flags), parse text = .ok flags →
        parse flags.display = .ok flags ∧ ofBits? flags.bits = .ok flags := by
  refine ⟨fun names => ?_, has_ofNames_iff_lookup?, fun _ _ => resolve_congr, rfl,
    fun text nonempty => ?_, fun text flags read => ?_⟩
  · rw [resolve_eq, validated_eq]
  · have read := parse_of_pieces nonempty (Commas.pieces_iff.2 rfl)
    refine ⟨_, fun _ => Commas.pieces_iff, read, fun blank => ?_⟩
    rw [read]
    exact resolve_of_unknown blank (by decide)
  · have valid := validated_of_parse read
    exact ⟨(parse_display flags).trans valid, (ofBits?_bits flags).trans valid⟩

/-- Two flags are read in any order and written in the order of their bits. -/
theorem flags_of_names_two :
    let flags : Flags := { p2sh := true, strictEnc := true }
    parse "STRICTENC,P2SH,NONE,P2SH" = .ok flags ∧ flags.display = "P2SH,STRICTENC" ∧
      flags.bits = 3 ∧ parse "P2SH,STRICTENC" = .ok flags ∧ ofBits? 3 = .ok flags ∧
      resolve ["STRICTENC", "P2SH", "NONE", "P2SH"] = resolve ["P2SH", "STRICTENC"] ∧
      (∃ name, parse "P2SH,,WITNESS" = .error (.unknownFlag name)) ∧
      resolve ["CLEANSTACK", "WITNESS", ""] = .error (.unknownFlag "WITNESS") ∧
      resolve ["NONE", "CLEANSTACK"] = .error .cleanStackWithoutP2sh := by
  intro flags
  obtain ⟨resolved, -, reordered, -, pieces, again⟩ := flags_of_names
  have written : flags.display = "P2SH,STRICTENC" := by decide
  have bits : flags.bits = 3 := by decide
  have read : parse "STRICTENC,P2SH,NONE,P2SH" = .ok flags := by decide
  obtain ⟨shown, numbered⟩ := again _ flags read
  rw [written] at shown
  rw [bits] at numbered
  obtain ⟨found, unique, _, blank⟩ := pieces "P2SH,,WITNESS" (by decide)
  have three : ["P2SH", "", "WITNESS"] = found := (unique _).1 ⟨by decide, by decide, by decide⟩
  have same : resolve ["STRICTENC", "P2SH", "NONE", "P2SH"] = resolve ["P2SH", "STRICTENC"] :=
    reordered _ _ (by decide) (by decide) fun name other => by simp [other]; tauto
  exact ⟨read, written, bits, shown, numbered, same, blank (three ▸ by decide),
    (resolved _).trans (by decide), (resolved _).trans (by decide)⟩

end Flags
end SpendScript
