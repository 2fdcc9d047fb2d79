/-!
# Comma-separated text

Splitting a text at its commas, empty pieces included, and joining pieces with commas. The two
are inverse to each other on pieces that hold no comma.
-/
set_option autoImplicit false

namespace SpendScript.Commas

/-- The pieces between commas: one more than there are commas. -/
def split : List Char → List (List Char)
  | [] => [[]]
  | c :: rest =>
    if c = ',' then [] :: split rest
    else match split rest with
      | [] => [[c]]
      | piece :: pieces => (c :: piece) :: pieces

/-- The pieces in order, a comma between neighbours. -/
def join : List (List Char) → List Char
  | [] => []
  | [piece] => piece
  | piece :: next :: pieces => piece ++ ',' :: join (next :: pieces)

theorem split_ne_nil (text : List Char) : split text ≠ [] := by
  cases text with
  | nil => simp [split]
  | cons c rest =>
    simp only [split]
    split
    · simp
    · split <;> simp

/-- Splitting loses nothing. -/
theorem join_split (text : List Char) : join (split text) = text := by
  induction text with
  | nil => rfl
  | cons c rest ih =>
    have nonempty := split_ne_nil rest
    simp only [split]
    cases hs : split rest with
    | nil => exact absurd hs nonempty
    | cons piece pieces =>
      rw [hs] at ih
      by_cases hc : c = ','
      · simp [hc, join, ih]
      · cases pieces with
        | nil => simp_all [join]
        | cons next pieces => simp_all [join]

private theorem split_append {piece rest : List Char} (h : ',' ∉ piece) :
    split (piece ++ ',' :: rest) = piece :: split rest := by
  induction piece with
  | nil => simp [split]
  | cons c piece ih =>
    simp only [List.mem_cons, not_or] at h
    have hc : ¬c = ',' := fun e => h.1 e.symm
    simp [split, hc, ih h.2]

private theorem split_single {piece : List Char} (h : ',' ∉ piece) : split piece = [piece] := by
  induction piece with
  | nil => rfl
  | cons c piece ih =>
    simp only [List.mem_cons, not_or] at h
    have hc : ¬c = ',' := fun e => h.1 e.symm
    simp [split, hc, ih h.2]

/-- Splitting recovers the pieces that were joined. -/
theorem split_join {pieces : List (List Char)} (nonempty : pieces ≠ [])
    (h : ∀ piece ∈ pieces, ',' ∉ piece) : split (join pieces) = pieces := by
  induction pieces with
  | nil => exact absurd rfl nonempty
  | cons piece pieces ih =>
    cases pieces with
    | nil => exact split_single (h piece (by simp))
    | cons next pieces =>
      rw [join, split_append (h piece (by simp)), ih (by simp) (fun p hp => h p (by simp [hp]))]

end SpendScript.Commas
