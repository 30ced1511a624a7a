/-! Text is the list of its characters, so that a fact about a text is a fact about a list. The
order on texts is the one by code point, character by character. -/

namespace HeaderCheck

/-- Characters in reading order. -/
abbrev Text := List Char

namespace Text

/-- Whether `s` stands at or before `t`. -/
def le (s t : Text) : Bool := !decide (t < s)

/-- The pieces between the occurrences of `sep`: one more piece than there are separators. -/
def pieces (sep : Char) : Text → List Text
  | [] => [[]]
  | c :: rest =>
    if c = sep then [] :: pieces sep rest
    else match pieces sep rest with
      | [] => [[c]]
      | piece :: more => (c :: piece) :: more

theorem pieces_ne_nil (sep : Char) (t : Text) : pieces sep t ≠ [] := by
  cases t with
  | nil => simp [pieces]
  | cons c rest =>
    simp only [pieces]
    split
    · simp
    · split <;> simp

/-- Writes `sep` between the pieces. -/
def joined (sep : Char) : List Text → Text
  | [] => []
  | [piece] => piece
  | piece :: more => piece ++ sep :: joined sep more

theorem joined_cons_cons (sep : Char) (p q : Text) (more : List Text) :
    joined sep (p :: q :: more) = p ++ sep :: joined sep (q :: more) := rfl

/-- Cutting at the separators loses nothing. -/
theorem joined_pieces (sep : Char) (t : Text) : joined sep (pieces sep t) = t := by
  induction t with
  | nil => rfl
  | cons c rest ih =>
    simp only [pieces]
    cases h : pieces sep rest with
    | nil => exact absurd h (pieces_ne_nil sep rest)
    | cons piece more =>
      rw [h] at ih
      split
      · next hc => rw [joined_cons_cons, ih, hc, List.nil_append]
      · cases more with
        | nil => simpa [joined] using ih
        | cons q more => rw [joined_cons_cons] at ih ⊢; rw [← ih, List.cons_append]

/-- Whether `fragment` stands somewhere in the text. -/
def hasFragment : Text → Text → Bool
  | [], fragment => fragment.isEmpty
  | c :: rest, fragment => fragment.isPrefixOf (c :: rest) || hasFragment rest fragment

theorem hasFragment_iff (t fragment : Text) : t.hasFragment fragment = true ↔ fragment <:+: t := by
  induction t with
  | nil => simp [hasFragment]
  | cons c rest ih =>
    simp only [hasFragment, Bool.or_eq_true, List.isPrefixOf_iff_prefix, ih, List.infix_cons_iff]

end Text

end HeaderCheck
