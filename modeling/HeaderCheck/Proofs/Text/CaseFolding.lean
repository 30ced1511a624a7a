import HeaderCheck.Text.CaseFolding
import Mathlib.Data.Nat.Notation

/-! Folding leaves the characters below the letters alone, and no other character folds to one of
them. So a text has the line endings of its folding. -/

namespace HeaderCheck

/-- The code points to which the run leads are characters, and none lies below `low`. -/
def CharRun.LeadsFrom (low : ℕ) (r : CharRun) : Prop :=
  low ≤ r.image ∧ (r.image + (r.last - r.first) < 0xD800 ∨
    0xDFFF < r.image ∧ r.image + (r.last - r.first) < 0x110000)

instance (low : ℕ) (r : CharRun) : Decidable (r.LeadsFrom low) :=
  inferInstanceAs (Decidable (_ ∧ _))

theorem CharRun.le_move {low : ℕ} {r : CharRun} (h : r.LeadsFrom low) {c : Char}
    (hc : r.covers c = true) : low ≤ (r.move c).toNat := by
  obtain ⟨hlow, hvalid⟩ := h
  simp only [covers, Bool.and_eq_true, decide_eq_true_eq] at hc
  have hn : (r.image + (c.toNat - r.first)).isValidChar := by
    unfold Nat.isValidChar
    omega
  have hmove : (r.move c).toNat = r.image + (c.toNat - r.first) := by
    rw [move, Char.ofNat, dif_pos hn]
    rfl
  omega

theorem caseFoldings_leadFrom : ∀ r ∈ caseFoldings.runs, r.LeadsFrom 0x61 := by
  decide +kernel

theorem caseFoldings_first : ∀ r ∈ caseFoldings.runs, 0x41 ≤ r.first := by
  decide +kernel

theorem foldCase_eq_self_or (c : Char) : foldCase c = c ∨ 0x61 ≤ (foldCase c).toNat := by
  unfold foldCase CharMap.apply
  cases h : caseFoldings.runs.find? (·.covers c) with
  | none => exact Or.inl rfl
  | some r =>
    have hc := List.find?_some h
    exact Or.inr (CharRun.le_move (caseFoldings_leadFrom r (List.mem_of_find?_eq_some h)) hc)

/-- A character below the letters is its own folding. -/
theorem foldCase_of_lt {c : Char} (h : c.toNat < 0x41) : foldCase c = c := by
  have hfind : caseFoldings.runs.find? (·.covers c) = none := by
    rw [List.find?_eq_none]
    intro r hr hc
    have := caseFoldings_first r hr
    simp only [CharRun.covers, Bool.and_eq_true, decide_eq_true_eq] at hc
    omega
  rw [foldCase, CharMap.apply, hfind]

/-- And it is the folding of no other character. -/
theorem foldCase_eq_iff {c d : Char} (h : d.toNat < 0x41) : foldCase c = d ↔ c = d := by
  refine ⟨?_, ?_⟩
  · rintro rfl
    rcases foldCase_eq_self_or c with hc | hc
    · exact hc.symm
    · omega
  · rintro rfl
    exact foldCase_of_lt h

/-- The text with every character folded. -/
def Text.folded (t : Text) : Text := t.map foldCase

namespace Text

@[simp] theorem folded_nil : folded [] = [] := rfl

@[simp] theorem folded_cons (c : Char) (t : Text) : folded (c :: t) = foldCase c :: t.folded := rfl

@[simp] theorem folded_append (s t : Text) : (s ++ t).folded = s.folded ++ t.folded :=
  List.map_append

theorem mem_folded_iff {t : Text} {d : Char} (h : d.toNat < 0x41) : d ∈ t.folded ↔ d ∈ t := by
  simp [folded, foldCase_eq_iff h]

theorem getLast?_folded_iff {t : Text} {d : Char} (h : d.toNat < 0x41) :
    t.folded.getLast? = some d ↔ t.getLast? = some d := by
  simp [folded, List.getLast?_map, foldCase_eq_iff h]

end Text

end HeaderCheck
