import HeaderCheck.Text.Basic
import Mathlib.Data.List.Basic

/-! The pieces of a text between separators. -/

namespace HeaderCheck.Text

theorem pieces_append_sep (sep : Char) (s t : Text) :
    pieces sep (s ++ sep :: t) = pieces sep s ++ pieces sep t := by
  induction s with
  | nil => simp [pieces]
  | cons c s ih =>
    rw [List.cons_append, pieces, pieces, ih]
    split_ifs
    · rfl
    · cases h : pieces sep s with
      | nil => exact absurd h (pieces_ne_nil sep s)
      | cons piece more => rfl

theorem pieces_of_not_mem {sep : Char} {t : Text} (h : sep ∉ t) : pieces sep t = [t] := by
  induction t with
  | nil => rfl
  | cons c t ih =>
    obtain ⟨hc, ht⟩ := List.ne_and_not_mem_of_not_mem_cons h
    rw [pieces, if_neg hc.symm, ih ht]

theorem pieces_joined {sep : Char} {texts : List Text} (h : ∀ t ∈ texts, sep ∉ t)
    (hne : texts ≠ []) : pieces sep (joined sep texts) = texts := by
  induction texts with
  | nil => exact absurd rfl hne
  | cons t more ih =>
    obtain ⟨ht, hmore⟩ := List.forall_mem_cons.1 h
    cases more with
    | nil => exact pieces_of_not_mem ht
    | cons next more =>
      rw [joined_cons_cons, pieces_append_sep, pieces_of_not_mem ht,
        ih hmore (List.cons_ne_nil _ _), List.singleton_append]

theorem notMem_of_mem_pieces {sep : Char} {t piece : Text} (h : piece ∈ pieces sep t) :
    sep ∉ piece := by
  induction t generalizing piece with
  | nil =>
    rw [List.mem_singleton.1 h]
    exact List.not_mem_nil
  | cons c t ih =>
    rw [pieces] at h
    split_ifs at h with hc
    · rcases List.mem_cons.1 h with rfl | h
      · exact List.not_mem_nil
      · exact ih h
    · cases hp : pieces sep t with
      | nil => exact absurd hp (pieces_ne_nil sep t)
      | cons first more =>
        rw [hp] at h ih
        rcases List.mem_cons.1 h with rfl | h
        · rw [List.mem_cons, not_or]
          exact ⟨Ne.symm hc, ih List.mem_cons_self⟩
        · exact ih (List.mem_cons_of_mem _ h)

theorem joined_cons_eq (sep : Char) (piece : Text) (more : List Text) :
    joined sep (piece :: more) = piece ++ more.flatMap (sep :: ·) := by
  induction more generalizing piece with
  | nil => simp [joined]
  | cons next more ih => rw [joined_cons_cons, ih, List.flatMap_cons, List.cons_append]

theorem mem_joined {sep c : Char} {texts : List Text} (h : c ∈ joined sep texts) :
    c = sep ∨ ∃ t ∈ texts, c ∈ t := by
  cases texts with
  | nil => cases h
  | cons first more =>
    rw [joined_cons_eq, List.mem_append, List.mem_flatMap] at h
    rcases h with h | ⟨t, ht, h⟩
    · exact Or.inr ⟨first, List.mem_cons_self, h⟩
    · rcases List.mem_cons.1 h with rfl | h
      · exact Or.inl rfl
      · exact Or.inr ⟨t, List.mem_cons_of_mem _ ht, h⟩

theorem joined_sublist_append (sep : Char) (front texts : List Text) :
    (joined sep texts).Sublist (joined sep (front ++ texts)) := by
  induction front with
  | nil => exact List.Sublist.refl _
  | cons first front ih =>
    refine ih.trans ?_
    rw [List.cons_append]
    cases front ++ texts with
    | nil => exact List.nil_sublist _
    | cons next rest =>
      rw [joined_cons_cons]
      exact (List.sublist_cons_self _ _).trans (List.sublist_append_right _ _)

/-- The first piece is what stands before the first separator. -/
theorem head?_pieces_eq_some_iff {sep : Char} {t piece : Text} :
    (pieces sep t).head? = some piece ↔
      sep ∉ piece ∧ (t = piece ∨ ∃ more, t = piece ++ sep :: more) := by
  refine ⟨?_, ?_⟩
  · intro h
    obtain ⟨rest, hrest⟩ := List.head?_eq_some_iff.1 h
    have ht := joined_pieces sep t
    rw [hrest, joined_cons_eq] at ht
    refine ⟨notMem_of_mem_pieces (hrest ▸ List.mem_cons_self), ?_⟩
    rcases rest with _ | ⟨next, rest⟩
    · exact Or.inl (by simpa using ht.symm)
    · exact Or.inr ⟨_, by simpa using ht.symm⟩
  · rintro ⟨hsep, rfl | ⟨more, rfl⟩⟩
    · rw [pieces_of_not_mem hsep, List.head?_cons]
    · rw [pieces_append_sep, pieces_of_not_mem hsep, List.singleton_append, List.head?_cons]

/-- A text that ends with a separator is one whose last piece is empty. -/
theorem getLast?_pieces_eq_nil_iff (sep : Char) {t : Text} (hne : t ≠ []) :
    (pieces sep t).getLast? = some [] ↔ t.getLast? = some sep := by
  refine ⟨fun h => ?_, fun h => ?_⟩
  · obtain ⟨front, hfront⟩ := List.getLast?_eq_some_iff.1 h
    have ht : joined sep (front ++ [[]]) = t := hfront ▸ joined_pieces sep t
    cases front with
    | nil => exact absurd ht.symm hne
    | cons first front =>
      rw [← ht, List.cons_append, joined_cons_eq, List.flatMap_append]
      simp
  · obtain ⟨front, rfl⟩ := List.getLast?_eq_some_iff.1 h
    rw [pieces_append_sep]
    simp [pieces]

end HeaderCheck.Text
