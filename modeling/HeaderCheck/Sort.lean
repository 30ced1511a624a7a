/-! Sorting a list by a comparison. Elements that are equal under the comparison keep their order.
The recursion is structural, so that closed lists are sorted by evaluation, and the result is that
of the merge sort of the core library, whose lemmas apply. -/

namespace HeaderCheck

variable {α : Type}

/-- Merges with `x` in front of the first list; `merged` merges the rest of it. -/
def mergeBefore (le : α → α → Bool) (x : α) (merged : List α → List α) : List α → List α
  | [] => x :: merged []
  | y :: ys => if le x y then x :: merged (y :: ys) else y :: mergeBefore le x merged ys

def mergeSorted (le : α → α → Bool) : List α → List α → List α
  | [], ys => ys
  | x :: xs, ys => mergeBefore le x (mergeSorted le xs) ys

def sortWithin (le : α → α → Bool) : Nat → List α → List α
  | _, [] => []
  | _, [x] => [x]
  | 0, xs => xs
  | depth + 1, xs =>
    let half := (xs.length + 1) / 2
    mergeSorted le (sortWithin le depth (xs.take half)) (sortWithin le depth (xs.drop half))

/-- The list in ascending order. -/
def sortBy (le : α → α → Bool) (xs : List α) : List α := sortWithin le xs.length xs

theorem mergeSorted_eq_merge (le : α → α → Bool) (xs ys : List α) :
    mergeSorted le xs ys = xs.merge ys le := by
  induction xs generalizing ys with
  | nil => simp [mergeSorted]
  | cons x xs ih =>
    simp only [mergeSorted]
    induction ys with
    | nil => simp [mergeBefore, ih]
    | cons y ys ihy =>
      rw [mergeBefore, List.cons_merge_cons, ih, ihy]

theorem sortWithin_eq_mergeSort (le : α → α → Bool) (depth : Nat) (xs : List α)
    (h : xs.length ≤ depth) : sortWithin le depth xs = xs.mergeSort le := by
  induction depth generalizing xs with
  | zero =>
    have : xs = [] := by simpa using h
    simp [this, sortWithin]
  | succ depth ih =>
    match xs with
    | [] => simp [sortWithin]
    | [x] => simp [sortWithin]
    | x :: y :: xs =>
      rw [sortWithin.eq_4 _ _ _ (by simp) (by simp), List.mergeSort]
      simp only [List.MergeSort.Internal.splitInTwo_fst, List.MergeSort.Internal.splitInTwo_snd]
      rw [ih _ (by simp only [List.length_take, List.length_cons] at *; omega),
        ih _ (by simp only [List.length_drop, List.length_cons] at *; omega),
        mergeSorted_eq_merge]

theorem sortBy_eq_mergeSort (le : α → α → Bool) (xs : List α) : sortBy le xs = xs.mergeSort le :=
  sortWithin_eq_mergeSort le xs.length xs (Nat.le_refl _)

theorem sortBy_perm (le : α → α → Bool) (xs : List α) : (sortBy le xs).Perm xs := by
  rw [sortBy_eq_mergeSort]
  exact List.mergeSort_perm xs le

end HeaderCheck
