import HeaderCheck.Path.Order
import HeaderCheck.Sort

/-! Sorting forgets in which order the elements came. What is sorted by an order on keys shows the
same keys for every arrangement of the same elements, be they names, told apart by all of their
characters, or paths, told apart by their components alone. -/

namespace HeaderCheck

/-- A comparison by which any two elements are put in order, equal ones only in both ways. -/
structure Orders {α : Type} (le : α → α → Bool) : Prop where
  trans : ∀ a b c, le a b = true → le b c = true → le a c = true
  total : ∀ a b, le a b = true ∨ le b a = true
  antisymm : ∀ a b, le a b = true → le b a = true → a = b

theorem sortBy_perm_sortBy {α : Type} (le : α → α → Bool) {xs ys : List α} (h : xs.Perm ys) :
    (sortBy le xs).Perm (sortBy le ys) :=
  (sortBy_perm le xs).trans (h.trans (sortBy_perm le ys).symm)

namespace Orders

variable {α β : Type} {le : β → β → Bool} {xs ys : List α}

theorem pairwise_sortBy (h : Orders le) (key : α → β) (xs : List α) :
    (sortBy (fun a b => le (key a) (key b)) xs).Pairwise fun a b => le (key a) (key b) = true := by
  rw [sortBy_eq_mergeSort]
  apply List.pairwise_mergeSort
  · intro a b c
    exact h.trans (key a) (key b) (key c)
  · intro a b
    rw [Bool.or_eq_true]
    exact h.total (key a) (key b)

/-- The keys of the sorted elements do not depend on where the elements stood. -/
theorem map_sortBy_eq (h : Orders le) (key : α → β) (hperm : xs.Perm ys) :
    (sortBy (fun a b => le (key a) (key b)) xs).map key =
      (sortBy (fun a b => le (key a) (key b)) ys).map key := by
  have hsorted : ∀ xs, ((sortBy (fun a b => le (key a) (key b)) xs).map key).Pairwise
      fun a b => le a b = true := by
    intro xs
    rw [List.pairwise_map]
    exact h.pairwise_sortBy key xs
  apply List.Perm.eq_of_pairwise _ (hsorted xs) (hsorted ys) ((sortBy_perm_sortBy _ hperm).map key)
  intro a b _ _
  exact h.antisymm a b

/-- Where the keys tell the elements apart, the sorted elements themselves do not. -/
theorem sortBy_eq_of_injOn (h : Orders le) (key : α → β) (hperm : xs.Perm ys)
    (hinj : ∀ a ∈ xs, ∀ b ∈ xs, key a = key b → a = b) :
    sortBy (fun a b => le (key a) (key b)) xs = sortBy (fun a b => le (key a) (key b)) ys := by
  apply List.Perm.eq_of_pairwise _ (h.pairwise_sortBy key xs) (h.pairwise_sortBy key ys)
    (sortBy_perm_sortBy _ hperm)
  intro a b ha hb hab hba
  apply hinj a ((sortBy_perm _ xs).mem_iff.1 ha) b
  · exact hperm.mem_iff.2 ((sortBy_perm _ ys).mem_iff.1 hb)
  · exact h.antisymm (key a) (key b) hab hba

theorem sortBy_eq {xs ys : List β} (h : Orders le) (hperm : xs.Perm ys) :
    sortBy le xs = sortBy le ys :=
  h.sortBy_eq_of_injOn id hperm fun _ _ _ _ heq => heq

/-- One more element at the front comes between the sorted elements that are smaller than it and the
others. -/
theorem exists_sortBy_cons (h : Orders le) (key : α → β) (a : α) (xs : List α) :
    ∃ front back, sortBy (fun a b => le (key a) (key b)) (a :: xs) = front ++ a :: back ∧
      sortBy (fun a b => le (key a) (key b)) xs = front ++ back ∧
      front = (front ++ back).filter (fun b => !le (key a) (key b)) ∧
      back = (front ++ back).filter (fun b => le (key a) (key b)) := by
  have hsorted := h.pairwise_sortBy key (a :: xs)
  rw [sortBy_eq_mergeSort] at hsorted
  obtain ⟨front, back, hcons, hrest, hfront⟩ := List.mergeSort_cons
    (fun a b c : α => h.trans (key a) (key b) (key c))
    (fun a b : α => Bool.or_eq_true_iff.2 (h.total (key a) (key b))) a xs
  rw [hcons, List.pairwise_append, List.pairwise_cons] at hsorted
  have hback : ∀ b ∈ back, le (key a) (key b) = true := hsorted.2.1.1
  refine ⟨front, back, ?_, ?_, ?_, ?_⟩
  · rw [sortBy_eq_mergeSort, hcons]
  · rw [sortBy_eq_mergeSort, hrest]
  · rw [List.filter_append, List.filter_eq_self.2 hfront,
      List.filter_eq_nil_iff.2 fun b hb => by simp [hback b hb], List.append_nil]
  · rw [List.filter_append, List.filter_eq_self.2 hback,
      List.filter_eq_nil_iff.2 fun b hb => by simpa using hfront b hb, List.nil_append]

/-- Sorting is stable: elements that are left out leave the others in their order. -/
theorem sortBy_sublist (h : Orders le) (key : α → β) (hsub : xs.Sublist ys) :
    (sortBy (fun a b => le (key a) (key b)) xs).Sublist
      (sortBy (fun a b => le (key a) (key b)) ys) := by
  induction hsub with
  | slnil => exact List.Sublist.refl _
  | @cons xs ys a _ ih =>
    obtain ⟨front, back, hcons, hrest, -, -⟩ := h.exists_sortBy_cons key a ys
    rw [hcons]
    rw [hrest] at ih
    exact ih.trans ((List.sublist_cons_self a back).append_left front)
  | @cons_cons xs ys a _ ih =>
    obtain ⟨front, back, hcons, hrest, hfront, hback⟩ := h.exists_sortBy_cons key a xs
    obtain ⟨before, behind, hcons', hrest', hbefore, hbehind⟩ := h.exists_sortBy_cons key a ys
    rw [hrest, hrest'] at ih
    -- the comparison with `a` tells its two sides apart, in both lists
    have hleft : front.Sublist before := by
      rw [hfront, hbefore]
      exact ih.filter _
    have hright : back.Sublist behind := by
      rw [hback, hbehind]
      exact ih.filter _
    rw [hcons, hcons']
    exact hleft.append (hright.cons_cons a)

end Orders

/-- At most is not after. -/
theorem Text.orders_le : Orders Text.le where
  trans a b c hab hbc := by
    unfold Text.le at hab hbc ⊢
    rw [Bool.not_eq_true', decide_eq_false_iff_not] at hab hbc ⊢
    exact List.not_lt.2 (List.le_trans (List.not_lt.1 hab) (List.not_lt.1 hbc))
  total a b := by
    unfold Text.le
    rw [Bool.not_eq_true', decide_eq_false_iff_not, Bool.not_eq_true', decide_eq_false_iff_not]
    exact (List.le_total a b).imp List.not_lt.2 List.not_lt.2
  antisymm a b hab hba := by
    unfold Text.le at hab hba
    rw [Bool.not_eq_true', decide_eq_false_iff_not] at hab hba
    exact List.le_antisymm (List.not_lt.1 hab) (List.not_lt.1 hba)

/-- Texts of which none occurs twice stand strictly one after another when sorted. -/
theorem Text.pairwise_lt_sortBy {texts : List Text} (h : texts.Nodup) :
    (sortBy Text.le texts).Pairwise (· < ·) := by
  have hle := Text.orders_le.pairwise_sortBy id texts
  have hne : (sortBy Text.le texts).Pairwise (· ≠ ·) := (sortBy_perm Text.le texts).nodup_iff.2 h
  refine (hle.and hne).imp ?_
  intro s t hst
  obtain ⟨hle, hne⟩ := hst
  rw [id, id, Text.le, Bool.not_eq_true', decide_eq_false_iff_not] at hle
  exact (List.le_iff_lt_or_eq.1 (List.not_lt.1 hle)).resolve_right hne

namespace Component

variable {a b c : Component}

theorem before_trans (hab : a.before b = true) (hbc : b.before c = true) :
    a.before c = true := by
  cases a <;> cases b <;> cases c
  case name.name.name =>
    exact decide_eq_true (List.lt_trans (of_decide_eq_true hab) (of_decide_eq_true hbc))
  all_goals simp_all [before]

theorem not_before (h : a.before b = true) : b.before a = false := by
  cases a <;> cases b
  case name.name => exact decide_eq_false (List.lt_asymm (of_decide_eq_true h))
  all_goals simp_all [before]

theorem before_irrefl (a : Component) : a.before a = false := by
  cases a
  case name n => exact decide_eq_false (List.lt_irrefl n)
  all_goals rfl

theorem before_or_eq_or_before (a b : Component) :
    a.before b = true ∨ a = b ∨ b.before a = true := by
  cases hab : a.before b with
  | true => exact Or.inl rfl
  | false =>
    cases hba : b.before a with
    | true => exact Or.inr (Or.inr rfl)
    | false =>
      refine Or.inr (Or.inl ?_)
      cases a <;> cases b
      case name.name =>
        exact congrArg name (List.le_antisymm (List.not_lt.1 (of_decide_eq_false hba))
          (List.not_lt.1 (of_decide_eq_false hab)))
      all_goals simp_all [before]

end Component

theorem componentsLe_cons_iff {a b : Component} {as bs : List Component} :
    componentsLe (a :: as) (b :: bs) = true ↔
      a.before b = true ∨ a = b ∧ componentsLe as bs = true := by
  rw [componentsLe]
  by_cases hab : a = b
  · rw [if_pos hab, hab, Component.before_irrefl]
    simp
  · rw [if_neg hab]
    simp [hab]

/-- It is the lexicographic order of the components. -/
theorem componentsLe_iff_lex {as bs : List Component} :
    componentsLe as bs = true ↔ as = bs ∨ List.Lex (fun a b => a.before b = true) as bs := by
  induction as generalizing bs with
  | nil =>
    cases bs with
    | nil => simp [componentsLe]
    | cons b bs => exact iff_of_true rfl (Or.inr .nil)
  | cons a as ih =>
    cases bs with
    | nil => exact iff_of_false (by simp [componentsLe]) (by rintro (h | h) <;> cases h)
    | cons b bs =>
      rw [componentsLe_cons_iff, ih]
      refine ⟨fun h => ?_, fun h => ?_⟩
      · rcases h with hbefore | ⟨rfl, rfl | hmore⟩
        · exact Or.inr (.rel hbefore)
        · exact Or.inl rfl
        · exact Or.inr (.cons hmore)
      · rcases h with heq | hlex
        · obtain ⟨rfl, rfl⟩ := List.cons.inj heq
          exact Or.inr ⟨rfl, Or.inl rfl⟩
        · cases hlex with
          | cons hmore => exact Or.inr ⟨rfl, Or.inr hmore⟩
          | rel hbefore => exact Or.inl hbefore

/-- The first difference decides, and it decides for one of the two. -/
theorem orders_componentsLe : Orders componentsLe where
  trans as bs cs hab hbc := by
    induction as generalizing bs cs with
    | nil => rfl
    | cons a as ih =>
      cases bs with
      | nil => cases hab
      | cons b bs =>
        cases cs with
        | nil => cases hbc
        | cons c cs =>
          rw [componentsLe_cons_iff] at hab hbc ⊢
          rcases hab with hab | ⟨rfl, hab⟩
          · rcases hbc with hbc | ⟨rfl, -⟩
            · exact Or.inl (Component.before_trans hab hbc)
            · exact Or.inl hab
          · rcases hbc with hbc | ⟨rfl, hbc⟩
            · exact Or.inl hbc
            · exact Or.inr ⟨rfl, ih bs cs hab hbc⟩
  total as bs := by
    induction as generalizing bs with
    | nil => exact Or.inl rfl
    | cons a as ih =>
      cases bs with
      | nil => exact Or.inr rfl
      | cons b bs =>
        rw [componentsLe_cons_iff, componentsLe_cons_iff]
        rcases Component.before_or_eq_or_before a b with hab | rfl | hba
        · exact Or.inl (Or.inl hab)
        · exact (ih bs).imp (fun h => Or.inr ⟨rfl, h⟩) fun h => Or.inr ⟨rfl, h⟩
        · exact Or.inr (Or.inl hba)
  antisymm as bs hab hba := by
    induction as generalizing bs with
    | nil =>
      cases bs with
      | nil => rfl
      | cons b bs => cases hba
    | cons a as ih =>
      cases bs with
      | nil => cases hab
      | cons b bs =>
        rw [componentsLe_cons_iff] at hab hba
        rcases hab with hab | ⟨rfl, hab⟩
        · rcases hba with hba | ⟨rfl, -⟩
          · rw [Component.not_before hab] at hba
            cases hba
          · rw [Component.before_irrefl] at hab
            cases hab
        · rcases hba with hba | ⟨-, hba⟩
          · rw [Component.before_irrefl] at hba
            cases hba
          · rw [ih bs hab hba]

/-- Sorted paths show the same components however they were arranged before. -/
theorem Path.map_components_sortBy {ps qs : List Path} (hperm : ps.Perm qs) :
    (sortBy Path.le ps).map Path.components = (sortBy Path.le qs).map Path.components :=
  orders_componentsLe.map_sortBy_eq Path.components hperm

end HeaderCheck
