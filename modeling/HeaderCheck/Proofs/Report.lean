import HeaderCheck.Proofs.Order
import HeaderCheck.Report
import Mathlib.Data.List.Forall2

/-! What a report tells is told by its failing files. Whether it is a success, which files do not
conform and which lines are printed can be read off their relative paths, in whatever order the
results came; only spellings of one path can change places. -/

namespace HeaderCheck

/-- The result with its path as it is seen from the root. -/
def FileResult.relativeTo (result : FileResult) (root : Path) : FileResult :=
  { result with path := result.path.relativeTo root }

namespace Report

variable {r other : Report}

theorem succeeded_iff : r.succeeded = true ↔ ∀ result ∈ r.results, result.passed = true := by
  rw [succeeded, List.all_eq_true]

theorem not_succeeded_iff :
    r.succeeded = false ↔ ∃ result ∈ r.results, result.passed = false := by
  simp [succeeded]

/-- The failing files relative to the root, in the order of the results. -/
def failing (r : Report) : List Path :=
  (r.results.filter (!·.passed)).map fun result => result.path.relativeTo r.root

theorem failing_eq_nil_iff : r.failing = [] ↔ r.succeeded = true := by
  unfold failing succeeded
  rw [List.map_eq_nil_iff, List.filter_eq_nil_iff, List.all_eq_true]
  simp

theorem failing_eq (r : Report) :
    r.failing = ((r.results.map (·.relativeTo r.root)).filter (!·.passed)).map (·.path) := by
  rw [failing, List.filter_map, List.map_map]
  rfl

/-- Results that are the same when they are seen from the roots fail alike. -/
theorem failing_perm (h : (r.results.map (·.relativeTo r.root)).Perm
    (other.results.map (·.relativeTo other.root))) : r.failing.Perm other.failing := by
  rw [failing_eq, failing_eq]
  exact (h.filter _).map _

theorem succeeded_eq (h : r.failing.Perm other.failing) : r.succeeded = other.succeeded := by
  rw [Bool.eq_iff_iff, ← failing_eq_nil_iff, ← failing_eq_nil_iff]
  constructor
  · intro hnil
    exact List.nil_perm.1 (hnil ▸ h)
  · intro hnil
    exact List.perm_nil.1 (hnil ▸ h)

theorem forall₂_nonconforming (h : r.failing.Perm other.failing) :
    List.Forall₂ (fun p q => p.components = q.components) r.nonconforming other.nonconforming := by
  have hmap := Path.map_components_sortBy h
  rw [← List.forall₂_eq_eq_eq, List.forall₂_map_left_iff, List.forall₂_map_right_iff] at hmap
  exact hmap

/-- Where fewer of the files fail, the others are told in the order in which they were told. -/
theorem nonconforming_sublist (h : r.failing.Sublist other.failing) :
    r.nonconforming.Sublist other.nonconforming :=
  orders_componentsLe.sortBy_sublist Path.components h

theorem lines_perm (h : r.failing.Perm other.failing) : r.lines.Perm other.lines := by
  unfold lines
  rw [succeeded_eq h]
  split_ifs
  · exact List.Perm.refl _
  · apply List.Perm.map
    exact sortBy_perm_sortBy Path.le h

/-- Where the failing files have one spelling each, the same lines are printed. -/
theorem lines_eq (h : r.failing.Perm other.failing)
    (hinj : ∀ p ∈ r.failing, ∀ q ∈ r.failing, p.components = q.components → p = q) :
    r.lines = other.lines := by
  have hsorted : r.nonconforming = other.nonconforming :=
    orders_componentsLe.sortBy_eq_of_injOn Path.components h hinj
  rw [lines, lines, succeeded_eq h, hsorted]

end Report

end HeaderCheck
