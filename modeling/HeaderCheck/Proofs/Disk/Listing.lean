import HeaderCheck.Disk.Basic
import Mathlib.Data.List.Basic

/-! What is in a well formed listing: entries with proper names, each of which can be found under
its name. -/

namespace HeaderCheck

section Name

variable {name : Text}

theorem isName_iff : isName name = true ↔
    name ≠ [] ∧ name ≠ ['.'] ∧ name ≠ ['.', '.'] ∧ '/' ∉ name ∧ '\x00' ∉ name ∧
      Utf8.size name ≤ 255 := by
  simp [isName, and_assoc]

theorem ne_nil_of_isName (h : isName name = true) : name ≠ [] :=
  (isName_iff.1 h).1

theorem slash_notMem_of_isName (h : isName name = true) : '/' ∉ name := by
  obtain ⟨-, -, -, hslash, -⟩ := isName_iff.1 h
  exact hslash

theorem slash_notMem_of_forall_isName {names : List Text} (h : ∀ name ∈ names, isName name = true) :
    ∀ name ∈ names, '/' ∉ name :=
  fun name hname => slash_notMem_of_isName (h name hname)

end Name

namespace Listing

variable {l : Listing} {name : Text} {node : Node}

theorem WellFormed.isName_of_mem (h : l.WellFormed) (hmem : (name, node) ∈ l.entries) :
    isName name = true :=
  ((wellFormed_iff.1 h).2 _ hmem).1

theorem WellFormed.node_of_mem (h : l.WellFormed) (hmem : (name, node) ∈ l.entries) :
    node.WellFormed :=
  ((wellFormed_iff.1 h).2 _ hmem).2

theorem lookup_of_mem {es : List (Text × Node)} (hnodup : (es.map (·.1)).Nodup)
    (hmem : (name, node) ∈ es) : es.lookup name = some node := by
  induction es with
  | nil => cases hmem
  | cons e es ih =>
    rw [List.map_cons, List.nodup_cons] at hnodup
    rw [List.lookup_cons]
    rcases List.mem_cons.1 hmem with rfl | hmem
    · simp
    · have hne : name ≠ e.1 := fun heq => hnodup.1 (heq ▸ List.mem_map_of_mem hmem)
      rw [beq_false_of_ne hne]
      exact ih hnodup.2 hmem

theorem find?_of_mem (h : l.WellFormed) (hmem : (name, node) ∈ l.entries) :
    l.find? name = some node :=
  lookup_of_mem (wellFormed_iff.1 h).1 hmem

end Listing

end HeaderCheck
