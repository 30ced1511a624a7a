import HeaderCheck.Disk.Basic
import HeaderCheck.Disk.NameHash

/-! Changes to a disk at a location. A new entry is filed in its directory by the hash of its
name. -/

namespace HeaderCheck

namespace Listing

/-- Puts the entry in front of the first one whose name has a greater hash. -/
def fileInto (e : Text × Node) : List (Text × Node) → List (Text × Node)
  | [] => [e]
  | x :: xs =>
    if (NameHash.ofName e.1).before (NameHash.ofName x.1) then e :: x :: xs
    else x :: fileInto e xs

def remove (name : Text) (l : Listing) : Listing :=
  ofEntries (l.entries.filter (·.1 != name))

/-- Puts the node under the name, in place of what had that name. -/
def set (name : Text) (node : Node) (l : Listing) : Listing :=
  ofEntries (fileInto (name, node) (l.remove name).entries)

/-- Exchanges the node under the name for another one. -/
def replace (name : Text) (node : Node) (l : Listing) : Listing :=
  ofEntries (l.entries.map fun e => if e.1 = name then (name, node) else e)

/-- Changes the directory at the location, if there is one. -/
def within (change : Listing → Listing) : Location → Listing → Listing
  | [], l => change l
  | name :: more, l =>
    match l.find? name with
    | some (.dir inside) => l.replace name (.dir (within change more inside))
    | _ => l

theorem fileInto_perm (e : Text × Node) (es : List (Text × Node)) :
    (fileInto e es).Perm (e :: es) := by
  induction es with
  | nil => exact List.Perm.refl _
  | cons x xs ih =>
    simp only [fileInto]
    split
    · exact List.Perm.refl _
    · exact (ih.cons x).trans (List.Perm.swap e x xs)

theorem WellFormed.remove {l : Listing} (h : l.WellFormed) (name : Text) :
    (l.remove name).WellFormed := by
  rw [wellFormed_iff] at h ⊢
  constructor
  · simp only [names, Listing.remove, entries_ofEntries]
    exact h.1.sublist (List.Sublist.map _ List.filter_sublist)
  · intro e he
    simp only [Listing.remove, entries_ofEntries] at he
    exact h.2 e (List.mem_filter.1 he).1

theorem WellFormed.set {l : Listing} (h : l.WellFormed) {name : Text} {node : Node}
    (hname : isName name = true) (hnode : node.WellFormed) : (l.set name node).WellFormed := by
  have hl := wellFormed_iff.1 (h.remove name)
  have hp := fileInto_perm (name, node) (l.remove name).entries
  rw [wellFormed_iff]
  simp only [names, Listing.set, entries_ofEntries]
  constructor
  · rw [(hp.map _).nodup_iff, List.map_cons, List.nodup_cons]
    refine ⟨?_, hl.1⟩
    simp [Listing.remove]
  · intro e he
    rcases List.mem_cons.1 (hp.mem_iff.1 he) with rfl | he
    · exact ⟨hname, hnode⟩
    · exact hl.2 e he

theorem lookup_mem {name : Text} {node : Node} : ∀ {es : List (Text × Node)},
    es.lookup name = some node → (name, node) ∈ es
  | (n, x) :: es, h => by
    rw [List.lookup_cons] at h
    split at h
    · next hn => rw [beq_iff_eq] at hn; simp_all
    · exact List.mem_cons_of_mem _ (lookup_mem h)

theorem WellFormed.replace {l : Listing} (h : l.WellFormed) {name : Text} {node : Node}
    (hname : isName name = true) (hnode : node.WellFormed) : (l.replace name node).WellFormed := by
  rw [wellFormed_iff] at h ⊢
  simp only [names, Listing.replace, entries_ofEntries, List.map_map]
  constructor
  · have : l.entries.map ((·.1) ∘ fun e => if e.1 = name then (name, node) else e) = l.names := by
      apply List.map_congr_left
      intro e _
      simp only [Function.comp]
      split
      · next he => exact he.symm
      · rfl
    rw [this]
    exact h.1
  · intro e he
    obtain ⟨x, hx, rfl⟩ := List.mem_map.1 he
    split
    · exact ⟨hname, hnode⟩
    · exact h.2 x hx

theorem WellFormed.within {change : Listing → Listing}
    (hchange : ∀ l : Listing, l.WellFormed → (change l).WellFormed) (loc : Location) {l : Listing}
    (h : l.WellFormed) : (l.within change loc).WellFormed := by
  induction loc generalizing l with
  | nil => exact hchange l h
  | cons name more ih =>
    simp only [Listing.within]
    split
    · next inside hfind =>
      have hentry := (wellFormed_iff.1 h).2 _ (lookup_mem hfind)
      exact h.replace hentry.1 (ih hentry.2)
    · exact h

end Listing

namespace Disk

/-- Puts the node at the location, if the directory is there and the last name can be one. -/
def put (d : Disk) (node : Node) (hnode : node.WellFormed) (loc : Location) : Disk :=
  match loc.getLast? with
  | none => d
  | some name =>
    if hname : isName name = true then
      ⟨d.root.within (·.set name node) loc.dropLast,
        d.wellFormed.within (fun _ h => h.set hname hnode) _⟩
    else d

/-- Takes away what stands at the location, with all that is below. -/
def remove (d : Disk) (loc : Location) : Disk :=
  match loc.getLast? with
  | none => d
  | some name =>
    ⟨d.root.within (·.remove name) loc.dropLast, d.wellFormed.within (fun _ h => h.remove name) _⟩

end Disk

end HeaderCheck
