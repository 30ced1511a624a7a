import HeaderCheck.Proofs.Boilerplate.Load
import HeaderCheck.Proofs.Disk.Tree
import HeaderCheck.Proofs.Order

/-! Boilerplate in a tree without links, wherever the tree is. Loading sorts the names that it finds
and reads the files behind them, and neither shows where the directory is or in which order it is
listed; only a failure tells a path. -/

namespace HeaderCheck

/-- The failure without the path that it tells. -/
def Failure.unplaced : Failure → Failure
  | onDisk task _ fault => onDisk task ⟨[]⟩ fault
  | noReferences _ => noReferences ⟨[]⟩
  | invalidSettings _ => invalidSettings ⟨[]⟩
  | walk _ fault => walk ⟨[]⟩ fault
  | failure => failure

variable {w v : World} {dir spelled other root moved : Path} {tree copy : Node} {way : List Text}
  {name : Text}

theorem exists_scanned?_of_isAbsolute (h : dir.isAbsolute = true) :
    ∃ spelled, scanned? dir = some spelled := by
  unfold scanned?
  simp only [h, if_true]
  refine ⟨_, foldlM_scanned (fun piece => Text.notMem_of_mem_pieces) ?_ ?_⟩ <;> simp

/-- Reading the files behind the names shows only what stands in them. -/
theorem readSources_congr {names : List Text}
    (h : ∀ name ∈ names,
      w.readText (scannedEntry spelled name) = v.readText (scannedEntry other name))
    (read : Catalogue (List Line)) :
    (readSources w (names.filterMap fun name =>
        (keyOfName name).map fun key => (key, scannedEntry spelled name)) read).mapError
          Failure.unplaced =
      (readSources v (names.filterMap fun name =>
        (keyOfName name).map fun key => (key, scannedEntry other name)) read).mapError
          Failure.unplaced := by
  induction names generalizing read with
  | nil => rfl
  | cons name more ih =>
    obtain ⟨hname, hmore⟩ := List.forall_mem_cons.1 h
    rw [List.filterMap_cons, List.filterMap_cons]
    cases keyOfName name with
    | none => exact ih hmore read
    | some key =>
      simp only [Option.map_some, readSources, hname]
      cases v.readText (scannedEntry other name) with
      | error fault => rfl
      | ok text => exact ih hmore (read.insert key text.lines)

section Placed

variable (hfree : tree.LinkFree) (hw : w.Holds root tree) (hne : way ≠ [])
  (hway : ∀ name ∈ way, isName name = true)
  (hshort : Utf8.size (root.below way).text < Disk.pathLimit)
include hfree hw hne hway hshort

/-- An entry of the boilerplate directory, as the scan spells it, is looked up in the tree. -/
theorem World.stat_scannedEntry {l : Listing} (hdir : w.readDir (root.below way) = .ok l)
    (hscan : scanned? (root.below way) = some spelled) (hmem : name ∈ l.names) :
    w.stat (scannedEntry spelled name) = tree.seek (way ++ [name]) := by
  have hstat := readDir_eq_ok_iff.1 hdir
  have hwf := wellFormed_of_stat hstat
  obtain ⟨node, hnode⟩ := (Listing.mem_names_iff hwf).1 hmem
  have hname := hwf.isName_of_mem (Listing.lookup_mem hnode)
  have hat : tree.at? (way ++ [name]) = some node := by
    rw [stat_below hw hfree hne hway hshort, Node.seek_eq_ok_iff] at hstat
    rw [Node.at?_append, hstat, Option.bind_some, Node.at?_dir_cons, hnode]
    rfl
  have hsize := hw.short _ node hat
  have husable : ((root.below way).entry name).Usable :=
    ⟨Path.text_entry_ne_nil (ne_nil_of_isName hname) (slash_notMem_of_isName hname) _,
      Path.noNul_entry (usable_of_stat hstat).noNul hname, Path.below_concat root way name ▸ hsize⟩
  have hnames : ∀ next ∈ way ++ [name], isName next = true := by
    rw [List.forall_mem_append]
    exact ⟨hway, by simpa using hname⟩
  rw [stat_respelling (respelling_entry (respelling_of_scanned? hscan) hname) husable,
    ← Path.below_concat, stat_below hw hfree (by simp) hnames hsize]

variable (hsame : tree.SameTree copy) (hv : v.Holds moved copy)
  (hshortMoved : Utf8.size (moved.below way).text < Disk.pathLimit)
include hsame hv hshortMoved

/-- The directory on the way holds the same tree in both places, or is in neither. -/
theorem readDir_relocated :
    (∃ fault, w.readDir (root.below way) = .error fault ∧
      v.readDir (moved.below way) = .error fault) ∨
    ∃ l m, w.readDir (root.below way) = .ok l ∧ v.readDir (moved.below way) = .ok m ∧
      (Node.dir l).SameTree (.dir m) := by
  unfold World.readDir
  rw [World.stat_below hw hfree hne hway hshort,
    World.stat_below hv (hsame.linkFree hfree) hne hway hshortMoved]
  rcases hsame.seek_cases way with ⟨fault, hleft, hright⟩ | ⟨x, y, hleft, hright, hinside⟩
  · rw [hleft, hright]
    exact Or.inl ⟨fault, rfl, rfl⟩
  · rw [hleft, hright]
    have hsight := hinside.sight_eq
    cases x <;> cases y <;> cases hsight
    case inr.file.file.refl => exact Or.inl ⟨.notDirectory, rfl, rfl⟩
    case inr.link.link.refl => exact Or.inl ⟨.notDirectory, rfl, rfl⟩
    case inr.dir.dir.refl l m => exact Or.inr ⟨l, m, rfl, rfl, hinside⟩

theorem loadCategory_relocated (category : Category) :
    (loadCategory w category (root.below way)).mapError Failure.unplaced =
      (loadCategory v category (moved.below way)).mapError Failure.unplaced := by
  rcases readDir_relocated hfree hw hne hway hshort hsame hv hshortMoved with
    ⟨fault, hread, hreadMoved⟩ | ⟨l, m, hread, hreadMoved, hinside⟩
  · simp only [loadCategory, hread, hreadMoved]
    rfl
  · obtain ⟨spelled, hscan⟩ := exists_scanned?_of_isAbsolute (hw.isAbsolute_below hway)
    obtain ⟨other, hscanMoved⟩ := exists_scanned?_of_isAbsolute (hv.isAbsolute_below hway)
    have hnames : l.names.Perm m.names := Listing.names_perm hinside
      (World.wellFormed_of_stat (World.readDir_eq_ok_iff.1 hread))
      (World.wellFormed_of_stat (World.readDir_eq_ok_iff.1 hreadMoved))
    have hsorted : sortBy Text.le (l.names.filter category.hasName) =
        sortBy Text.le (m.names.filter category.hasName) :=
      Text.orders_le.sortBy_eq (hnames.filter _)
    simp only [loadCategory, hread, hreadMoved, Category.found_of_scanned? hscan hread,
      Category.found_of_scanned? hscanMoved hreadMoved, Category.sources, ← hsorted]
    apply readSources_congr
    intro name hname
    have hmem : name ∈ l.names := (List.mem_filter.1 ((sortBy_perm _ _).mem_iff.1 hname)).1
    apply World.readText_congr
    rw [World.stat_scannedEntry hfree hw hne hway hshort hread hscan hmem,
      World.stat_scannedEntry (hsame.linkFree hfree) hv hne hway hshortMoved hreadMoved hscanMoved
        (hnames.mem_iff.1 hmem)]
    exact hsame.map_sight_seek (way ++ [name])

/-- Loading gives the same boilerplate in both places, or fails alike in both. -/
theorem loadBoilerplate_relocated :
    (loadBoilerplate w (root.below way)).mapError Failure.unplaced =
      (loadBoilerplate v (moved.below way)).mapError Failure.unplaced := by
  have hload := loadCategory_relocated hfree hw hne hway hshort hsame hv hshortMoved
  unfold loadBoilerplate
  rw [mapError_bind, mapError_bind, hload .reference]
  congr 1
  funext references
  split_ifs
  · rfl
  · rw [mapError_map, mapError_map, hload .preamble]

end Placed

end HeaderCheck
