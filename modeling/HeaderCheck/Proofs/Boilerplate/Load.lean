import HeaderCheck.Proofs.Boilerplate.Scan

/-! Reading the files of a boilerplate directory one after another. The first that cannot be read
ends the reading, and of several files with one key the last one read gives the lines. The key is
told by the name of the file. -/

namespace HeaderCheck

variable {w v : World} {dir spelled path : Path} {key : Key} {read lines : Catalogue (List Line)}
  {sources front back : List (Key × Path)} {listing : Listing} {name : Text} {category : Category}

section Reading

theorem readSources_cons_eq_ok_iff :
    readSources w ((key, path) :: sources) read = .ok lines ↔
      ∃ text, w.readText path = .ok text ∧
        readSources w sources (read.insert key text.lines) = .ok lines := by
  rw [readSources]
  cases w.readText path <;> simp

/-- A key that no file has keeps its lines. -/
theorem get?_readSources_of_notMem (h : readSources w sources read = .ok lines)
    (hkey : ∀ path, (key, path) ∉ sources) : lines.get? key = read.get? key := by
  induction sources generalizing read with
  | nil =>
    cases h
    rfl
  | cons source more ih =>
    obtain ⟨other, path⟩ := source
    obtain ⟨text, -, hmore⟩ := readSources_cons_eq_ok_iff.1 h
    have hother : key ≠ other := fun heq => hkey path (heq ▸ List.mem_cons_self)
    rw [ih hmore fun path hmem => hkey path (List.mem_cons_of_mem _ hmem), Catalogue.get?_insert,
      if_neg hother]

/-- The last file with the key gives it its lines. -/
theorem get?_readSources_of_last (h : readSources w (front ++ (key, path) :: back) read = .ok lines)
    (hback : ∀ other, (key, other) ∉ back) :
    ∃ text, w.readText path = .ok text ∧ lines.get? key = some text.lines := by
  induction front generalizing read with
  | nil =>
    obtain ⟨text, htext, hmore⟩ := readSources_cons_eq_ok_iff.1 h
    refine ⟨text, htext, ?_⟩
    rw [get?_readSources_of_notMem hmore hback, Catalogue.get?_insert, if_pos rfl]
  | cons source more ih =>
    obtain ⟨text, -, hmore⟩ := readSources_cons_eq_ok_iff.1 h
    exact ih hmore

/-- Reading shows nothing of the disk but what is in the files. -/
theorem readSources_eq (h : ∀ source ∈ sources, v.readText source.2 = w.readText source.2)
    (read : Catalogue (List Line)) : readSources v sources read = readSources w sources read := by
  induction sources generalizing read with
  | nil => rfl
  | cons source more ih =>
    obtain ⟨key, path⟩ := source
    obtain ⟨hpath, hmore⟩ := List.forall_mem_cons.1 h
    simp only [readSources, hpath]
    cases w.readText path with
    | error fault => rfl
    | ok text => exact ih hmore (read.insert key text.lines)

/-- The first file that cannot be read is told. -/
theorem errorOf?_readSources : errorOf? (readSources w sources read) =
    sources.findSome? fun source =>
      (errorOf? (w.readText source.2)).map (.onDisk .readBoilerplate source.2) := by
  induction sources generalizing read with
  | nil => rfl
  | cons source more ih =>
    obtain ⟨key, path⟩ := source
    rw [readSources, findSome?_cons_eq_or]
    cases w.readText path with
    | error fault => rfl
    | ok text => exact ih

theorem exists_readSources_eq_ok_iff : (∃ lines, readSources w sources read = .ok lines) ↔
    ∀ source ∈ sources, ∃ text, w.readText source.2 = .ok text := by
  rw [← errorOf?_eq_none_iff, errorOf?_readSources, List.findSome?_eq_none_iff]
  simp only [Option.map_eq_none_iff, errorOf?_eq_none_iff]

theorem readSources_eq_error_iff {failure : Failure} :
    readSources w sources read = .error failure ↔
      ∃ front source back fault, sources = front ++ source :: back ∧
        (∀ before ∈ front, ∃ text, w.readText before.2 = .ok text) ∧
        w.readText source.2 = .error fault ∧
        failure = .onDisk .readBoilerplate source.2 fault := by
  rw [← errorOf?_eq_some_iff, errorOf?_readSources, List.findSome?_eq_some_iff]
  simp only [Option.map_eq_some_iff, Option.map_eq_none_iff, errorOf?_eq_some_iff,
    errorOf?_eq_none_iff]
  refine ⟨?_, ?_⟩
  · rintro ⟨front, source, back, hsources, ⟨fault, hfault, hfailure⟩, hfront⟩
    exact ⟨front, source, back, fault, hsources, hfront, hfault, hfailure.symm⟩
  · rintro ⟨front, source, back, fault, hsources, hfront, hfault, hfailure⟩
    exact ⟨front, source, back, hsources, ⟨fault, hfault, hfailure.symm⟩, hfront⟩

/-- The keys of the files are the keys that get lines. -/
theorem contains_readSources_iff (h : readSources w sources read = .ok lines) :
    lines.contains key = true ↔ read.contains key = true ∨ ∃ path, (key, path) ∈ sources := by
  induction sources generalizing read with
  | nil =>
    cases h
    simp
  | cons source more ih =>
    obtain ⟨other, path⟩ := source
    obtain ⟨text, -, hmore⟩ := readSources_cons_eq_ok_iff.1 h
    simp only [ih hmore, Catalogue.contains_insert, List.mem_cons, Prod.mk.injEq, exists_or,
      exists_and_left, exists_eq, and_true]
    rw [or_comm (a := key = other), or_assoc]

theorem isEmpty_readSources_iff (h : readSources w sources read = .ok lines) :
    lines.isEmpty = true ↔ read.isEmpty = true ∧ sources = [] := by
  induction sources generalizing read with
  | nil =>
    cases h
    simp
  | cons source more ih =>
    obtain ⟨key, path⟩ := source
    obtain ⟨text, -, hmore⟩ := readSources_cons_eq_ok_iff.1 h
    rw [ih hmore]
    simp [Catalogue.insert, Catalogue.isEmpty]

end Reading

namespace Category

/-- The name of the file that is meant for the key. -/
def fileName (category : Category) (key : Key) : Text := boilerplateStem ++ key ++ category.suffix

theorem hasName_fileName (category : Category) (key : Key) :
    category.hasName (category.fileName key) = true := by
  rw [hasName, fileName, List.append_assoc, List.drop_left]
  simp

/-- The key is the second segment of the name, unless that is empty. -/
theorem keyOfName_eq_some_iff :
    keyOfName name = some key ↔ (Text.pieces '.' name)[1]? = some key ∧ key ≠ [] := by
  unfold keyOfName
  rcases Text.pieces '.' name with _ | ⟨first, _ | ⟨second, more⟩⟩
  · simp
  · simp
  · simp only [List.getElem?_cons_succ, List.getElem?_cons_zero, Option.some.injEq]
    split_ifs with hnil
    · simp only [false_iff, not_and, not_not]
      rintro rfl
      exact hnil
    · rw [Option.some.injEq, iff_self_and]
      rintro rfl
      exact hnil

/-- So a key is a whole segment between dots. -/
theorem dot_notMem_of_keyOfName (h : keyOfName name = some key) : key ≠ [] ∧ '.' ∉ key := by
  obtain ⟨hsegment, hne⟩ := keyOfName_eq_some_iff.1 h
  exact ⟨hne, Text.notMem_of_mem_pieces (List.mem_of_getElem? hsegment)⟩

/-- The segment behind the stem is the first segment of what stands before the suffix. -/
theorem segment_fileName (category : Category) (middle : Text) :
    (Text.pieces '.' (category.fileName middle))[1]? = (Text.pieces '.' middle).head? := by
  have hsuffix : ∃ rest, category.suffix = '.' :: rest := by
    cases category <;> exact ⟨_, rfl⟩
  obtain ⟨rest, hrest⟩ := hsuffix
  have hstem : boilerplateStem = "boilerplate".toList ++ ['.'] := rfl
  obtain ⟨first, more, hmiddle⟩ := List.exists_cons_of_ne_nil (Text.pieces_ne_nil '.' middle)
  rw [fileName, hrest, hstem, List.append_assoc, List.append_assoc, List.singleton_append,
    Text.pieces_append_sep, Text.pieces_append_sep, Text.pieces_of_not_mem (by decide), hmiddle]
  rfl

theorem keyOfName_fileName (hne : key ≠ []) (hdot : '.' ∉ key) (category : Category) :
    keyOfName (category.fileName key) = some key := by
  rw [keyOfName_eq_some_iff, segment_fileName, Text.pieces_of_not_mem hdot]
  exact ⟨rfl, hne⟩

theorem hasName_iff : category.hasName name = true ↔
    ∃ middle, name = boilerplateStem ++ middle ++ category.suffix := by
  refine ⟨?_, ?_⟩
  · rw [hasName, Bool.and_eq_true, List.isPrefixOf_iff_prefix, List.isSuffixOf_iff_suffix]
    intro h
    obtain ⟨⟨rest, rfl⟩, hsuffix⟩ := h
    rw [List.drop_left] at hsuffix
    obtain ⟨middle, rfl⟩ := hsuffix
    exact ⟨middle, (List.append_assoc _ _ _).symm⟩
  · rintro ⟨middle, rfl⟩
    exact hasName_fileName category middle

theorem found_of_scanned? (hscan : scanned? dir = some spelled)
    (hdir : w.readDir dir = .ok listing) :
    category.found w dir = category.sources spelled listing := by
  simp only [found, hscan, World.readDir_of_scanned? hscan hdir]

theorem exists_keyOfName_of_mem_found (h : (key, path) ∈ category.found w dir) :
    ∃ name, category.hasName name = true ∧ keyOfName name = some key := by
  unfold found at h
  split at h
  · cases h
  · split at h
    · obtain ⟨name, hname, hsource⟩ := List.mem_filterMap.1 h
      obtain ⟨own, hkey, hpair⟩ := Option.map_eq_some_iff.1 hsource
      cases hpair
      exact ⟨name, (List.mem_filter.1 ((sortBy_perm _ _).mem_iff.1 hname)).2, hkey⟩
    · cases h

end Category

section Found

theorem loadCategory_eq_ok_iff : loadCategory w category dir = .ok lines ↔
    (∃ listing, w.readDir dir = .ok listing) ∧
      readSources w (category.found w dir) .empty = .ok lines := by
  unfold loadCategory
  cases w.readDir dir <;> simp

theorem contains_iff_mem_found (h : loadCategory w category dir = .ok lines) :
    lines.contains key = true ↔ ∃ path, (key, path) ∈ category.found w dir := by
  rw [contains_readSources_iff (loadCategory_eq_ok_iff.1 h).2]
  simp [Catalogue.contains, Catalogue.get?_empty]

theorem isEmpty_iff_found_eq_nil (h : loadCategory w category dir = .ok lines) :
    lines.isEmpty = true ↔ category.found w dir = [] := by
  rw [isEmpty_readSources_iff (loadCategory_eq_ok_iff.1 h).2]
  exact and_iff_right rfl

end Found

theorem loadBoilerplate_eq_ok_iff {b : Boilerplate} : loadBoilerplate w dir = .ok b ↔
    loadCategory w .reference dir = .ok b.references ∧ b.references.isEmpty = false ∧
      loadCategory w .preamble dir = .ok b.preambles := by
  rw [loadBoilerplate, bind_eq_ok_iff]
  refine ⟨?_, ?_⟩
  · intro h
    obtain ⟨references, hreferences, h⟩ := h
    split_ifs at h with hempty
    obtain ⟨preambles, hpreambles, rfl⟩ := map_eq_ok_iff.1 h
    exact ⟨hreferences, Bool.eq_false_iff.2 hempty, hpreambles⟩
  · intro h
    obtain ⟨hreferences, hempty, hpreambles⟩ := h
    refine ⟨b.references, hreferences, ?_⟩
    rw [hempty, if_neg Bool.false_ne_true]
    exact map_eq_ok_iff.2 ⟨b.preambles, hpreambles, rfl⟩

/-- A directory that cannot be scanned under its spelling has no references. -/
theorem exists_scanned?_of_loadBoilerplate {b : Boilerplate} (h : loadBoilerplate w dir = .ok b) :
    ∃ spelled, scanned? dir = some spelled := by
  obtain ⟨hreferences, hempty, -⟩ := loadBoilerplate_eq_ok_iff.1 h
  cases hscan : scanned? dir with
  | some spelled => exact ⟨spelled, rfl⟩
  | none =>
    unfold loadCategory at hreferences
    cases hdir : w.readDir dir with
    | error fault => simp [hdir] at hreferences
    | ok listing =>
      simp only [hdir, Category.found, hscan, readSources, Except.ok.injEq] at hreferences
      rw [← hreferences] at hempty
      cases hempty

end HeaderCheck
