import HeaderCheck.Proofs.Boilerplate.Directory

/-! Which file gives a key its lines. A file gives lines to a key when it is named after the key,
and more segments may stand between the key and the suffix. So the file that has the key for itself
is not alone, and any of the others whose name is greater takes its place. -/

namespace HeaderCheck

variable {w : World} {dir spelled : Path} {listing : Listing} {category : Category} {name : Text}
  {key : Key} {text : Text}

namespace Category

/-- The key is what the name has between the stem and the suffix, or the first segment of it. -/
def NamedAfter (category : Category) (key : Key) (name : Text) : Prop :=
  name = category.fileName key ∨ ∃ more, name = category.fileName (key ++ '.' :: more)

theorem considers_iff_namedAfter (hne : key ≠ []) (hdot : '.' ∉ key) :
    category.Considers listing name key ↔
      name ∈ listing.names ∧ category.NamedAfter key name := by
  refine ⟨?_, ?_⟩
  · intro h
    obtain ⟨middle, hform⟩ := h.form
    have hname : name = category.fileName middle := hform
    have hsegment := h.segment
    rw [hname, segment_fileName, Text.head?_pieces_eq_some_iff] at hsegment
    rcases hsegment with ⟨-, rfl | ⟨more, rfl⟩⟩
    · exact ⟨h.listed, Or.inl hname⟩
    · exact ⟨h.listed, Or.inr ⟨more, hname⟩⟩
  · intro h
    rcases h with ⟨hlisted, rfl | ⟨more, rfl⟩⟩
    · refine ⟨hlisted, ⟨_, rfl⟩, ?_, hne⟩
      rw [segment_fileName, Text.head?_pieces_eq_some_iff]
      exact ⟨hdot, Or.inl rfl⟩
    · refine ⟨hlisted, ⟨_, rfl⟩, ?_, hne⟩
      rw [segment_fileName, Text.head?_pieces_eq_some_iff]
      exact ⟨hdot, Or.inr ⟨more, rfl⟩⟩

theorem fileName_append_ne (category : Category) (key more : Text) :
    category.fileName (key ++ '.' :: more) ≠ category.fileName key := by
  intro heq
  have hlength := congrArg List.length heq
  simp only [fileName, List.length_append, List.length_cons] at hlength
  omega

/-- The key's own file is the greatest of those named after it just when the name of each of the
others is smaller. -/
theorem eq_fileName_iff_of_greatest (hlisted : name ∈ listing.names)
    (hafter : category.NamedAfter key name) (hown : category.fileName key ∈ listing.names)
    (hgreatest : ∀ other ∈ listing.names, category.NamedAfter key other → other ≠ name →
      Utf8.encode other < Utf8.encode name) :
    name = category.fileName key ↔
      ∀ more, category.fileName (key ++ '.' :: more) ∈ listing.names →
        Utf8.encode (category.fileName (key ++ '.' :: more)) <
          Utf8.encode (category.fileName key) := by
  refine ⟨?_, ?_⟩
  · rintro rfl more hmore
    exact hgreatest _ hmore (Or.inr ⟨more, rfl⟩) (fileName_append_ne category key more)
  · intro hothers
    rcases hafter with rfl | ⟨more, rfl⟩
    · rfl
    · refine absurd (hothers more hlisted) (List.lt_asymm ?_)
      exact hgreatest _ hown (Or.inl rfl) (fileName_append_ne category key more).symm

end Category

/-- A file that can be read in the directory can be read under the spelling of the scan. -/
theorem World.readText_scannedEntry (hscan : scanned? dir = some spelled)
    (hdir : w.readDir dir = .ok listing) (hmem : name ∈ listing.names)
    (h : w.readText (dir.entry name) = .ok text) :
    w.readText (scannedEntry spelled name) = .ok text := by
  obtain ⟨⟨_, node⟩, hentry, rfl⟩ := List.mem_map.1 hmem
  obtain ⟨bytes, hstat, hdecode⟩ := readText_eq_ok_iff.1 h
  have hwf := wellFormed_of_stat (readDir_eq_ok_iff.1 hdir)
  have hrespelled := respelling_entry (respelling_of_scanned? hscan) (hwf.isName_of_mem hentry)
  exact readText_eq_ok_iff.2 ⟨bytes, stat_respelled hrespelled hstat, hdecode⟩

/-- Where every file that counts can be read, a key with a file of its own has the lines of the
greatest of the files that are named after it. This is the key's own file just when the name of each
of the others is smaller. -/
theorem loadCategory_of_own (hdir : w.readDir dir = .ok listing) (hblank : ¬ dir.BlankAfterHere)
    (hreadable : ∀ name found, category.Considers listing name found →
      ∃ text, w.readText (dir.entry name) = .ok text)
    (hne : key ≠ []) (hdot : '.' ∉ key) (hown : category.fileName key ∈ listing.names) :
    ∃ lines name text, loadCategory w category dir = .ok lines ∧
      lines.get? key = some (Text.lines text) ∧ w.readText (dir.entry name) = .ok text ∧
      name ∈ listing.names ∧ category.NamedAfter key name ∧
      (∀ other ∈ listing.names, category.NamedAfter key other → other ≠ name →
        Utf8.encode other < Utf8.encode name) ∧
      (name = category.fileName key ↔
        ∀ more, category.fileName (key ++ '.' :: more) ∈ listing.names →
          Utf8.encode (category.fileName (key ++ '.' :: more)) <
            Utf8.encode (category.fileName key)) := by
  obtain ⟨spelled, hscan⟩ := exists_scanned?_of_readDir hdir hblank
  have hscanned : ∀ name found, category.Considers listing name found →
      ∃ text, w.readText (scannedEntry spelled name) = .ok text := by
    intro name found hconsiders
    obtain ⟨text, htext⟩ := hreadable name found hconsiders
    exact ⟨text, World.readText_scannedEntry hscan hdir hconsiders.listed htext⟩
  obtain ⟨lines, hload⟩ := (Category.exists_loadCategory_eq_ok_iff hscan hdir).2 hscanned
  have hown' : category.Considers listing (category.fileName key) key :=
    (Category.considers_iff_namedAfter hne hdot).2 ⟨hown, Or.inl rfl⟩
  obtain ⟨name, hname, hlast⟩ := hown'.exists_last
  obtain ⟨text, htext⟩ := hreadable name key hname
  obtain ⟨found, hfound, hget⟩ :=
    Category.get?_loadCategory_of_last hscan hdir hload hname hlast
  -- the file is the same under both of its spellings
  cases (World.readText_scannedEntry hscan hdir hname.listed htext).symm.trans hfound
  obtain ⟨hlisted, hafter⟩ := (Category.considers_iff_namedAfter hne hdot).1 hname
  have hgreatest : ∀ other ∈ listing.names, category.NamedAfter key other → other ≠ name →
      Utf8.encode other < Utf8.encode name := by
    intro other hmem hother
    have hconsiders := (Category.considers_iff_namedAfter hne hdot).2 ⟨hmem, hother⟩
    exact fun hother => Utf8.encode_lt_of_lt (hlast other hconsiders hother)
  exact ⟨lines, name, text, hload, hget, htext, hlisted, hafter, hgreatest,
    Category.eq_fileName_iff_of_greatest hlisted hafter hown hgreatest⟩

/-- Two keys with a file of their own and one more. -/
def sharedKeysTree : World where
  disk := {
    root := .dir "b".toList
      (.file "boilerplate.go.txt".toList [120] <|
        .file "boilerplate.go.old.txt".toList [121] <|
        .file "boilerplate.py.txt".toList [120] <|
        .file "boilerplate.py.x.txt".toList [121] .empty) .empty
    wellFormed := by decide +kernel }
  cwd := .on []
  git := none

/-- What stands in the directory, in the order in which it is listed. -/
def sharedKeysListing : Listing :=
  .file "boilerplate.go.txt".toList [120] <| .file "boilerplate.go.old.txt".toList [121] <|
  .file "boilerplate.py.txt".toList [120] <| .file "boilerplate.py.x.txt".toList [121] .empty

theorem readDir_sharedKeysTree : sharedKeysTree.readDir ⟨"b".toList⟩ = .ok sharedKeysListing := by
  decide +kernel

theorem readText_sharedKeysTree (h : name ∈ sharedKeysListing.names) :
    ∃ text, sharedKeysTree.readText (Path.entry ⟨"b".toList⟩ name) = .ok text := by
  have hall : ∀ name ∈ sharedKeysListing.names,
      (sharedKeysTree.readText (Path.entry ⟨"b".toList⟩ name)).toOption.isSome = true := by
    decide +kernel
  have hname := hall name h
  rcases hread : sharedKeysTree.readText (Path.entry ⟨"b".toList⟩ name) with fault | text
  · rw [hread] at hname
    cases hname
  · exact ⟨text, rfl⟩

/-- The older lines for `go` stand in a file with a smaller name, and change nothing. -/
theorem loadCategory_go :
    (∃ lines name text, loadCategory sharedKeysTree .reference ⟨"b".toList⟩ = .ok lines ∧
      lines.get? "go".toList = some (Text.lines text) ∧
      sharedKeysTree.readText (Path.entry ⟨"b".toList⟩ name) = .ok text ∧
      name ∈ sharedKeysListing.names ∧ Category.reference.NamedAfter "go".toList name) ∧
    (loadCategory sharedKeysTree .reference ⟨"b".toList⟩).map (·.get? "go".toList) =
      .ok (some ["x".toList]) := by
  have hblank : ¬ Path.BlankAfterHere ⟨"b".toList⟩ := by
    rw [← scanned?_eq_none_iff (by decide)]
    decide +kernel
  have hown : Category.reference.fileName "go".toList ∈ sharedKeysListing.names := by
    decide +kernel
  obtain ⟨lines, name, text, hload, hget, htext, hmem, hafter, -, -⟩ :=
    loadCategory_of_own readDir_sharedKeysTree hblank
      (fun name found hconsiders => readText_sharedKeysTree hconsiders.listed)
      (by decide) (by decide) hown
  exact ⟨⟨lines, name, text, hload, hget, htext, hmem, hafter⟩, by decide +kernel⟩

/-- The file that `py` has for itself can be read, like every other, and its line is not that of the
key. -/
theorem loadCategory_py :
    sharedKeysTree.readDir ⟨"b".toList⟩ = .ok sharedKeysListing ∧
    (∀ name found, Category.reference.Considers sharedKeysListing name found →
      ∃ text, sharedKeysTree.readText (Path.entry ⟨"b".toList⟩ name) = .ok text) ∧
    Category.reference.fileName "py".toList ∈ sharedKeysListing.names ∧
    sharedKeysTree.readText (Path.entry ⟨"b".toList⟩ (Category.reference.fileName "py".toList)) =
      .ok "x".toList ∧
    (loadCategory sharedKeysTree .reference ⟨"b".toList⟩).map (·.get? "py".toList) =
      .ok (some ["y".toList]) :=
  ⟨readDir_sharedKeysTree, fun _ _ hconsiders => readText_sharedKeysTree hconsiders.listed,
    by decide +kernel, by decide +kernel, by decide +kernel⟩

end HeaderCheck
