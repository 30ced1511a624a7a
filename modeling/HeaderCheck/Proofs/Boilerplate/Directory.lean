import HeaderCheck.Proofs.Boilerplate.Relocation
import HeaderCheck.Proofs.Text.ByteOrder
import HeaderCheck.Proofs.WholeTree
import Mathlib.Data.Char
import Mathlib.Data.List.Lex
import Mathlib.Data.Set.Finite.Lemmas

/-! What a boilerplate directory is loaded to, told from its listing. Which entries count is told by
their names alone. They are read in the order of the bytes of their names, the first that cannot be
read ends the loading, and of several entries with one key the last one gives the lines. All this
rests on the scan, which finds nothing where an empty piece stands behind a `.` at the start. -/

namespace HeaderCheck

variable {w v : World} {dir spelled : Path} {listing other : Listing} {category : Category}
  {name : Text} {key : Key} {node : Node} {lines : Catalogue (List Line)} {failure : Failure}

section Scanned

variable {pieces : List Text}

/-- The path starts with a `.` or with several, and the piece behind them is empty: the separator
there is repeated, or it is the end of the path. -/
def Path.BlankAfterHere (dir : Path) : Prop :=
  ∃ k more, Text.pieces '/' dir.text = List.replicate (k + 1) ['.'] ++ [] :: more

theorem Path.head?_pieces_eq_nil_iff (hne : dir.text ≠ []) :
    (Text.pieces '/' dir.text).head? = some [] ↔ dir.isAbsolute = true := by
  rw [Text.head?_pieces_eq_some_iff, isAbsolute, beq_iff_eq, List.head?_eq_some_iff]
  simp [hne]

theorem foldlM_scanned_eq_none_iff (hpieces : ∀ piece ∈ pieces, '/' ∉ piece) :
    pieces.foldlM (fun seen piece =>
      if seen.text = ['.'] then (if piece = [] then none else some ⟨piece⟩)
      else some (seen.entry piece)) (⟨['.']⟩ : Path) = none ↔
        ∃ k more, pieces = List.replicate k ['.'] ++ [] :: more := by
  induction pieces with
  | nil => simp
  | cons piece more ih =>
    obtain ⟨-, hmore⟩ := List.forall_mem_cons.1 hpieces
    rw [List.foldlM_cons, if_pos rfl]
    by_cases hnil : piece = []
    · subst hnil
      exact iff_of_true rfl ⟨0, more, rfl⟩
    by_cases hdot : piece = ['.']
    · subst hdot
      refine (ih hmore).trans ⟨?_, ?_⟩
      · intro h
        obtain ⟨k, rest, rfl⟩ := h
        exact ⟨k + 1, rest, rfl⟩
      · intro h
        obtain ⟨_ | k, rest, hsplit⟩ := h
        · cases hsplit
        · exact ⟨k, rest, (List.cons.inj hsplit).2⟩
    · -- behind a name no piece stops the scan
      rw [if_neg hnil, Option.bind_eq_bind, Option.bind_some, foldlM_scanned hmore hnil hdot]
      refine iff_of_false (Option.some_ne_none _) ?_
      intro h
      obtain ⟨_ | k, rest, hsplit⟩ := h
      · exact hnil (List.cons.inj hsplit).1
      · exact hdot (List.cons.inj hsplit).1

/-- These are the directories in which the scan finds nothing. -/
theorem scanned?_eq_none_iff (hne : dir.text ≠ []) :
    scanned? dir = none ↔ dir.BlankAfterHere := by
  have hhead := Path.head?_pieces_eq_nil_iff hne
  rcases habs : dir.isAbsolute
  · unfold scanned?
    simp only [habs, Bool.false_eq_true, if_false]
    rw [foldlM_scanned_eq_none_iff fun piece => Text.notMem_of_mem_pieces]
    refine ⟨?_, fun ⟨k, more, hpieces⟩ => ⟨k + 1, more, hpieces⟩⟩
    intro h
    obtain ⟨_ | k, more, hpieces⟩ := h
    · -- an empty piece at the very start makes the path absolute
      rw [hpieces, habs] at hhead
      exact absurd (hhead.1 rfl) Bool.false_ne_true
    · exact ⟨k, more, hpieces⟩
  · obtain ⟨spelled, hscan⟩ := exists_scanned?_of_isAbsolute habs
    refine iff_of_false (by simp [hscan]) ?_
    intro hblank
    obtain ⟨k, more, hpieces⟩ := hblank
    rw [hpieces, habs, List.replicate_succ] at hhead
    simp at hhead

/-- Any other readable directory is scanned. -/
theorem exists_scanned?_of_readDir (hdir : w.readDir dir = .ok listing)
    (hblank : ¬ dir.BlankAfterHere) : ∃ spelled, scanned? dir = some spelled := by
  have hne := (World.usable_of_stat (World.readDir_eq_ok_iff.1 hdir)).ne_nil
  exact Option.ne_none_iff_exists'.1 (mt (scanned?_eq_none_iff hne).1 hblank)

end Scanned

theorem World.names_nodup_of_readDir (h : w.readDir dir = .ok listing) : listing.names.Nodup :=
  (Listing.wellFormed_iff.1 (wellFormed_of_stat (readDir_eq_ok_iff.1 h))).1

namespace Category

section Names

/-- The entry gives lines to the key. Its name begins with the stem and ends with the suffix, where
the two do not overlap, and the key is the second of the segments between the dots of the name. -/
structure Considers (category : Category) (listing : Listing) (name : Text) (key : Key) :
    Prop where
  listed : name ∈ listing.names
  form : ∃ middle, name = boilerplateStem ++ middle ++ category.suffix
  segment : (Text.pieces '.' name)[1]? = some key
  ne_nil : key ≠ []

theorem considers_iff : category.Considers listing name key ↔
    name ∈ listing.names ∧ category.hasName name = true ∧ keyOfName name = some key := by
  rw [hasName_iff, keyOfName_eq_some_iff]
  exact ⟨fun h => ⟨h.listed, h.form, h.segment, h.ne_nil⟩,
    fun ⟨hlisted, hform, hsegment, hne⟩ => ⟨hlisted, hform, hsegment, hne⟩⟩

/-- Of the entries that give lines to a key there is a last one. -/
theorem Considers.exists_last (h : category.Considers listing name key) :
    ∃ last, category.Considers listing last key ∧
      ∀ other, category.Considers listing other key → other ≠ last → other < last := by
  have hfinite : Set.Finite {name | category.Considers listing name key} :=
    (List.finite_toSet listing.names).subset fun name hname => hname.listed
  obtain ⟨last, hlast, hle⟩ := Set.exists_max_image _ id hfinite ⟨name, h⟩
  exact ⟨last, hlast, fun other hother hne => lt_of_le_of_ne (hle other hother) hne⟩

end Names

section Considered

/-- The entries that give lines to a key, in ascending order of their names, with their keys. -/
def considered (category : Category) (listing : Listing) : List (Text × Key) :=
  (sortBy Text.le (listing.names.filter category.hasName)).filterMap fun name =>
    (keyOfName name).map fun key => (name, key)

theorem mem_considered_iff :
    (name, key) ∈ category.considered listing ↔ category.Considers listing name key := by
  rw [considers_iff, considered, List.mem_filterMap]
  simp only [(sortBy_perm _ _).mem_iff, List.mem_filter, Option.map_eq_some_iff, Prod.mk.injEq]
  refine ⟨?_, ?_⟩
  · intro h
    obtain ⟨_, ⟨hmem, hhas⟩, _, hkey, rfl, rfl⟩ := h
    exact ⟨hmem, hhas, hkey⟩
  · intro h
    obtain ⟨hmem, hhas, hkey⟩ := h
    exact ⟨name, ⟨hmem, hhas⟩, key, hkey, rfl, rfl⟩

theorem sources_eq_map (dir : Path) : category.sources dir listing =
    (category.considered listing).map fun source => (source.2, scannedEntry dir source.1) := by
  rw [considered, List.map_filterMap]
  simp only [Option.map_map]
  rfl

theorem pairwise_considered (h : listing.names.Nodup) :
    (category.considered listing).Pairwise fun source next => source.1 < next.1 := by
  rw [considered, List.pairwise_filterMap]
  refine (Text.pairwise_lt_sortBy (h.filter category.hasName)).imp ?_
  intro s t hst source hsource next hnext
  obtain ⟨_, -, rfl⟩ := Option.map_eq_some_iff.1 hsource
  obtain ⟨_, -, rfl⟩ := Option.map_eq_some_iff.1 hnext
  exact hst

theorem considered_nodup (h : listing.names.Nodup) : (category.considered listing).Nodup := by
  refine (pairwise_considered h).imp ?_
  rintro source next hlt rfl
  exact List.lt_irrefl _ hlt

/-- Listings in which the same entries count give the same sources. -/
theorem considered_eq (h : listing.names.Nodup) (hother : other.names.Nodup)
    (hsame : ∀ name key,
      category.Considers other name key ↔ category.Considers listing name key) :
    category.considered other = category.considered listing := by
  have hperm : (category.considered other).Perm (category.considered listing) := by
    refine (List.perm_ext_iff_of_nodup (considered_nodup hother) (considered_nodup h)).2 ?_
    intro source
    exact mem_considered_iff.trans ((hsame source.1 source.2).trans mem_considered_iff.symm)
  -- the names alone decide the order, and no name occurs twice
  apply List.Perm.eq_of_pairwise _ (pairwise_considered hother) (pairwise_considered h) hperm
  intro source next _ _ hlt hgt
  exact absurd hgt (List.lt_asymm hlt)

/-- Before an entry that counts stand the smaller ones, and behind it stand greater ones. -/
theorem mem_of_considered_eq_append {front back : List (Text × Key)} (h : listing.names.Nodup)
    (hsplit : category.considered listing = front ++ (name, key) :: back) :
    (∀ before found, (before, found) ∈ front ↔
      category.Considers listing before found ∧ before < name) ∧
    ∀ behind found, (behind, found) ∈ back →
      category.Considers listing behind found ∧ name < behind := by
  have hpairwise : (category.considered listing).Pairwise fun source next => source.1 < next.1 :=
    pairwise_considered h
  rw [hsplit, List.pairwise_append, List.pairwise_cons] at hpairwise
  obtain ⟨-, ⟨hback, -⟩, hfront⟩ := hpairwise
  have hmem : ∀ other found, category.Considers listing other found ↔
      (other, found) ∈ front ∨ (other = name ∧ found = key) ∨ (other, found) ∈ back := by
    intro other found
    rw [← mem_considered_iff, hsplit, List.mem_append, List.mem_cons, Prod.mk.injEq]
  refine ⟨fun before found => ⟨fun hin => ?_, ?_⟩, fun behind found hin => ?_⟩
  · exact ⟨(hmem _ _).2 (Or.inl hin), hfront _ hin _ List.mem_cons_self⟩
  · intro h
    obtain ⟨hconsiders, hlt⟩ := h
    rcases (hmem _ _).1 hconsiders with hin | ⟨rfl, -⟩ | hin
    · exact hin
    · exact absurd hlt (List.lt_irrefl _)
    · exact absurd hlt (List.lt_asymm (hback _ hin))
  · exact ⟨(hmem _ _).2 (Or.inr (Or.inr hin)), hback _ hin⟩

end Considered

section Loading

/-- What a directory with the listing is loaded to when it is scanned under the spelling. -/
structure Loads (category : Category) (w : World) (dir spelled : Path) (listing : Listing) :
    Prop where
  succeeds_iff : (∃ lines, loadCategory w category dir = .ok lines) ↔
    ∀ name key, category.Considers listing name key →
      ∃ text, w.readText (scannedEntry spelled name) = .ok text
  fails_iff : ∀ failure, loadCategory w category dir = .error failure ↔
    ∃ name key fault, category.Considers listing name key ∧
      w.readText (scannedEntry spelled name) = .error fault ∧
      (∀ before found, category.Considers listing before found →
        Utf8.encode before < Utf8.encode name →
          ∃ text, w.readText (scannedEntry spelled before) = .ok text) ∧
      failure = .onDisk .readBoilerplate (scannedEntry spelled name) fault
  contains_iff : ∀ lines, loadCategory w category dir = .ok lines → ∀ key,
    lines.contains key = true ↔ ∃ name, category.Considers listing name key
  get?_of_last : ∀ lines, loadCategory w category dir = .ok lines → ∀ name key,
    category.Considers listing name key →
    (∀ other, category.Considers listing other key → other ≠ name →
      Utf8.encode other < Utf8.encode name) →
      ∃ text, w.readText (scannedEntry spelled name) = .ok text ∧
        lines.get? key = some text.lines
  reads_only : ∀ (v : World) (other : Listing), v.readDir dir = .ok other →
    (∀ name key, category.Considers other name key ↔ category.Considers listing name key) →
    (∀ name key, category.Considers listing name key →
      v.readText (scannedEntry spelled name) = w.readText (scannedEntry spelled name)) →
        loadCategory v category dir = loadCategory w category dir

variable (hscan : scanned? dir = some spelled) (hdir : w.readDir dir = .ok listing)
include hscan hdir

theorem loadCategory_eq_readSources (category : Category) : loadCategory w category dir =
    readSources w ((category.considered listing).map fun source =>
      (source.2, scannedEntry spelled source.1)) .empty := by
  rw [← sources_eq_map, ← found_of_scanned? hscan hdir]
  simp only [loadCategory, hdir]

theorem exists_loadCategory_eq_ok_iff : (∃ lines, loadCategory w category dir = .ok lines) ↔
    ∀ name key, category.Considers listing name key →
      ∃ text, w.readText (scannedEntry spelled name) = .ok text := by
  simp only [loadCategory_eq_readSources hscan hdir, exists_readSources_eq_ok_iff,
    List.forall_mem_map, Prod.forall, mem_considered_iff]

theorem loadCategory_eq_error_iff : loadCategory w category dir = .error failure ↔
    ∃ name key fault, category.Considers listing name key ∧
      w.readText (scannedEntry spelled name) = .error fault ∧
      (∀ before found, category.Considers listing before found →
        Utf8.encode before < Utf8.encode name →
          ∃ text, w.readText (scannedEntry spelled before) = .ok text) ∧
      failure = .onDisk .readBoilerplate (scannedEntry spelled name) fault := by
  have hnodup := World.names_nodup_of_readDir hdir
  simp only [Utf8.encode_lt_encode_iff]
  rw [loadCategory_eq_readSources hscan hdir]
  refine ⟨?_, ?_⟩
  · intro h
    obtain ⟨sources, _, more, fault, hsources, hread, hfault, rfl⟩ :=
      readSources_eq_error_iff.1 h
    obtain ⟨front, rest, hsplit, rfl, hrest⟩ := List.map_eq_append_iff.1 hsources
    obtain ⟨⟨name, key⟩, back, rfl, rfl, -⟩ := List.map_eq_cons_iff.1 hrest
    obtain ⟨hfront, -⟩ := mem_of_considered_eq_append hnodup hsplit
    refine ⟨name, key, fault, ?_, hfault, fun before found hbefore hlt => ?_, rfl⟩
    · rw [← mem_considered_iff, hsplit]
      exact List.mem_append_right _ List.mem_cons_self
    · exact hread _ (List.mem_map_of_mem ((hfront before found).2 ⟨hbefore, hlt⟩))
  · intro h
    obtain ⟨name, key, fault, hconsiders, hfault, hread, rfl⟩ := h
    obtain ⟨front, back, hsplit⟩ := List.append_of_mem (mem_considered_iff.2 hconsiders)
    obtain ⟨hfront, -⟩ := mem_of_considered_eq_append hnodup hsplit
    rw [hsplit, List.map_append, List.map_cons]
    refine readSources_eq_error_iff.2 ⟨_, _, _, fault, rfl, ?_, hfault, rfl⟩
    rw [List.forall_mem_map]
    intro source hin
    obtain ⟨hbefore, hlt⟩ := (hfront source.1 source.2).1 hin
    exact hread source.1 source.2 hbefore hlt

theorem get?_loadCategory_of_last (h : loadCategory w category dir = .ok lines)
    (hconsiders : category.Considers listing name key)
    (hlast : ∀ other, category.Considers listing other key → other ≠ name → other < name) :
    ∃ text, w.readText (scannedEntry spelled name) = .ok text ∧
      lines.get? key = some text.lines := by
  obtain ⟨front, back, hsplit⟩ := List.append_of_mem (mem_considered_iff.2 hconsiders)
  obtain ⟨-, hback⟩ := mem_of_considered_eq_append (World.names_nodup_of_readDir hdir) hsplit
  rw [loadCategory_eq_readSources hscan hdir, hsplit, List.map_append, List.map_cons] at h
  apply get?_readSources_of_last h
  intro path hpath
  obtain ⟨⟨behind, found⟩, hin, hsource⟩ := List.mem_map.1 hpath
  cases hsource
  obtain ⟨hbehind, hlt⟩ := hback behind key hin
  refine List.lt_asymm hlt (hlast behind hbehind ?_)
  rintro rfl
  exact List.lt_irrefl _ hlt

/-- The file that has a key for itself gives the key its lines. -/
theorem get?_loadCategory_of_alone (h : loadCategory w category dir = .ok lines)
    (hmem : name ∈ listing.names) (hname : category.hasName name = true)
    (hkey : keyOfName name = some key)
    (halone : ∀ other ∈ listing.names, category.hasName other = true →
      keyOfName other = some key → other = name) :
    ∃ text, w.readText (scannedEntry spelled name) = .ok text ∧
      lines.get? key = some text.lines := by
  refine get?_loadCategory_of_last hscan hdir h (considers_iff.2 ⟨hmem, hname, hkey⟩) ?_
  intro other hother hne
  obtain ⟨hlisted, hhas, hfound⟩ := considers_iff.1 hother
  exact absurd (halone other hlisted hhas hfound) hne

theorem contains_loadCategory_iff (h : loadCategory w category dir = .ok lines) (key : Key) :
    lines.contains key = true ↔ ∃ name, category.Considers listing name key := by
  rw [contains_iff_mem_found h, found_of_scanned? hscan hdir, sources_eq_map]
  simp only [List.mem_map, Prod.mk.injEq, Prod.exists, mem_considered_iff]
  refine ⟨?_, ?_⟩
  · rintro ⟨path, name, found, hconsiders, rfl, rfl⟩
    exact ⟨name, hconsiders⟩
  · rintro ⟨name, hconsiders⟩
    exact ⟨_, name, key, hconsiders, rfl, rfl⟩

/-- The loading is told by the names in the listing and by the files behind those that count. -/
theorem loads_of_scanned? (category : Category) : category.Loads w dir spelled listing where
  succeeds_iff := exists_loadCategory_eq_ok_iff hscan hdir
  fails_iff failure := loadCategory_eq_error_iff hscan hdir
  contains_iff lines h := contains_loadCategory_iff hscan hdir h
  get?_of_last lines h name key hconsiders hlast :=
    get?_loadCategory_of_last hscan hdir h hconsiders fun other hother hne =>
      Utf8.encode_lt_encode_iff.1 (hlast other hother hne)
  reads_only v other hother hsame hread := by
    rw [loadCategory_eq_readSources hscan hother, loadCategory_eq_readSources hscan hdir,
      considered_eq (World.names_nodup_of_readDir hdir) (World.names_nodup_of_readDir hother) hsame]
    apply readSources_eq
    rw [List.forall_mem_map]
    intro source hin
    exact hread source.1 source.2 (mem_considered_iff.1 hin)

end Loading

end Category

/-- An entry can be read when it is a file of UTF-8 text or a link to one, and its path is not too
long; a directory cannot, nor a link that leads to no file. -/
theorem World.readText_scannedEntry_iff (hscan : scanned? dir = some spelled)
    (hdir : w.readDir dir = .ok listing) (hmem : (name, node) ∈ listing.entries) (text : Text) :
    w.readText (scannedEntry spelled name) = .ok text ↔
      Utf8.size (scannedEntry spelled name).text < Disk.pathLimit ∧
        ∃ bytes, w.HasBytes (scannedEntry spelled name) node bytes ∧
          Utf8.decode? bytes = some text := by
  rw [readText_eq_ok_iff]
  refine ⟨?_, ?_⟩
  · intro h
    obtain ⟨bytes, hstat, hdecode⟩ := h
    have hsize := (usable_of_stat hstat).short
    have hlink := linkStat_scannedEntry hscan hdir hmem hsize
    exact ⟨hsize, bytes, (hasBytes_iff_of_linkStat hlink).2 hstat, hdecode⟩
  · intro h
    obtain ⟨hsize, bytes, hbytes, hdecode⟩ := h
    have hlink := linkStat_scannedEntry hscan hdir hmem hsize
    exact ⟨bytes, (hasBytes_iff_of_linkStat hlink).1 hbytes, hdecode⟩

/-- A directory without references is told as such, whatever its preambles are. -/
theorem loadBoilerplate_eq_noReferences_iff :
    loadBoilerplate w dir = .error (.noReferences dir) ↔
      ∃ references, loadCategory w .reference dir = .ok references ∧
        references.isEmpty = true := by
  rw [loadBoilerplate, bind_eq_error_iff]
  refine ⟨?_, ?_⟩
  · intro h
    rcases h with h | ⟨references, hreferences, h⟩
    · obtain ⟨task, path, fault, hfailure⟩ := loadCategory_eq_error h
      cases hfailure
    · split_ifs at h with hempty
      · exact ⟨references, hreferences, hempty⟩
      · obtain ⟨task, path, fault, hfailure⟩ := loadCategory_eq_error (map_eq_error_iff.1 h)
        cases hfailure
  · intro h
    obtain ⟨references, hreferences, hempty⟩ := h
    exact Or.inr ⟨references, hreferences, if_pos hempty⟩

/-- What a readable directory is loaded to. Each category is loaded from the entries that count: if
all of them can be read, every key that one of them has gets the lines of the greatest of its
entries, and if not, the first that cannot be read is told. There is boilerplate just when both
categories load and the references are not empty. A directory that is spelled with an empty piece
behind a `.` is loaded to nothing, whatever it holds. -/
theorem loadBoilerplate_of_readDir (hdir : w.readDir dir = .ok listing) :
    (¬ dir.BlankAfterHere → ∃ spelled, scanned? dir = some spelled ∧
      (∀ category : Category, category.Loads w dir spelled listing) ∧
      ∀ name node, (name, node) ∈ listing.entries → ∀ text,
        (w.readText (scannedEntry spelled name) = .ok text ↔
          Utf8.size (scannedEntry spelled name).text < Disk.pathLimit ∧
            ∃ bytes, w.HasBytes (scannedEntry spelled name) node bytes ∧
              Utf8.decode? bytes = some text)) ∧
    (dir.BlankAfterHere → ∀ category, loadCategory w category dir = .ok .empty) ∧
    (∀ b, loadBoilerplate w dir = .ok b ↔
      loadCategory w .reference dir = .ok b.references ∧ b.references.isEmpty = false ∧
        loadCategory w .preamble dir = .ok b.preambles) ∧
    (loadBoilerplate w dir = .error (.noReferences dir) ↔
      ∃ references, loadCategory w .reference dir = .ok references ∧
        references.isEmpty = true) := by
  refine ⟨?_, ?_, fun b => loadBoilerplate_eq_ok_iff, loadBoilerplate_eq_noReferences_iff⟩
  · intro hblank
    obtain ⟨spelled, hscan⟩ := exists_scanned?_of_readDir hdir hblank
    exact ⟨spelled, hscan, Category.loads_of_scanned? hscan hdir, fun name node hmem text =>
      World.readText_scannedEntry_iff hscan hdir hmem text⟩
  · intro hblank category
    have hne := (World.usable_of_stat (World.readDir_eq_ok_iff.1 hdir)).ne_nil
    have hscan := (scanned?_eq_none_iff hne).2 hblank
    simp only [loadCategory, hdir, Category.found, hscan, readSources]

/-- A directory with two files for one key, an entry that no key is read off, a preamble that is a
link to nothing, and a file whose name has both suffixes. -/
def crowdedTree : World where
  disk := {
    root := .dir "b[*]".toList
      (.file "boilerplate.py.txt".toList [120] <|
        .file "boilerplate.py.x.txt".toList [121] <|
        .dir "boilerplate..txt".toList .empty <|
        .link "boilerplate.go.preamble".toList ⟨"gone".toList⟩ <|
        .file "boilerplate.sh.preamble.txt".toList [122] <|
        .file "boilerplate.txt".toList [255] .empty) .empty
    wellFormed := by decide +kernel }
  cwd := .on ["b[*]".toList]
  git := none

/-- The later of the two files gives the lines, and what is not read does no harm. -/
theorem loadBoilerplate_crowdedTree :
    ∃ listing spelled, crowdedTree.readDir ⟨"/b[*]".toList⟩ = .ok listing ∧
      (∀ category : Category, category.Loads crowdedTree ⟨"/b[*]".toList⟩ spelled listing) ∧
      loadCategory crowdedTree .reference ⟨"/b[*]".toList⟩ =
        .ok ⟨[("sh".toList, ["z".toList]), ("py".toList, ["y".toList])]⟩ ∧
      loadCategory crowdedTree .preamble ⟨"/b[*]".toList⟩ = .error (.onDisk .readBoilerplate
        ⟨"/b[*]/boilerplate.go.preamble".toList⟩ .missing) := by
  have hreferences : loadCategory crowdedTree .reference ⟨"/b[*]".toList⟩ =
      .ok ⟨[("sh".toList, ["z".toList]), ("py".toList, ["y".toList])]⟩ := by decide +kernel
  have hpreambles : loadCategory crowdedTree .preamble ⟨"/b[*]".toList⟩ =
      .error (.onDisk .readBoilerplate ⟨"/b[*]/boilerplate.go.preamble".toList⟩ .missing) := by
    decide +kernel
  have hscan : scanned? ⟨"/b[*]".toList⟩ = some ⟨"/b[*]".toList⟩ := by decide +kernel
  have hblank : ¬ Path.BlankAfterHere ⟨"/b[*]".toList⟩ := by
    rw [← scanned?_eq_none_iff (by decide), hscan]
    exact Option.some_ne_none _
  obtain ⟨listing, hdir⟩ : ∃ listing, crowdedTree.readDir ⟨"/b[*]".toList⟩ = .ok listing :=
    ⟨_, rfl⟩
  obtain ⟨spelled, -, hloads, -⟩ := (loadBoilerplate_of_readDir hdir).1 hblank
  exact ⟨listing, spelled, hdir, hloads, hreferences, hpreambles⟩

/-- The same directory, where the run stands in it and spells it `./`, is loaded to nothing. -/
theorem loadBoilerplate_slash_behind_here :
    ∃ listing, crowdedTree.readDir ⟨"./".toList⟩ = .ok listing ∧
      Category.reference.Considers listing "boilerplate.py.txt".toList "py".toList ∧
      crowdedTree.readText ⟨"./boilerplate.py.txt".toList⟩ = .ok "x".toList ∧
      loadCategory crowdedTree .reference ⟨"./".toList⟩ = .ok .empty ∧
      loadBoilerplate crowdedTree ⟨"./".toList⟩ = .error (.noReferences ⟨"./".toList⟩) := by
  refine ⟨_, rfl, ?_, by decide +kernel, by decide +kernel, by decide +kernel⟩
  rw [Category.considers_iff]
  decide +kernel

end HeaderCheck
