import HeaderCheck.Proofs.Boilerplate.Load
import HeaderCheck.Proofs.Header.Matcher
import HeaderCheck.Proofs.Selection.Select
import HeaderCheck.Verification
import Mathlib.Data.List.Forall2

/-! The stages of a run, one after another: what each of them gives, and with which failures it can
end. From the stage before the files on, every file that is selected has a reference. -/

namespace HeaderCheck

variable {w : World} {b : Boilerplate} {forced : Option Key} {failure : Failure}

section Loading

variable {dir : Path}

theorem loadCategory_eq_error {category : Category}
    (h : loadCategory w category dir = .error failure) :
    ∃ task path fault, failure = .onDisk task path fault := by
  unfold loadCategory at h
  rcases hread : w.readDir dir with fault | listing <;> simp only [hread] at h
  · exact ⟨_, dir, fault, (Except.error.inj h).symm⟩
  · obtain ⟨-, source, -, fault, -, -, -, hfailure⟩ := readSources_eq_error_iff.1 h
    exact ⟨_, source.2, fault, hfailure⟩

theorem loadBoilerplate_eq_error (h : loadBoilerplate w dir = .error failure) :
    failure = .noReferences dir ∨ ∃ task path fault, failure = .onDisk task path fault := by
  rcases bind_eq_error_iff.1 h with href | ⟨references, -, h⟩
  · exact Or.inr (loadCategory_eq_error href)
  · split_ifs at h with hempty
    · exact Or.inl (Except.error.inj h).symm
    · exact Or.inr (loadCategory_eq_error (map_eq_error_iff.1 h))

theorem requireReference_eq_error_iff : requireReference b forced = .error failure ↔
    ∃ key, forced = some key ∧ b.references.get? key = none ∧ failure = .unknownKey key := by
  cases forced with
  | none => simp [requireReference]
  | some key =>
    cases hget : b.references.get? key with
    | none => simp [requireReference, Catalogue.contains, hget, eq_comm]
    | some reference => simp [requireReference, Catalogue.contains, hget]

theorem requireReference_eq_ok_iff {u : Unit} : requireReference b forced = .ok u ↔
    ∀ key, forced = some key → b.references.contains key = true := by
  cases forced with
  | none => simp [requireReference]
  | some key => cases hknown : b.references.contains key <;> simp [requireReference, hknown]

end Loading

section Checking

variable {m : Matcher} {p : Path} {paths : List Path}

/-- With the forced key known, a wanted path has a reference under the key it is checked under. -/
theorem Path.contains_keyUnder {fragments : List Text}
    (hforced : ∀ key, forced = some key → b.references.contains key = true)
    (hp : p.isWanted fragments b.references.contains forced = true) :
    b.references.contains (p.keyUnder forced) = true := by
  cases forced with
  | none => exact (isWanted_iff.1 hp).2 rfl
  | some key => exact hforced key rfl

theorem World.readSource_eq_ok_iff {contents : Text} : w.readSource p = .ok contents ↔
    ∃ bytes, w.stat p = .ok (.file bytes) ∧ contents = Utf8.decodeLossy bytes := by
  unfold readSource
  simp only [← readBytes_eq_ok_iff]
  cases w.readBytes p <;> simp [eq_comm]

theorem World.checkFile_eq_ok_iff {result : FileResult} :
    w.checkFile m forced p = .ok result ↔ ∃ bytes passed, w.stat p = .ok (.file bytes) ∧
      m.verdict (Utf8.decodeLossy bytes) (p.keyUnder forced) = .ok passed ∧
      result = ⟨p, p.keyUnder forced, passed⟩ := by
  rw [checkFile, bind_eq_ok_iff]
  refine ⟨?_, ?_⟩
  · intro h
    obtain ⟨contents, hread, hverdict⟩ := h
    obtain ⟨bytes, hstat, rfl⟩ := readSource_eq_ok_iff.1 hread
    obtain ⟨passed, hpassed, rfl⟩ := map_eq_ok_iff.1 hverdict
    exact ⟨bytes, passed, hstat, hpassed, rfl⟩
  · intro h
    obtain ⟨bytes, passed, hstat, hpassed, rfl⟩ := h
    exact ⟨_, readSource_eq_ok_iff.2 ⟨bytes, hstat, rfl⟩, map_eq_ok_iff.2 ⟨passed, hpassed, rfl⟩⟩

/-- Under a key that has a reference only reading can fail. -/
theorem World.errorOf?_checkFile {anyYear : Bool}
    (hknown : b.references.contains (p.keyUnder forced) = true) :
    errorOf? (w.checkFile (b.matcher anyYear) forced p) =
      (errorOf? (w.readBytes p)).map (.onDisk .readFile p) := by
  obtain ⟨reference, hreference⟩ := Option.isSome_iff_exists.1 hknown
  rw [checkFile, readSource]
  cases w.readBytes p with
  | error fault => rfl
  | ok bytes =>
    simp only [Except.bind, errorOf?_map, Boilerplate.verdict_of_reference hreference]
    rfl

/-- The first file that cannot be read is told. -/
theorem World.errorOf?_checkFiles {anyYear : Bool}
    (hknown : ∀ p ∈ paths, b.references.contains (p.keyUnder forced) = true) :
    errorOf? (w.checkFiles (b.matcher anyYear) forced paths) = paths.findSome? fun p =>
      (errorOf? (w.readBytes p)).map (.onDisk .readFile p) := by
  induction paths with
  | nil => rfl
  | cons p more ih =>
    obtain ⟨hp, hmore⟩ := List.forall_mem_cons.1 hknown
    rw [checkFiles, findSome?_cons_eq_or, ← errorOf?_checkFile hp, ← ih hmore]
    exact errorOf?_bind fun result _ => errorOf?_map _ _

theorem World.checkFiles_eq_ok_iff {results : List FileResult} :
    w.checkFiles m forced paths = .ok results ↔
      List.Forall₂ (fun p result => w.checkFile m forced p = .ok result) paths results := by
  induction paths generalizing results with
  | nil => simp [checkFiles, eq_comm]
  | cons p more ih =>
    rw [checkFiles, bind_eq_ok_iff, List.forall₂_cons_left_iff]
    refine ⟨?_, ?_⟩
    · intro h
      obtain ⟨result, hresult, hmore⟩ := h
      obtain ⟨rest, hrest, rfl⟩ := map_eq_ok_iff.1 hmore
      exact ⟨result, rest, hresult, ih.1 hrest, rfl⟩
    · intro h
      obtain ⟨result, rest, hresult, hrest, rfl⟩ := h
      exact ⟨result, hresult, map_eq_ok_iff.2 ⟨rest, ih.2 hrest, rfl⟩⟩

/-- There is one result for each file, in the order of the files. -/
theorem World.map_path_of_checkFiles {results : List FileResult}
    (h : w.checkFiles m forced paths = .ok results) : results.map (·.path) = paths := by
  rw [checkFiles_eq_ok_iff] at h
  induction h with
  | nil => rfl
  | cons hresult _ ih =>
    obtain ⟨bytes, passed, -, -, rfl⟩ := checkFile_eq_ok_iff.1 hresult
    rw [List.map_cons, ih]

theorem World.checkFile_of_mem {results : List FileResult} {result : FileResult}
    (h : w.checkFiles m forced paths = .ok results) (hresult : result ∈ results) :
    w.checkFile m forced result.path = .ok result := by
  rw [checkFiles_eq_ok_iff] at h
  induction h with
  | nil => cases hresult
  | cons hfirst _ ih =>
    rcases List.mem_cons.1 hresult with rfl | hresult
    · obtain ⟨bytes, passed, hstat, hpassed, rfl⟩ := checkFile_eq_ok_iff.1 hfirst
      exact hfirst
    · exact ih hresult

/-- Of a world only the bytes of the files matter to their check. -/
theorem World.checkFiles_congr {v : World} (h : ∀ p ∈ paths, v.readBytes p = w.readBytes p) :
    v.checkFiles m forced paths = w.checkFiles m forced paths := by
  induction paths with
  | nil => rfl
  | cons p more ih =>
    obtain ⟨hp, hmore⟩ := List.forall_mem_cons.1 h
    rw [checkFiles, checkFiles, checkFile, checkFile, readSource, readSource, hp, ih hmore]

theorem World.checkFiles_eq_error {anyYear : Bool}
    (hknown : ∀ p ∈ paths, b.references.contains (p.keyUnder forced) = true)
    (h : w.checkFiles (b.matcher anyYear) forced paths = .error failure) :
    ∃ p ∈ paths, ∃ fault, failure = .onDisk .readFile p fault := by
  rw [← errorOf?_eq_some_iff, errorOf?_checkFiles hknown] at h
  obtain ⟨p, hp, hfailure⟩ := List.exists_of_findSome?_eq_some h
  obtain ⟨fault, -, rfl⟩ := Option.map_eq_some_iff.1 hfailure
  exact ⟨p, hp, fault, rfl⟩

end Checking

namespace World

variable {s : Settings}

/-- The files that the settings select when this boilerplate is loaded. -/
def selection (w : World) (s : Settings) (b : Boilerplate) : Except Failure (List Path) :=
  w.selectFiles s.root s.files skipFragments b.references.contains s.forcedKey

theorem contains_of_mem_selection {paths : List Path} {p : Path}
    (hforced : ∀ key, s.forcedKey = some key → b.references.contains key = true)
    (hpaths : w.selection s b = .ok paths) (hp : p ∈ paths) :
    b.references.contains (p.keyUnder s.forcedKey) = true :=
  Path.contains_keyUnder hforced (isWanted_of_mem_selectFiles hpaths hp)

theorem verify_eq_ok_iff {report : Report} : w.verify s = .ok report ↔
    ∃ b paths, loadBoilerplate w s.boilerplateDir = .ok b ∧
      (∀ key, s.forcedKey = some key → b.references.contains key = true) ∧
      w.selection s b = .ok paths ∧ report.root = s.root ∧
      w.checkFiles (b.matcher s.anyYear) s.forcedKey paths = .ok report.results := by
  rw [verify, bind_eq_ok_iff]
  refine ⟨?_, ?_⟩
  · intro h
    obtain ⟨b, hload, h⟩ := h
    obtain ⟨u, hforced, h⟩ := bind_eq_ok_iff.1 h
    obtain ⟨paths, hpaths, h⟩ := bind_eq_ok_iff.1 h
    obtain ⟨results, hresults, rfl⟩ := map_eq_ok_iff.1 h
    exact ⟨b, paths, hload, requireReference_eq_ok_iff.1 hforced, hpaths, rfl, hresults⟩
  · intro h
    obtain ⟨b, paths, hload, hforced, hpaths, hroot, hresults⟩ := h
    refine ⟨b, hload, bind_eq_ok_iff.2 ⟨(), requireReference_eq_ok_iff.2 hforced, ?_⟩⟩
    refine bind_eq_ok_iff.2 ⟨paths, hpaths, map_eq_ok_iff.2 ⟨report.results, hresults, ?_⟩⟩
    rw [← hroot]

/-- Below an absolute root every file is told at an absolute path. -/
theorem isAbsolute_of_verify {report : Report} (hroot : s.root.isAbsolute = true)
    (h : w.verify s = .ok report) : ∀ result ∈ report.results, result.path.isAbsolute = true := by
  obtain ⟨b, paths, -, -, hpaths, -, hresults⟩ := verify_eq_ok_iff.1 h
  intro result hresult
  refine isAbsolute_of_mem_selectFiles hroot hpaths ?_
  rw [← map_path_of_checkFiles hresults]
  exact List.mem_map_of_mem hresult

/-- Once the files are selected, a run gives a report just when each of them can be read. -/
theorem exists_verify_iff {paths : List Path} (hload : loadBoilerplate w s.boilerplateDir = .ok b)
    (hforced : ∀ key, s.forcedKey = some key → b.references.contains key = true)
    (hpaths : w.selection s b = .ok paths) :
    (∃ report, w.verify s = .ok report) ↔ ∀ p ∈ paths, ∃ bytes, w.stat p = .ok (.file bytes) := by
  have hknown : ∀ p ∈ paths, b.references.contains (p.keyUnder s.forcedKey) = true :=
    fun p => contains_of_mem_selection hforced hpaths
  have hcheck : (∃ results, w.checkFiles (b.matcher s.anyYear) s.forcedKey paths = .ok results) ↔
      ∀ p ∈ paths, ∃ bytes, w.stat p = .ok (.file bytes) := by
    rw [← errorOf?_eq_none_iff, errorOf?_checkFiles hknown, List.findSome?_eq_none_iff]
    simp only [Option.map_eq_none_iff, errorOf?_eq_none_iff, readBytes_eq_ok_iff]
  rw [← hcheck]
  refine ⟨?_, ?_⟩
  · rintro ⟨report, h⟩
    obtain ⟨other, found, hother, -, hfound, -, hresults⟩ := verify_eq_ok_iff.1 h
    cases hload.symm.trans hother
    cases hpaths.symm.trans hfound
    exact ⟨_, hresults⟩
  · rintro ⟨results, hresults⟩
    exact ⟨⟨s.root, results⟩, verify_eq_ok_iff.2 ⟨b, paths, hload, hforced, hpaths, rfl, hresults⟩⟩

/-- Two worlds are the same to a run that loads, selects and reads the same in both. -/
theorem verify_congr {v : World}
    (hload : loadBoilerplate v s.boilerplateDir = loadBoilerplate w s.boilerplateDir)
    (hselection : ∀ b, loadBoilerplate w s.boilerplateDir = .ok b →
      v.selection s b = w.selection s b)
    (hread : ∀ b paths, loadBoilerplate w s.boilerplateDir = .ok b →
      requireReference b s.forcedKey = .ok () → w.selection s b = .ok paths →
        ∀ p ∈ paths, v.readBytes p = w.readBytes p) : v.verify s = w.verify s := by
  unfold verify
  rw [hload]
  cases hboilerplate : loadBoilerplate w s.boilerplateDir with
  | error failure => rfl
  | ok b =>
    cases hforced : requireReference b s.forcedKey with
    | error failure => simp only [Except.bind, hforced]
    | ok u =>
      simp only [Except.bind, hforced]
      change (v.selection s b).bind _ = (w.selection s b).bind _
      rw [hselection b hboilerplate]
      cases hpaths : w.selection s b with
      | error failure => rfl
      | ok paths =>
        simp only [Except.bind]
        rw [checkFiles_congr (hread b paths hboilerplate hforced hpaths)]

/-- How a run fails: nothing is loaded, the forced key has no reference, the walk fails, or a file
that is selected cannot be read. -/
theorem verify_eq_error_iff : w.verify s = .error failure ↔
    loadBoilerplate w s.boilerplateDir = .error failure ∨
    ∃ b, loadBoilerplate w s.boilerplateDir = .ok b ∧
      (requireReference b s.forcedKey = .error failure ∨
      requireReference b s.forcedKey = .ok () ∧
        (w.selection s b = .error failure ∨
        ∃ paths, w.selection s b = .ok paths ∧
          w.checkFiles (b.matcher s.anyYear) s.forcedKey paths = .error failure)) := by
  simp only [verify, bind_eq_error_iff, map_eq_error_iff, selection,
    Unique.exists_iff]

end World

end HeaderCheck
