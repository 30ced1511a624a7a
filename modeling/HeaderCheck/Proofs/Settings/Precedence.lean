import HeaderCheck.Proofs.Disk.Stat
import HeaderCheck.Proofs.Settings.Changes

/-! Where each setting of a run comes from. A value of the caller wins over the settings file, which
wins over the default, but what counts as a value differs: an empty key of either is none, the year
can only be switched on, and only the file's directory is seen from the root. -/

namespace HeaderCheck

variable {w : World} {a : Arguments} {said : FileSettings} {s : Settings} {root dir : Path}
  {k : Option Key}

theorem nonEmptyKey_eq_none_iff : nonEmptyKey k = none ↔ k = none ∨ k = some [] := by
  cases k <;> simp [nonEmptyKey]

/-- What the settings file of a root says: nothing where there is no such file, and what is written
in it where it is valid. -/
inductive World.SettingsFile (w : World) (root : Path) : FileSettings → Prop
  | absent (hfile : w.isFile (root.join settingsFileName) = false) : SettingsFile w root .silent
  | valid {document : Text} {said : FileSettings}
      (hread : w.readText (root.join settingsFileName) = .ok document)
      (hsaid : FileSettings.ofDocument? document = some said) : SettingsFile w root said

theorem loadSettings_eq_ok_iff : loadSettings w root = .ok said ↔ w.SettingsFile root said := by
  unfold loadSettings
  refine ⟨?_, ?_⟩
  · intro h
    cases hfile : w.isFile (root.join settingsFileName) with
    | false =>
      simp only [hfile, Bool.false_eq_true, if_false] at h
      cases h
      exact .absent hfile
    | true =>
      simp only [hfile, if_true] at h
      cases hread : w.readText (root.join settingsFileName) with
      | error fault => simp [hread] at h
      | ok document =>
        cases hsaid : FileSettings.ofDocument? document with
        | none => simp [hread, hsaid] at h
        | some own =>
          simp only [hread, hsaid] at h
          cases h
          exact .valid hread hsaid
  · intro h
    cases h with
    | absent hfile => simp [hfile]
    | valid hread hsaid =>
      obtain ⟨bytes, hstat, -⟩ := World.readText_eq_ok_iff.1 hread
      have hfile : w.isFile (root.join settingsFileName) = true := by rw [World.isFile, hstat]
      simp [hfile, hread, hsaid]

namespace Settings

/-- How the settings follow from the root, the arguments and the settings file, one field at a
time. -/
structure Follow (s : Settings) (root : Path) (a : Arguments) (said : FileSettings) : Prop where
  resolved : s.root = root
  dirOfCaller : ∀ dir, a.boilerplateDir = some dir → s.boilerplateDir = dir
  dirOfFile : a.boilerplateDir = none → ∀ dir, said.boilerplateDir = some dir →
    s.boilerplateDir = root.join dir ∧ (dir.isAbsolute = true → s.boilerplateDir = dir)
  dirByDefault : a.boilerplateDir = none → said.boilerplateDir = none →
    s.boilerplateDir = root.join defaultBoilerplateDir
  forcedKey : ∀ key, s.forcedKey = some key ↔ key ≠ [] ∧ (a.forcedKey = some key ∨
    (a.forcedKey = none ∨ a.forcedKey = some []) ∧ said.forcedKey = some key)
  anyYear : s.anyYear = true ↔ a.anyYear = true ∨ said.anyYear = some true
  files : s.files = a.files

theorem follow_after (root : Path) (a : Arguments) (said : FileSettings) :
    (after root (.file said :: a.changes)).Follow root a said := by
  rw [after_file_changes]
  constructor
  case resolved => rfl
  case files => rfl
  case dirOfCaller =>
    intro dir hdir
    simp only [hdir, Option.some_or, Option.getD_some]
  case dirOfFile =>
    intro hnone dir hdir
    simp only [hnone, hdir, Option.none_or, Option.map_some, Option.getD_some, true_and]
    exact Path.join_of_isAbsolute
  case dirByDefault =>
    intro hnone hdir
    simp only [hnone, hdir, Option.none_or, Option.map_none, Option.getD_none]
  case forcedKey =>
    intro key
    simp only [Option.or_eq_some_iff, nonEmptyKey_eq_some_iff, nonEmptyKey_eq_none_iff]
    tauto
  case anyYear =>
    cases a.anyYear <;> cases said.anyYear <;> simp

/-- What two runs need to have in common to have a field in common: its flag, its entry in the
settings file and, for the directory, the root. -/
structure FieldsAgree (s t : Settings) (a c : Arguments) (said told : FileSettings) : Prop where
  boilerplateDir : s.root = t.root → a.boilerplateDir = c.boilerplateDir →
    said.boilerplateDir = told.boilerplateDir → s.boilerplateDir = t.boilerplateDir
  forcedKey : a.forcedKey = c.forcedKey → said.forcedKey = told.forcedKey →
    s.forcedKey = t.forcedKey
  anyYear : a.anyYear = c.anyYear → said.anyYear = told.anyYear → s.anyYear = t.anyYear
  files : a.files = c.files → s.files = t.files

theorem Follow.fieldsAgree {t : Settings} {other : Path} {c : Arguments} {told : FileSettings}
    (hs : s.Follow root a said) (ht : t.Follow other c told) :
    s.FieldsAgree t a c said told := by
  constructor
  case boilerplateDir =>
    intro hroot hflag hsaid
    rw [hs.resolved, ht.resolved] at hroot
    subst hroot
    cases hdir : a.boilerplateDir with
    | some dir => rw [hs.dirOfCaller dir hdir, ht.dirOfCaller dir (hflag ▸ hdir)]
    | none =>
      cases hfile : said.boilerplateDir with
      | some dir =>
        rw [(hs.dirOfFile hdir dir hfile).1, (ht.dirOfFile (hflag ▸ hdir) dir (hsaid ▸ hfile)).1]
      | none => rw [hs.dirByDefault hdir hfile, ht.dirByDefault (hflag ▸ hdir) (hsaid ▸ hfile)]
  case forcedKey =>
    intro hflag hsaid
    refine Option.ext fun key => ?_
    rw [hs.forcedKey, ht.forcedKey, hflag, hsaid]
  case anyYear =>
    intro hflag hsaid
    rw [Bool.eq_iff_iff, hs.anyYear, ht.anyYear, hflag, hsaid]
  case files =>
    intro hfiles
    rw [hs.files, ht.files, hfiles]

end Settings

theorem isAbsolute_of_resolveRoot (hnamed : a.root ≠ none) (h : resolveRoot w a.root = .ok root) :
    root.isAbsolute = true := by
  obtain ⟨dir, hdir⟩ := Option.ne_none_iff_exists'.1 hnamed
  rw [hdir, resolveRoot] at h
  split_ifs at h with habs
  · cases h
    exact habs
  · cases hhere : w.cwd.location? with
    | none => simp [hhere] at h
    | some here =>
      simp only [hhere] at h
      cases h
      exact Path.isAbsolute_join_of_isAbsolute rfl dir

/-- With a root that can be told and a settings file that is valid or not there, the settings of a
run are fixed field by field; the root is absolute if the caller names it. A field of any other run
is the same if what it depends on is. -/
theorem Arguments.settings_field_by_field (hroot : resolveRoot w a.root = .ok root)
    (hsaid : w.SettingsFile root said) :
    ∃ s, a.settings w = .ok s ∧ s.Follow root a said ∧ (a.root ≠ none → s.root.isAbsolute = true) ∧
      ∀ (v : World) (c : Arguments) (t : Settings) (told : FileSettings), c.settings v = .ok t →
        v.SettingsFile t.root told → s.FieldsAgree t a c said told := by
  have hfollow := Settings.follow_after root a said
  refine ⟨_, settings_eq_ok_iff.2 ⟨root, said, hroot, loadSettings_eq_ok_iff.2 hsaid, rfl⟩, hfollow,
    fun hnamed => ?_, fun v c t told ht htold => ?_⟩
  · rw [hfollow.resolved]
    exact isAbsolute_of_resolveRoot hnamed hroot
  · obtain ⟨other, own, -, hown, rfl⟩ := settings_eq_ok_iff.1 ht
    have hafter := Settings.follow_after other c own
    -- a root has one settings file
    rw [hafter.resolved, ← loadSettings_eq_ok_iff, hown] at htold
    cases htold
    exact hfollow.fieldsAgree hafter

/-- A repository whose settings file names a directory and a key, and has any year pass. -/
def settledTree : World where
  disk := {
    root := .dir "r".toList
      (.file ".boilerplate.toml".toList
        (Utf8.encode "boilerplate_dir = 'b'\nforce_extension = 'sh'\nany_year = true\n".toList)
        .empty) .empty
    wellFormed := by decide +kernel }
  cwd := .on []
  git := none

/-- An empty key of the caller leaves the key of the file in place, and the year of the file stays
on; with a directory of the caller that of the file is not used. -/
theorem Arguments.settings_settledTree :
    resolveRoot settledTree (some ⟨"r".toList⟩) = .ok ⟨"/r".toList⟩ ∧
    settledTree.SettingsFile ⟨"/r".toList⟩ ⟨some ⟨['b']⟩, some "sh".toList, some true⟩ ∧
    ∃ s, (Arguments.mk [] (some []) (some ⟨"r".toList⟩) none false false).settings settledTree =
        .ok s ∧ s.root.isAbsolute = true ∧ s.boilerplateDir = ⟨"/r/b".toList⟩ ∧
      s.forcedKey = some "sh".toList ∧ s.anyYear = true ∧
      ∃ t, (Arguments.mk [] (some []) (some ⟨"/r".toList⟩) (some ⟨"c".toList⟩) false false).settings
          settledTree = .ok t ∧ t.boilerplateDir = ⟨"c".toList⟩ ∧ s.forcedKey = t.forcedKey := by
  have hroot : resolveRoot settledTree (some ⟨"r".toList⟩) = .ok ⟨"/r".toList⟩ := by
    decide +kernel
  have hfile : loadSettings settledTree ⟨"/r".toList⟩ =
      .ok ⟨some ⟨['b']⟩, some "sh".toList, some true⟩ := by decide +kernel
  have hsaid := loadSettings_eq_ok_iff.1 hfile
  obtain ⟨s, hs, hfollow, habs, hagree⟩ := settings_field_by_field
    (a := ⟨[], some [], some ⟨"r".toList⟩, none, false, false⟩) hroot hsaid
  obtain ⟨t, ht, hother, -, -⟩ := settings_field_by_field
    (a := ⟨[], some [], some ⟨"/r".toList⟩, some ⟨"c".toList⟩, false, false⟩) rfl hsaid
  refine ⟨hroot, hsaid, s, hs, habs (Option.some_ne_none _), (hfollow.dirOfFile rfl _ rfl).1, ?_,
    hfollow.anyYear.2 (.inr rfl), t, ht, hother.dirOfCaller _ rfl, ?_⟩
  · exact (hfollow.forcedKey _).2 ⟨by decide, .inr ⟨.inr rfl, rfl⟩⟩
  · refine (hagree _ _ _ _ ht ?_).forcedKey rfl rfl
    rw [hother.resolved]
    exact hsaid

end HeaderCheck
