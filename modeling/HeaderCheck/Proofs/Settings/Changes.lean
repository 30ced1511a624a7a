import HeaderCheck.CommandLine.Run
import HeaderCheck.Proofs.Outcome

/-! What the changes to the settings come to. The root is fixed from the beginning; the other fields
are computed once, for the change of the settings file with those of the caller behind it. -/

namespace HeaderCheck

theorem nonEmptyKey_eq_some_iff {k : Option Key} {key : Key} :
    nonEmptyKey k = some key ↔ k = some key ∧ key ≠ [] := by
  rw [nonEmptyKey, Option.filter_eq_some_iff, bne_iff_ne]

theorem nonEmptyKey_eq_ite (k : Option Key) : nonEmptyKey k = if k = some [] then none else k := by
  cases k with
  | none => rfl
  | some key => by_cases h : key = [] <;> simp [nonEmptyKey, h]

namespace Settings

theorem root_apply (s : Settings) (c : Change) : (s.apply c).root = s.root := by
  cases c <;> rfl

theorem root_foldl_apply (s : Settings) (changes : List Change) :
    (changes.foldl apply s).root = s.root := by
  induction changes generalizing s with
  | nil => rfl
  | cons c more ih => rw [List.foldl_cons, ih, root_apply]

theorem root_after (root : Path) (changes : List Change) : (after root changes).root = root :=
  root_foldl_apply (ofRoot root) changes

/-- A change that is made only if there is a value for it. -/
theorem foldl_apply_toList {α : Type} (change : α → Change) (value : Option α) (s : Settings) :
    (value.map change).toList.foldl apply s = value.elim s fun v => s.apply (change v) := by
  cases value <;> rfl

/-- The caller's key is asked twice whether it is empty: when it is made a change, and by the
change. -/
theorem elim_apply_forcedKey (flag : Option Key) (s : Settings) :
    (nonEmptyKey flag).elim s (fun key => s.apply (.forcedKey (some key))) =
      { s with forcedKey := (nonEmptyKey flag).or s.forcedKey } := by
  cases h : nonEmptyKey flag with
  | none => rfl
  | some key =>
    have hagain := nonEmptyKey_eq_some_iff.2 ⟨rfl, (nonEmptyKey_eq_some_iff.1 h).2⟩
    simp only [Option.elim_some, apply, hagain, Option.some_or]

theorem ofRoot_apply_file (root : Path) (said : FileSettings) :
    (ofRoot root).apply (.file said) =
      { root
        boilerplateDir := (said.boilerplateDir.map root.join).getD (root.join defaultBoilerplateDir)
        forcedKey := nonEmptyKey said.forcedKey
        files := []
        anyYear := said.anyYear.getD false } := by
  cases hkey : said.forcedKey <;> simp [apply, ofRoot, hkey, nonEmptyKey]

/-- What the file and behind it the caller make of the defaults. -/
theorem after_file_changes (root : Path) (said : FileSettings) (a : Arguments) :
    after root (.file said :: a.changes) =
      { root
        boilerplateDir := (a.boilerplateDir.or (said.boilerplateDir.map root.join)).getD
          (root.join defaultBoilerplateDir)
        forcedKey := (nonEmptyKey a.forcedKey).or (nonEmptyKey said.forcedKey)
        files := a.files
        anyYear := a.anyYear || said.anyYear.getD false } := by
  rw [after, List.foldl_cons, ofRoot_apply_file, Arguments.changes, List.foldl_append,
    List.foldl_append, List.foldl_append, foldl_apply_toList, foldl_apply_toList,
    elim_apply_forcedKey, List.foldl_cons, List.foldl_nil]
  cases a.boilerplateDir <;> cases a.anyYear <;> rfl

end Settings

namespace Arguments

variable {w : World} {a : Arguments} {s : Settings}

theorem settings_eq_ok_iff : a.settings w = .ok s ↔
    ∃ root said, resolveRoot w a.root = .ok root ∧ loadSettings w root = .ok said ∧
      s = Settings.after root (.file said :: a.changes) := by
  unfold settings
  cases hroot : resolveRoot w a.root with
  | error failure => simp
  | ok root =>
    cases hsaid : loadSettings w root with
    | error failure => simp [hsaid]
    | ok said => simp [hsaid, eq_comm]

/-- A run is about the files and the root that the arguments name. -/
theorem files_of_settings (h : a.settings w = .ok s) : s.files = a.files := by
  obtain ⟨root, said, -, -, rfl⟩ := settings_eq_ok_iff.1 h
  rw [Settings.after_file_changes]

theorem root_of_settings (h : a.settings w = .ok s) : resolveRoot w a.root = .ok s.root := by
  obtain ⟨root, said, hroot, -, rfl⟩ := settings_eq_ok_iff.1 h
  rw [Settings.root_after]
  exact hroot

end Arguments

theorem World.run_eq_ok_iff {w : World} {a : Arguments} {report : Report} :
    w.run a = .ok report ↔ ∃ s, a.settings w = .ok s ∧ w.verify s = .ok report := by
  rw [run, bind_eq_ok_iff]
  refine exists_congr fun s => and_congr_right fun _ => ?_
  cases w.verify s <;> simp

end HeaderCheck
