import HeaderCheck.Proofs.Selection.Walk
import HeaderCheck.Selection.Select

/-! What is selected for a check. Without named files it is the tree at the root, less the skipped
paths and those of an unknown key; a path that is selected is never one of these. -/

namespace HeaderCheck

variable {w : World} {root p : Path} {named candidates paths : List Path} {fragments : List Text}
  {known : Key → Bool} {forced : Option Key}

theorem Path.isSkipped_iff : p.isSkipped fragments = true ↔
    ∃ fragment ∈ fragments, fragment <:+: p.text := by
  simp only [isSkipped, List.any_eq_true, Text.hasFragment_iff]

theorem Path.isWanted_iff : p.isWanted fragments known forced = true ↔
    (∀ fragment ∈ fragments, ¬ fragment <:+: p.text) ∧
      (forced = none → known p.fileKey = true) := by
  have hskip : (!p.isSkipped fragments) = true ↔
      ∀ fragment ∈ fragments, ¬ fragment <:+: p.text := by
    rw [Bool.not_eq_true', ← Bool.not_eq_true, isSkipped_iff]
    simp
  rw [isWanted, Bool.and_eq_true, hskip]
  cases forced <;> simp

theorem mem_wantedPaths_iff : p ∈ wantedPaths root fragments known forced candidates ↔
    (∃ candidate ∈ candidates, root.join candidate = p) ∧
      p.isWanted fragments known forced = true := by
  rw [wantedPaths, List.mem_filter, List.mem_map]

/-- Absolute candidates are not changed on the way. -/
theorem wantedPaths_of_isAbsolute (h : ∀ candidate ∈ candidates, candidate.isAbsolute = true) :
    wantedPaths root fragments known forced candidates =
      candidates.filter fun p => p.isWanted fragments known forced := by
  rw [wantedPaths, List.map_congr_left fun p hp => Path.join_of_isAbsolute (h p hp), List.map_id']

namespace World

/-- Named files are taken without a look at the disk, so only a walk can fail. -/
theorem selectFiles_eq_error {failure : Failure}
    (h : w.selectFiles root named fragments known forced = .error failure) :
    named = [] ∧ ∃ path fault, failure = .walk path fault := by
  unfold selectFiles at h
  split_ifs at h with hnamed
  exact ⟨hnamed, filesBelow_eq_error (map_eq_error_iff.1 h)⟩

/-- What is selected are the wanted ones of some candidates, named or found. -/
theorem exists_wantedPaths_of_selectFiles
    (h : w.selectFiles root named fragments known forced = .ok paths) :
    ∃ candidates, paths = wantedPaths root fragments known forced candidates := by
  unfold selectFiles at h
  split_ifs at h with hnamed
  · obtain ⟨candidates, -, rfl⟩ := map_eq_ok_iff.1 h
    exact ⟨candidates, rfl⟩
  · exact ⟨named, (Except.ok.inj h).symm⟩

theorem isWanted_of_mem_selectFiles
    (h : w.selectFiles root named fragments known forced = .ok paths) (hp : p ∈ paths) :
    p.isWanted fragments known forced = true := by
  obtain ⟨candidates, rfl⟩ := exists_wantedPaths_of_selectFiles h
  exact (mem_wantedPaths_iff.1 hp).2

theorem isAbsolute_of_mem_selectFiles (hroot : root.isAbsolute = true)
    (h : w.selectFiles root named fragments known forced = .ok paths) (hp : p ∈ paths) :
    p.isAbsolute = true := by
  obtain ⟨candidates, rfl⟩ := exists_wantedPaths_of_selectFiles h
  obtain ⟨⟨candidate, -, rfl⟩, -⟩ := mem_wantedPaths_iff.1 hp
  exact Path.isAbsolute_join_of_isAbsolute hroot candidate

/-- Selecting from the whole tree is walking it and leaving out what is not wanted. -/
theorem selectFiles_tree_eq_ok (hroot : root.isAbsolute = true)
    (h : w.selectFiles root [] fragments known forced = .ok paths) :
    ∃ candidates, w.filesBelow (fragments.contains ·) root = .ok candidates ∧
      paths = candidates.filter fun p => p.isWanted fragments known forced := by
  rw [selectFiles, if_pos rfl] at h
  obtain ⟨candidates, hwalk, rfl⟩ := map_eq_ok_iff.1 h
  refine ⟨candidates, hwalk, wantedPaths_of_isAbsolute fun p hp => ?_⟩
  obtain ⟨node, hentry, -⟩ := entryAt_of_mem_filesBelow hroot hwalk hp
  exact hentry.isAbsolute hroot

/-- Of the whole tree are selected the files, and the links to files, that are wanted. -/
theorem mem_selectFiles_tree_iff (hroot : root.isAbsolute = true)
    (h : w.selectFiles root [] fragments known forced = .ok paths) : p ∈ paths ↔
      (∃ node, w.EntryAt root p node ∧ w.IsSource p node) ∧
        p.isWanted fragments known forced = true := by
  obtain ⟨candidates, hwalk, rfl⟩ := selectFiles_tree_eq_ok hroot h
  rw [List.mem_filter]
  refine ⟨?_, ?_⟩
  · intro hmem
    obtain ⟨hp, hwanted⟩ := hmem
    exact ⟨entryAt_of_mem_filesBelow hroot hwalk hp, hwanted⟩
  · intro hwhole
    obtain ⟨⟨node, hentry, hsource⟩, hwanted⟩ := hwhole
    refine ⟨mem_filesBelow_of_entryAt hroot hwalk hentry hsource fun name hname => ?_, hwanted⟩
    exact (Path.isWanted_iff.1 hwanted).1 name (by simpa using hname)

theorem nodup_selectFiles_tree (hroot : root.isAbsolute = true)
    (h : w.selectFiles root [] fragments known forced = .ok paths) : paths.Nodup := by
  obtain ⟨candidates, hwalk, rfl⟩ := selectFiles_tree_eq_ok hroot h
  exact (nodup_filesBelow hroot hwalk).filter _

end World

end HeaderCheck
