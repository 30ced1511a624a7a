import HeaderCheck.Proofs.Boilerplate.Load
import HeaderCheck.Proofs.FileKey
import HeaderCheck.Proofs.Verification.Stages

/-! The names of checked files. A key of the boilerplate stands between two dots of a file name, so
it holds no dot itself. A file whose key would hold one is passed over, whatever files the
boilerplate directory has: without a forced key no run checks it. -/

namespace HeaderCheck

variable {w : World} {dir p : Path} {category : Category} {lines : Catalogue (List Line)}
  {key : Key}

/-- There is a final name, it does not end in a dot, and a dot in front is not its only one. -/
def Path.HasPlainName (p : Path) : Prop :=
  ∃ name, p.fileName? = some name ∧ name.getLast? ≠ some '.' ∧
    ∀ rest, name = '.' :: rest → '.' ∈ rest

/-- Any other path has an empty key or one with a dot. -/
theorem Path.HasKey.hasPlainName (h : p.HasKey key) (hne : key ≠ []) (hdot : '.' ∉ key) :
    p.HasPlainName := by
  cases h with
  | blank => exact absurd rfl hne
  | up => exact absurd rfl hne
  | extension stem ext hends hext hstem hnil =>
    refine ⟨_, fileName?_of_extension hends hstem hnil, fun hlast => hext ?_, ?_⟩
    · rw [List.getLast?_append_of_ne_nil _ (List.cons_ne_nil _ _),
        List.getLast?_cons_of_ne_nil hnil] at hlast
      exact List.mem_of_getLast? hlast
    · intro rest hrest
      obtain ⟨c, front, rfl⟩ := List.exists_cons_of_ne_nil hstem
      obtain ⟨-, rfl⟩ := List.cons.inj hrest
      simp
  | whole _ hends hup _ =>
    refine ⟨key, fileName?_of_endsIn hends hup, fun hlast => hdot (List.mem_of_getLast? hlast), ?_⟩
    rintro rest rfl
    exact absurd List.mem_cons_self hdot

theorem dot_notMem_of_loadCategory (h : loadCategory w category dir = .ok lines)
    (hkey : lines.contains key = true) : key ≠ [] ∧ '.' ∉ key := by
  obtain ⟨path, hfound⟩ := (contains_iff_mem_found h).1 hkey
  obtain ⟨name, -, hname⟩ := Category.exists_keyOfName_of_mem_found hfound
  exact Category.dot_notMem_of_keyOfName hname

namespace World

variable {s : Settings} {b : Boilerplate} {paths : List Path}

theorem dot_notMem_fileKey_of_mem_selection (hforced : s.forcedKey = none)
    (hload : loadBoilerplate w s.boilerplateDir = .ok b) (hpaths : w.selection s b = .ok paths)
    (hp : p ∈ paths) : p.fileKey ≠ [] ∧ '.' ∉ p.fileKey := by
  obtain ⟨hreferences, -, -⟩ := loadBoilerplate_eq_ok_iff.1 hload
  exact dot_notMem_of_loadCategory hreferences
    ((Path.isWanted_iff.1 (isWanted_of_mem_selectFiles hpaths hp)).2 hforced)

/-- No key that is loaded from a boilerplate directory is empty or holds a dot. So, where no key is
forced, neither does the key of a file that is selected for a check, be it named or found; the path
of the file has a final name, which does not end in a dot, and has no dot in front as its only
one. -/
theorem checked_names_plain (w : World) :
    (∀ category dir lines, loadCategory w category dir = .ok lines →
      ∀ key ∈ lines.keys, key ≠ [] ∧ '.' ∉ key) ∧
    ∀ s : Settings, s.forcedKey = none →
      (∀ b paths, loadBoilerplate w s.boilerplateDir = .ok b → w.selection s b = .ok paths →
        ∀ p ∈ paths, p.HasPlainName) ∧
      ∀ report, w.verify s = .ok report → ∀ result ∈ report.results,
        result.key ≠ [] ∧ '.' ∉ result.key ∧ result.path.HasPlainName := by
  refine ⟨fun category dir lines h key hkey => ?_, fun s hforced => ⟨?_, ?_⟩⟩
  · exact dot_notMem_of_loadCategory h (Catalogue.mem_keys_iff.1 hkey)
  · intro b paths hload hpaths p hp
    obtain ⟨hne, hdot⟩ := dot_notMem_fileKey_of_mem_selection hforced hload hpaths hp
    exact p.hasKey_fileKey.hasPlainName hne hdot
  · intro report h result hresult
    obtain ⟨b, paths, hload, -, hpaths, -, hresults⟩ := verify_eq_ok_iff.1 h
    have hp : result.path ∈ paths := by
      rw [← map_path_of_checkFiles hresults]
      exact List.mem_map_of_mem hresult
    obtain ⟨bytes, passed, -, -, heq⟩ :=
      checkFile_eq_ok_iff.1 (checkFile_of_mem hresults hresult)
    have hkey : result.key = result.path.fileKey := by
      rw [heq, hforced]
      rfl
    obtain ⟨hne, hdot⟩ := dot_notMem_fileKey_of_mem_selection hforced hload hpaths hp
    rw [hkey]
    exact ⟨hne, hdot, result.path.hasKey_fileKey.hasPlainName hne hdot⟩

/-- A tree with files whose names begin or end with a dot, and boilerplate that is named as if it
were for them. -/
def dottedNamesTree : World where
  disk := {
    root := .dir "b".toList
        (.file "boilerplate..bashrc.txt".toList [120] <|
          .file "boilerplate.bashrc.txt".toList [120] <|
          .file "boilerplate.x.txt".toList [120] <|
          .file "boilerplate.odd..txt".toList [120] .empty) <|
      .file ".bashrc".toList [121] <| .file "odd.".toList [121] <| .file "..x".toList [121] .empty
    wellFormed := by decide +kernel }
  cwd := .on []
  git := none

/-- No key is loaded for these files, and the only one that is checked has a dot inside its name. -/
theorem verify_dottedNamesTree :
    (∃ lines, loadCategory dottedNamesTree .reference ⟨"/b".toList⟩ = .ok lines ∧
      lines.keys = ["bashrc", "odd", "x"].map String.toList ∧
      ∀ key ∈ lines.keys, key ≠ [] ∧ '.' ∉ key) ∧
    ∃ report, dottedNamesTree.verify ⟨⟨['/']⟩, ⟨"/b".toList⟩, none,
        ["/.bashrc", "/odd.", "/..x", "/b/..", "/"].map (⟨·.toList⟩), false⟩ = .ok report ∧
      report.results = [⟨⟨"/..x".toList⟩, "x".toList, false⟩] ∧
      ∀ result ∈ report.results,
        result.key ≠ [] ∧ '.' ∉ result.key ∧ result.path.HasPlainName := by
  have hlines : loadCategory dottedNamesTree .reference ⟨"/b".toList⟩ =
      .ok ⟨[("x".toList, [['x']]), ("odd".toList, [['x']]), ("bashrc".toList, [['x']])]⟩ := by
    decide +kernel
  have hreport : dottedNamesTree.verify ⟨⟨['/']⟩, ⟨"/b".toList⟩, none,
      ["/.bashrc", "/odd.", "/..x", "/b/..", "/"].map (⟨·.toList⟩), false⟩ =
        .ok ⟨⟨['/']⟩, [⟨⟨"/..x".toList⟩, "x".toList, false⟩]⟩ := by decide +kernel
  obtain ⟨hkeys, hnames⟩ := checked_names_plain dottedNamesTree
  exact ⟨⟨_, hlines, by decide +kernel, hkeys _ _ _ hlines⟩, _, hreport, rfl,
    (hnames _ rfl).2 _ hreport⟩

end World

end HeaderCheck
