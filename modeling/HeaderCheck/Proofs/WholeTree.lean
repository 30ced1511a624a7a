import HeaderCheck.Proofs.CommandLine.Ending
import HeaderCheck.Proofs.Settings.Changes
import HeaderCheck.Proofs.Verification.Stages

/-! A run over a whole tree lets no file slip through and checks none that it should not. What it
has to check is told from the disk alone, by the entries at and below the root and their bytes. -/

namespace HeaderCheck

namespace World

variable {w : World} {root p : Path} {node : Node} {bytes : Bytes}

/-- The bytes of an entry: a file has its own, and a link those of the file it leads to. -/
def HasBytes (w : World) (p : Path) : Node → Bytes → Prop
  | .file own, bytes => own = bytes
  | .link _, bytes => w.stat p = .ok (.file bytes)
  | .dir _, _ => False

/-- At the root or below it there is a file, or a link to one, with these bytes. -/
def FileAt (w : World) (root p : Path) (bytes : Bytes) : Prop :=
  ∃ node, w.EntryAt root p node ∧ w.HasBytes p node bytes

theorem isSource_iff : w.IsSource p node ↔ ∃ bytes, w.HasBytes p node bytes := by
  cases node with
  | file own => simp [IsSource, HasBytes]
  | dir inside => simp [IsSource, HasBytes]
  | link target =>
    rw [IsSource, isFile]
    rcases hstat : w.stat p with fault | (bytes | target | inside) <;> simp [HasBytes, hstat]

/-- The bytes of an entry are what is read under its path. -/
theorem hasBytes_iff_of_linkStat (h : w.linkStat p = .ok node) :
    w.HasBytes p node bytes ↔ w.stat p = .ok (.file bytes) := by
  cases node with
  | file own => simp [HasBytes, stat_of_linkStat h (by simp)]
  | dir inside => simp [HasBytes, stat_of_linkStat h (by simp)]
  | link target => exact Iff.rfl

theorem EntryAt.hasBytes_iff (h : w.EntryAt root p node)
    (hsize : Utf8.size p.text < Disk.pathLimit) :
    w.HasBytes p node bytes ↔ w.stat p = .ok (.file bytes) :=
  hasBytes_iff_of_linkStat (h.linkStat_eq hsize)

theorem fileAt_iff_of_stat (h : w.EntryAt root p node) (hstat : w.stat p = .ok (.file bytes))
    (other : Bytes) : w.FileAt root p other ↔ other = bytes := by
  have hsize := (usable_of_stat hstat).short
  refine ⟨?_, ?_⟩
  · intro hfile
    obtain ⟨found, hfound, hother⟩ := hfile
    cases hstat.symm.trans ((hfound.hasBytes_iff hsize).1 hother)
    rfl
  · rintro rfl
    exact ⟨node, h, (h.hasBytes_iff hsize).2 hstat⟩

variable {s : Settings} {b : Boilerplate} {paths : List Path}

theorem mem_selection_tree_iff (hfiles : s.files = []) (hroot : s.root.isAbsolute = true)
    (h : w.selection s b = .ok paths) : p ∈ paths ↔
      (∃ bytes, w.FileAt s.root p bytes) ∧
        (∀ fragment ∈ skipFragments, ¬ fragment <:+: p.text) ∧
        (s.forcedKey = none → b.references.contains p.fileKey = true) := by
  rw [selection, hfiles] at h
  rw [mem_selectFiles_tree_iff hroot h, Path.isWanted_iff]
  refine and_congr_left fun _ => ?_
  refine ⟨?_, ?_⟩
  · intro hentry
    obtain ⟨node, hentry, hsource⟩ := hentry
    obtain ⟨bytes, hbytes⟩ := isSource_iff.1 hsource
    exact ⟨bytes, node, hentry, hbytes⟩
  · intro hfile
    obtain ⟨bytes, node, hentry, hbytes⟩ := hfile
    exact ⟨node, hentry, isSource_iff.2 ⟨bytes, hbytes⟩⟩

/-- What the report of a run over the whole tree has to say: one result for each file that is to be
checked, with the verdict on the bytes of that file, and no other. -/
structure Covers (w : World) (s : Settings) (b : Boilerplate) (report : Report) : Prop where
  root : report.root = s.root
  once : (report.results.map (·.path)).Nodup
  mem_iff : ∀ p, p ∈ report.results.map (·.path) ↔
    (∃ bytes, w.FileAt s.root p bytes) ∧
      (∀ fragment ∈ skipFragments, ¬ fragment <:+: p.text) ∧
      (s.forcedKey = none → b.references.contains p.fileKey = true)
  checked : ∀ result ∈ report.results, result.key = s.forcedKey.getD result.path.fileKey ∧
    ∃ bytes, (∀ other, w.FileAt s.root result.path other ↔ other = bytes) ∧
      (b.matcher s.anyYear).verdict (Utf8.decodeLossy bytes) result.key = .ok result.passed

theorem covers_of_verify {report : Report} (hfiles : s.files = [])
    (hroot : s.root.isAbsolute = true) (h : w.verify s = .ok report) :
    ∃ b, loadBoilerplate w s.boilerplateDir = .ok b ∧ w.Covers s b report := by
  obtain ⟨b, paths, hload, -, hpaths, hreport, hresults⟩ := verify_eq_ok_iff.1 h
  have hmap := map_path_of_checkFiles hresults
  refine ⟨b, hload, hreport, ?_, fun p => ?_, fun result hresult => ?_⟩
  · rw [hmap]
    rw [selection, hfiles] at hpaths
    exact nodup_selectFiles_tree hroot hpaths
  · rw [hmap]
    exact mem_selection_tree_iff hfiles hroot hpaths
  · obtain ⟨bytes, passed, hstat, hverdict, heq⟩ :=
      checkFile_eq_ok_iff.1 (checkFile_of_mem hresults hresult)
    have hkey : result.key = result.path.keyUnder s.forcedKey := congrArg FileResult.key heq
    have hpassed : result.passed = passed := congrArg FileResult.passed heq
    have hmem : result.path ∈ paths := hmap ▸ List.mem_map_of_mem hresult
    obtain ⟨⟨_, node, hentry, -⟩, -⟩ := (mem_selection_tree_iff hfiles hroot hpaths).1 hmem
    refine ⟨hkey, bytes, fileAt_iff_of_stat hentry hstat, ?_⟩
    rw [hkey, hpassed, hverdict]

/-- The gate over a whole tree. A report has one result for each file at or below the root that is
not skipped and whose key is known or forced, and no other; the result is the verdict on the bytes
of the file. The program succeeds when all of these pass, has a line for each of them that does not,
and prints nothing when there is no report. -/
theorem run_tree {a : Arguments} {root : Path} (hfiles : a.files = [])
    (hnamed : resolveRoot w a.root = .ok root) (hroot : root.isAbsolute = true) :
    (∀ report, w.run a = .ok report →
      ∃ s b, a.settings w = .ok s ∧ s.root = root ∧
        loadBoilerplate w s.boilerplateDir = .ok b ∧ w.Covers s b report) ∧
    ∀ line, Arguments.ofCommandLine line = .ok a →
      (w.execute line = ⟨0, Report.successLine ++ ['\n']⟩ ↔
        ∃ report, w.run a = .ok report ∧ ∀ result ∈ report.results, result.passed = true) ∧
      ((w.execute line).code = 1 ∧ (w.execute line).printed ≠ [] ↔
        ∃ report, w.run a = .ok report ∧ ∃ result ∈ report.results, result.passed = false) ∧
      (∀ report, w.run a = .ok report → (∃ result ∈ report.results, result.passed = false) →
        ∃ fails : List Line, fails.Perm ((report.results.filter (!·.passed)).map fun result =>
            Report.failureLine (result.path.relativeTo root)) ∧
          w.execute line = ⟨1, fails.flatMap (· ++ ['\n'])⟩) ∧
      (w.execute line = ⟨1, []⟩ ↔ ∃ failure, w.run a = .error failure) := by
  have hcovers : ∀ report, w.run a = .ok report →
      ∃ s b, a.settings w = .ok s ∧ s.root = root ∧
        loadBoilerplate w s.boilerplateDir = .ok b ∧ w.Covers s b report := by
    intro report hrun
    obtain ⟨s, hsettings, hverify⟩ := run_eq_ok_iff.1 hrun
    cases hnamed.symm.trans (Arguments.root_of_settings hsettings)
    have hnone : s.files = [] := (Arguments.files_of_settings hsettings).trans hfiles
    obtain ⟨b, hload, hcovers⟩ := covers_of_verify hnone hroot hverify
    exact ⟨s, b, hsettings, rfl, hload, hcovers⟩
  refine ⟨hcovers, fun line hline => ⟨execute_eq_success_iff w hline, execute_failing_iff w hline,
    fun report hrun hfailing => ?_, execute_silent_iff w hline⟩⟩
  obtain ⟨s, b, -, rfl, -, hcovers⟩ := hcovers report hrun
  obtain ⟨fails, hperm, -, hending⟩ :=
    Report.ending_of_not_succeeded (Report.not_succeeded_iff.2 hfailing)
  refine ⟨fails, ?_, (execute_of_run_ok hline hrun).trans hending⟩
  rw [← hcovers.root]
  exact hperm

/-- A tree behind a link, with a file that passes and a link to it, one that does not pass, one of
an unknown key, and one that is skipped. -/
def mixedTree : World where
  disk := {
    root := .dir "b".toList (.file "boilerplate.go.txt".toList [120] .empty) <|
      .dir "tree".toList
        (.dir "vendor".toList (.file "m.go".toList [121] .empty) <|
          .file "m.go".toList [120, 10] <| .link "n.go".toList ⟨"m.go".toList⟩ <|
          .file "o.go".toList [121] <| .file "notes.txt".toList [] .empty) <|
      .link "r".toList ⟨"tree".toList⟩ .empty
    wellFormed := by decide +kernel }
  cwd := .on []
  git := none

/-- Of the five files three are checked, and the one that does not pass is told. -/
theorem run_mixedTree :
    ∃ a s b report, Arguments.ofCommandLine ["--rootdir=/r".toList, "-b/b".toList] = .ok a ∧
      a.files = [] ∧ resolveRoot mixedTree a.root = .ok ⟨"/r".toList⟩ ∧
      mixedTree.run a = .ok report ∧ mixedTree.Covers s b report ∧
      report.results = [⟨⟨"/r/m.go".toList⟩, "go".toList, true⟩,
        ⟨⟨"/r/n.go".toList⟩, "go".toList, true⟩, ⟨⟨"/r/o.go".toList⟩, "go".toList, false⟩] ∧
      (mixedTree.execute ["--rootdir=/r".toList, "-b/b".toList]).code = 1 ∧
      (mixedTree.execute ["--rootdir=/r".toList, "-b/b".toList]).printed ≠ [] := by
  have hline : Arguments.ofCommandLine ["--rootdir=/r".toList, "-b/b".toList] =
      .ok ⟨[], none, some ⟨"/r".toList⟩, some ⟨"/b".toList⟩, false, false⟩ := by decide +kernel
  have hnamed : resolveRoot mixedTree (some ⟨"/r".toList⟩) = .ok ⟨"/r".toList⟩ := by
    decide +kernel
  have hrun : mixedTree.run ⟨[], none, some ⟨"/r".toList⟩, some ⟨"/b".toList⟩, false, false⟩ =
      .ok ⟨⟨"/r".toList⟩, [⟨⟨"/r/m.go".toList⟩, "go".toList, true⟩,
        ⟨⟨"/r/n.go".toList⟩, "go".toList, true⟩,
        ⟨⟨"/r/o.go".toList⟩, "go".toList, false⟩]⟩ := by decide +kernel
  obtain ⟨hreport, hending⟩ := run_tree (w := mixedTree)
    (a := ⟨[], none, some ⟨"/r".toList⟩, some ⟨"/b".toList⟩, false, false⟩) rfl hnamed rfl
  obtain ⟨s, b, -, -, -, hcovers⟩ := hreport _ hrun
  have hfailing := (hending _ hline).2.1.2 ⟨_, hrun, _,
    List.mem_cons_of_mem _ (List.mem_cons_of_mem _ List.mem_cons_self), rfl⟩
  exact ⟨_, s, b, _, hline, rfl, hnamed, hrun, hcovers, rfl, hfailing⟩

end World

end HeaderCheck
