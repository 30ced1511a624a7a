import HeaderCheck.Proofs.Report
import HeaderCheck.Proofs.Verification.Stages
import Mathlib.Data.List.Perm.Basic

/-! Runs over named files. What a run finds in a file has nothing to do with the files named before
and after it, so that a run over two lists does what the runs over each of them do, one after
another, and a change of the order of the list is no more than a change of the order of the
results. -/

namespace HeaderCheck

variable {w : World} {s : Settings} {m : Matcher} {b : Boilerplate} {forced : Option Key}
  {root : Path} {fragments : List Text} {known : Key → Bool} {first more named other : List Path}
  {report : Report}

theorem wantedPaths_append : wantedPaths root fragments known forced (first ++ more) =
    wantedPaths root fragments known forced first ++
      wantedPaths root fragments known forced more := by
  unfold wantedPaths
  rw [List.map_append, List.filter_append]

theorem wantedPaths_perm (h : named.Perm other) :
    (wantedPaths root fragments known forced named).Perm
      (wantedPaths root fragments known forced other) := by
  unfold wantedPaths
  exact (h.map _).filter _

namespace World

/-- Checking goes on with the second list when all of the first could be read. -/
theorem checkFiles_append (w : World) (m : Matcher) (forced : Option Key)
    (first more : List Path) : w.checkFiles m forced (first ++ more) =
      (w.checkFiles m forced first).bind fun results =>
        (w.checkFiles m forced more).map (results ++ ·) := by
  induction first with
  | nil =>
    rw [List.nil_append, checkFiles]
    cases w.checkFiles m forced more <;> rfl
  | cons p rest ih =>
    rw [List.cons_append, checkFiles, checkFiles, ih]
    cases w.checkFile m forced p with
    | error failure => rfl
    | ok result =>
      cases w.checkFiles m forced rest with
      | error failure => rfl
      | ok results => cases w.checkFiles m forced more <;> rfl

/-- Files that are checked in another order give the same results in that order. -/
theorem checkFiles_perm {results : List FileResult} (h : named.Perm other)
    (hresults : w.checkFiles m forced named = .ok results) :
    ∃ changed, w.checkFiles m forced other = .ok changed ∧ results.Perm changed := by
  rw [checkFiles_eq_ok_iff] at hresults
  obtain ⟨changed, hchanged, hperm⟩ := List.perm_comp_forall₂ h.symm hresults
  exact ⟨changed, checkFiles_eq_ok_iff.2 hchanged, hperm.symm⟩

theorem selection_files (hne : named ≠ []) : w.selection (s.apply (.files named)) b =
    .ok (wantedPaths s.root skipFragments b.references.contains s.forcedKey named) := by
  unfold selection selectFiles
  exact if_neg hne

/-- A run over named files loads, looks at the forced key and reads those that are wanted. -/
theorem verify_files (hne : named ≠ []) : w.verify (s.apply (.files named)) =
    (loadBoilerplate w s.boilerplateDir).bind fun b =>
      (requireReference b s.forcedKey).bind fun _ =>
        (w.checkFiles (b.matcher s.anyYear) s.forcedKey
          (wantedPaths s.root skipFragments b.references.contains s.forcedKey named)).map
            fun results => ⟨s.root, results⟩ := by
  have hselect : ∀ b : Boilerplate, w.selectFiles s.root named skipFragments
      b.references.contains s.forcedKey = .ok _ := fun b => selection_files (s := s) (b := b) hne
  simp only [verify, Settings.apply, hselect]
  rfl

theorem verify_append (hfirst : first ≠ []) (hmore : more ≠ []) :
    w.verify (s.apply (.files (first ++ more))) =
      (w.verify (s.apply (.files first))).bind fun report =>
        (w.verify (s.apply (.files more))).map fun other =>
          ⟨s.root, report.results ++ other.results⟩ := by
  have hboth : first ++ more ≠ [] := List.append_ne_nil_of_left_ne_nil hfirst more
  rw [verify_files hboth, verify_files hfirst, verify_files hmore]
  cases loadBoilerplate w s.boilerplateDir with
  | error failure => rfl
  | ok b =>
    cases hforced : requireReference b s.forcedKey with
    | error failure => simp only [Except.bind, hforced]
    | ok u =>
      simp only [Except.bind, hforced, wantedPaths_append, checkFiles_append]
      -- only reading is left, of the first list and then of the second
      cases w.checkFiles (b.matcher s.anyYear) s.forcedKey
          (wantedPaths s.root skipFragments b.references.contains s.forcedKey first) with
      | error failure => rfl
      | ok results =>
        cases w.checkFiles (b.matcher s.anyYear) s.forcedKey
          (wantedPaths s.root skipFragments b.references.contains s.forcedKey more) <;> rfl

/-- Named in another order, the files give a report as well, and the same of them fail. -/
theorem verify_perm (h : named.Perm other)
    (hreport : w.verify (s.apply (.files named)) = .ok report) :
    ∃ changed, w.verify (s.apply (.files other)) = .ok changed ∧
      report.failing.Perm changed.failing := by
  by_cases hne : named = []
  · rw [hne, List.nil_perm] at h
    subst hne h
    exact ⟨report, hreport, List.Perm.refl _⟩
  · have hother : other ≠ [] := fun hnil => hne (List.perm_nil.1 (hnil ▸ h))
    obtain ⟨b, paths, hload, hforced, hpaths, hroot, hresults⟩ := verify_eq_ok_iff.1 hreport
    rw [selection_files hne] at hpaths
    cases hpaths
    obtain ⟨changed, hchanged, hperm⟩ := checkFiles_perm (wantedPaths_perm h) hresults
    refine ⟨⟨s.root, changed⟩, verify_eq_ok_iff.2
      ⟨b, _, hload, hforced, selection_files hother, rfl, hchanged⟩, ?_⟩
    apply Report.failing_perm
    rw [hroot]
    exact hperm.map _

/-- A run over two lists of named files is the run over the first and then that over the second,
with the first failure of the two and otherwise with the results of both. In whatever order files
are named, there is a report or there is none. The report says the same of success and names the
same files; only spellings of one path may change places in it, and with them their lines. -/
theorem verify_named (w : World) (s : Settings) :
    (∀ first more : List Path, first ≠ [] → more ≠ [] →
      w.verify (s.apply (.files (first ++ more))) =
        (w.verify (s.apply (.files first))).bind fun report =>
          (w.verify (s.apply (.files more))).map fun other =>
            ⟨s.root, report.results ++ other.results⟩) ∧
    ∀ named other : List Path, named.Perm other →
      ((∃ report, w.verify (s.apply (.files named)) = .ok report) ↔
        ∃ report, w.verify (s.apply (.files other)) = .ok report) ∧
      ∀ report changed, w.verify (s.apply (.files named)) = .ok report →
        w.verify (s.apply (.files other)) = .ok changed →
          report.succeeded = changed.succeeded ∧
          List.Forall₂ (fun p q => p.components = q.components) report.nonconforming
            changed.nonconforming ∧
          report.lines.Perm changed.lines := by
  refine ⟨fun first more => verify_append, fun named other hperm => ⟨⟨?_, ?_⟩, ?_⟩⟩
  · rintro ⟨report, hreport⟩
    obtain ⟨changed, hchanged, -⟩ := verify_perm hperm hreport
    exact ⟨changed, hchanged⟩
  · rintro ⟨report, hreport⟩
    obtain ⟨changed, hchanged, -⟩ := verify_perm hperm.symm hreport
    exact ⟨changed, hchanged⟩
  · intro report changed hreport hchanged
    obtain ⟨found, hfound, hfailing⟩ := verify_perm hperm hreport
    cases hchanged.symm.trans hfound
    exact ⟨Report.succeeded_eq hfailing, Report.forall₂_nonconforming hfailing,
      Report.lines_perm hfailing⟩

/-- A tree with one reference, a file that passes and one that does not. -/
def passAndFailTree : World where
  disk := {
    root := .dir "a".toList (.file "n.go".toList [121] .empty) <|
      .dir "b".toList (.file "boilerplate.go.txt".toList [120] .empty) <|
      .file "m.go".toList [120] .empty
    wellFormed := by decide +kernel }
  cwd := .on []
  git := none

/-- One file is named there under two spellings, with the other between them. Named the other way
round, the spellings change places in the list of files that do not conform. -/
theorem verify_passAndFailTree :
    (∃ report changed,
      passAndFailTree.verify (Settings.apply ⟨⟨['/']⟩, ⟨"/b".toList⟩, none, [], false⟩
        (.files [⟨"a/n.go".toList⟩, ⟨"m.go".toList⟩, ⟨"a/./n.go".toList⟩])) = .ok report ∧
      passAndFailTree.verify (Settings.apply ⟨⟨['/']⟩, ⟨"/b".toList⟩, none, [], false⟩
        (.files [⟨"a/./n.go".toList⟩, ⟨"m.go".toList⟩, ⟨"a/n.go".toList⟩])) = .ok changed ∧
      report.nonconforming = [⟨"a/n.go".toList⟩, ⟨"a/./n.go".toList⟩] ∧
      changed.nonconforming = [⟨"a/./n.go".toList⟩, ⟨"a/n.go".toList⟩] ∧
      report.lines.Perm changed.lines) ∧
    passAndFailTree.verify (Settings.apply ⟨⟨['/']⟩, ⟨"/b".toList⟩, none, [], false⟩
        (.files ([⟨"m.go".toList⟩] ++ [⟨"c.go".toList⟩, ⟨"d.go".toList⟩]))) =
      .error (.onDisk .readFile ⟨"/c.go".toList⟩ .missing) := by
  have hreport : passAndFailTree.verify (Settings.apply ⟨⟨['/']⟩, ⟨"/b".toList⟩, none, [], false⟩
      (.files [⟨"a/n.go".toList⟩, ⟨"m.go".toList⟩, ⟨"a/./n.go".toList⟩])) =
      .ok ⟨⟨['/']⟩, [⟨⟨"/a/n.go".toList⟩, "go".toList, false⟩,
        ⟨⟨"/m.go".toList⟩, "go".toList, true⟩, ⟨⟨"/a/./n.go".toList⟩, "go".toList, false⟩]⟩ := by
    decide +kernel
  have hchanged : passAndFailTree.verify (Settings.apply ⟨⟨['/']⟩, ⟨"/b".toList⟩, none, [], false⟩
      (.files [⟨"a/./n.go".toList⟩, ⟨"m.go".toList⟩, ⟨"a/n.go".toList⟩])) =
      .ok ⟨⟨['/']⟩, [⟨⟨"/a/./n.go".toList⟩, "go".toList, false⟩,
        ⟨⟨"/m.go".toList⟩, "go".toList, true⟩, ⟨⟨"/a/n.go".toList⟩, "go".toList, false⟩]⟩ := by
    decide +kernel
  obtain ⟨happend, hperm⟩ :=
    verify_named passAndFailTree ⟨⟨['/']⟩, ⟨"/b".toList⟩, none, [], false⟩
  refine ⟨⟨_, _, hreport, hchanged, by decide +kernel, by decide +kernel, ?_⟩, ?_⟩
  · exact ((hperm _ _ (by decide +kernel)).2 _ _ hreport hchanged).2.2
  · rw [happend _ _ (by simp) (by simp)]
    decide +kernel

end World

end HeaderCheck
