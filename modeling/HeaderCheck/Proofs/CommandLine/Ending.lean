import HeaderCheck.CommandLine.Run
import HeaderCheck.Proofs.Report

/-! How a run ends, told from its report. Success and failure of the check, and failure of the run
itself, can be told apart by the exit code and what is printed. -/

namespace HeaderCheck

namespace Report

variable {r : Report}

theorem ending_of_succeeded (h : r.succeeded = true) : r.ending = ⟨0, successLine ++ ['\n']⟩ := by
  rw [ending, lines, if_pos h, if_pos h, List.flatMap_singleton]

/-- One line for each failing result. -/
def failureLines (r : Report) : List Line :=
  (r.results.filter (!·.passed)).map fun result => failureLine (result.path.relativeTo r.root)

/-- Each failing result has its line, whatever the order of the lines is. -/
theorem ending_of_not_succeeded (h : r.succeeded = false) :
    ∃ fails : List Line, fails.Perm r.failureLines ∧
      fails.flatMap (· ++ ['\n']) ≠ [] ∧ r.ending = ⟨1, fails.flatMap (· ++ ['\n'])⟩ := by
  have hfalse : ¬ r.succeeded = true := by simp [h]
  have hperm := (sortBy_perm Path.le ((r.results.filter (!·.passed)).map fun result =>
    result.path.relativeTo r.root)).map failureLine
  rw [List.map_map] at hperm
  refine ⟨r.nonconforming.map failureLine, hperm, ?_, ?_⟩
  · obtain ⟨result, hmem, hpassed⟩ := not_succeeded_iff.1 h
    have hline := hperm.mem_iff.2 (List.mem_map_of_mem
      (List.mem_filter.2 ⟨hmem, by simp [hpassed]⟩))
    exact List.ne_nil_of_mem (List.mem_flatMap.2
      ⟨_, hline, List.mem_append_right _ (List.mem_singleton_self '\n')⟩)
  · rw [ending, lines, if_neg hfalse, if_neg hfalse]

end Report

namespace World

variable {w : World} {line : List Text} {a : Arguments}

theorem execute_of_run_ok {report : Report} (hline : Arguments.ofCommandLine line = .ok a)
    (h : w.run a = .ok report) : w.execute line = report.ending := by
  simp only [execute, hline, h]

theorem execute_of_run_error {f : StagedFailure} (hline : Arguments.ofCommandLine line = .ok a)
    (h : w.run a = .error f) : w.execute line = ⟨1, []⟩ := by
  simp only [execute, hline, h]

/-- A run ends in one of three ways: it fails and prints nothing, all files pass, or each failing
file has its line. -/
theorem execute_cases (w : World) (hline : Arguments.ofCommandLine line = .ok a) :
    (∃ f, w.run a = .error f ∧ w.execute line = ⟨1, []⟩) ∨
    (∃ report, w.run a = .ok report ∧ (∀ result ∈ report.results, result.passed = true) ∧
      w.execute line = ⟨0, Report.successLine ++ ['\n']⟩) ∨
    ∃ (report : Report) (fails : List Line), w.run a = .ok report ∧
      (∃ result ∈ report.results, result.passed = false) ∧ fails.Perm report.failureLines ∧
      fails.flatMap (· ++ ['\n']) ≠ [] ∧ w.execute line = ⟨1, fails.flatMap (· ++ ['\n'])⟩ := by
  cases hrun : w.run a with
  | error f => exact Or.inl ⟨f, rfl, execute_of_run_error hline hrun⟩
  | ok report =>
    have hexecute := execute_of_run_ok hline hrun
    cases hsucceeded : report.succeeded with
    | true =>
      rw [Report.ending_of_succeeded hsucceeded] at hexecute
      exact Or.inr (Or.inl ⟨report, rfl, Report.succeeded_iff.1 hsucceeded, hexecute⟩)
    | false =>
      obtain ⟨fails, hperm, hne, hending⟩ := Report.ending_of_not_succeeded hsucceeded
      rw [hending] at hexecute
      exact Or.inr (Or.inr ⟨report, fails, rfl, Report.not_succeeded_iff.1 hsucceeded, hperm, hne,
        hexecute⟩)

theorem execute_eq_success_iff (w : World) (hline : Arguments.ofCommandLine line = .ok a) :
    w.execute line = ⟨0, Report.successLine ++ ['\n']⟩ ↔
      ∃ report, w.run a = .ok report ∧ ∀ result ∈ report.results, result.passed = true := by
  rcases execute_cases w hline with ⟨f, hrun, hexecute⟩ | ⟨report, hrun, hpassed, hexecute⟩ |
    ⟨report, fails, hrun, ⟨result, hmem, hfailed⟩, -, -, hexecute⟩
  · simp [hexecute, hrun]
  · exact iff_of_true hexecute ⟨report, hrun, hpassed⟩
  · rw [hexecute, hrun]
    refine iff_of_false (by simp) ?_
    intro h
    obtain ⟨_, heq, hpassed⟩ := h
    cases heq
    exact absurd (hpassed result hmem) (by simp [hfailed])

theorem execute_failing_iff (w : World) (hline : Arguments.ofCommandLine line = .ok a) :
    ((w.execute line).code = 1 ∧ (w.execute line).printed ≠ []) ↔
      ∃ report, w.run a = .ok report ∧ ∃ result ∈ report.results, result.passed = false := by
  rcases execute_cases w hline with ⟨f, hrun, hexecute⟩ | ⟨report, hrun, hpassed, hexecute⟩ |
    ⟨report, fails, hrun, hfailed, -, hne, hexecute⟩
  · simp [hexecute, hrun]
  · rw [hexecute, hrun]
    refine iff_of_false (by simp) ?_
    intro h
    obtain ⟨_, heq, result, hmem, hfailed⟩ := h
    cases heq
    exact absurd (hpassed result hmem) (by simp [hfailed])
  · rw [hexecute]
    exact iff_of_true ⟨rfl, hne⟩ ⟨report, hrun, hfailed⟩

theorem execute_silent_iff (w : World) (hline : Arguments.ofCommandLine line = .ok a) :
    w.execute line = ⟨1, []⟩ ↔ ∃ f, w.run a = .error f := by
  rcases execute_cases w hline with ⟨f, hrun, hexecute⟩ | ⟨report, hrun, -, hexecute⟩ |
    ⟨report, fails, hrun, -, -, hne, hexecute⟩
  · exact iff_of_true hexecute ⟨f, hrun⟩
  · simp [hexecute, hrun]
  · simp [hexecute, hrun, hne]

end World

end HeaderCheck
