import HeaderCheck.Proofs.Header.Assembled
import HeaderCheck.Proofs.Report
import HeaderCheck.Proofs.Verification.Stages

/-! Runs in which any year will do, beside the same runs with exact years. The option is looked at
when two lines are compared and nowhere else, so the two runs select and read the same files and
fail alike, and what passes with exact years passes with any year. -/

namespace HeaderCheck

variable {w : World} {b : Boilerplate} {s : Settings} {forced : Option Key} {paths : List Path}
  {lines reference : List Line} {line expected : Line}

theorem linesAgree_of_exact (h : linesAgree false line expected = true) (anyYear : Bool) :
    linesAgree anyYear line expected = true := by
  have heq : line = expected := by simpa [linesAgree] using h
  rw [heq, linesAgree_self]

theorem startWithLines_of_exact (h : startWithLines false lines reference = true)
    (anyYear : Bool) : startWithLines anyYear lines reference = true := by
  induction reference generalizing lines with
  | nil => rw [startWithLines]
  | cons expected more ih =>
    rcases lines with _ | ⟨line, lines⟩
    · exact absurd h Bool.false_ne_true
    · rw [startWithLines, Bool.and_eq_true] at h ⊢
      exact ⟨linesAgree_of_exact h.1 anyYear, ih h.2⟩

/-- The other result is about the same file under the same key, and it passes if this one does. -/
structure FileResult.RelaxedTo (strict tolerant : FileResult) : Prop where
  path : tolerant.path = strict.path
  key : tolerant.key = strict.key
  passed : strict.passed = true → tolerant.passed = true

/-- There is a verdict with any year where there is one with exact years. -/
theorem Boilerplate.verdict_relaxed (b : Boilerplate) (contents : Text) (key : Key) :
    Alike (fun strict tolerant => strict = true → tolerant = true)
      ((b.matcher false).verdict contents key) ((b.matcher true).verdict contents key) := by
  rw [verdict_matcher, verdict_matcher]
  rcases b.references.get? key with _ | reference
  · exact rfl
  · intro hstrict
    exact startWithLines_of_exact hstrict true

namespace Report

variable {strict tolerant : Report}

theorem failing_sublist (hroot : tolerant.root = strict.root)
    (h : List.Forall₂ FileResult.RelaxedTo strict.results tolerant.results) :
    tolerant.failing.Sublist strict.failing := by
  unfold failing
  rw [hroot]
  generalize strict.results = stricts at h
  generalize tolerant.results = tolerants at h
  induction h with
  | nil => exact List.Sublist.refl _
  | @cons x y xs ys hresult _ ih =>
    rw [List.filter_cons, List.filter_cons]
    split_ifs with hy hx hx
    · rw [List.map_cons, List.map_cons, hresult.path]
      exact ih.cons_cons _
    · have hpassed : y.passed = true := hresult.passed (by simpa using hx)
      rw [hpassed] at hy
      exact absurd hy Bool.false_ne_true
    · exact ih.cons _
    · exact ih

end Report

namespace World

theorem checkFile_relaxed (w : World) (b : Boilerplate) (forced : Option Key) (p : Path) :
    Alike FileResult.RelaxedTo (w.checkFile (b.matcher false) forced p)
      (w.checkFile (b.matcher true) forced p) := by
  unfold checkFile
  apply (Alike.same (w.readSource p)).bind
  rintro contents _ rfl
  apply (b.verdict_relaxed contents _).map
  intro strict tolerant hpassed
  exact ⟨rfl, rfl, hpassed⟩

theorem checkFiles_relaxed (w : World) (b : Boilerplate) (forced : Option Key)
    (paths : List Path) :
    Alike (List.Forall₂ FileResult.RelaxedTo) (w.checkFiles (b.matcher false) forced paths)
      (w.checkFiles (b.matcher true) forced paths) := by
  induction paths with
  | nil => exact List.Forall₂.nil
  | cons p more ih =>
    apply (w.checkFile_relaxed b forced p).bind
    intro strict tolerant hresult
    apply ih.map
    intro stricts tolerants hresults
    exact List.Forall₂.cons hresult hresults

/-- With any year a run fails where it fails with exact years, and as it does there. Otherwise the
two reports have one result for the same file under the same key each, in the same order. What
passes with exact years passes with any year, and the files that fail with any year are told among
those that fail with exact years, in the same order. -/
theorem verify_anyYear (w : World) (s : Settings) :
    Alike (fun strict tolerant => tolerant.root = strict.root ∧
        List.Forall₂ FileResult.RelaxedTo strict.results tolerant.results ∧
        tolerant.nonconforming.Sublist strict.nonconforming)
      (w.verify (s.apply (.anyYear false))) (w.verify (s.apply (.anyYear true))) := by
  unfold verify
  apply (Alike.same (loadBoilerplate w s.boilerplateDir)).bind
  rintro b _ rfl
  apply (Alike.same (requireReference b s.forcedKey)).bind
  rintro _ _ rfl
  apply (Alike.same (w.selection s b)).bind
  rintro paths _ rfl
  apply (w.checkFiles_relaxed b s.forcedKey paths).map
  intro strict tolerant hresults
  exact ⟨rfl, hresults, Report.nonconforming_sublist (Report.failing_sublist rfl hresults)⟩

end World

end HeaderCheck
