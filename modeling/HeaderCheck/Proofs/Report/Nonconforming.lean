import HeaderCheck.Proofs.Path.Components
import HeaderCheck.Proofs.Report
import HeaderCheck.Proofs.Verification.Stages
import Mathlib.Data.List.Perm.Basic

/-! A report tells each failing file once for each time it fails, and no other file. The names it
tells are those of the files as seen from the root: joined to the root they lead to the files again,
so no two files share a name. -/

namespace HeaderCheck.Report

variable {r : Report}

theorem pairwise_nonconforming (r : Report) : r.nonconforming.Pairwise fun p q =>
    p.components = q.components ∨
      List.Lex (fun a b => a.before b = true) p.components q.components := by
  refine (orders_componentsLe.pairwise_sortBy Path.components r.failing).imp ?_
  intro p q h
  exact componentsLe_iff_lex.1 h

/-- The names are those of the failing results, in some order of these. -/
theorem exists_failing (r : Report) : ∃ failing : List FileResult,
    failing.Perm (r.results.filter (!·.passed)) ∧
      r.nonconforming = failing.map fun result => result.path.relativeTo r.root := by
  have hsame : List.Forall₂ (fun q (result : FileResult) => q = result.path.relativeTo r.root)
      r.failing (r.results.filter (!·.passed)) := by
    rw [failing, List.forall₂_map_left_iff]
    exact List.forall₂_same.2 fun _ _ => rfl
  obtain ⟨sorted, hsorted, hperm⟩ :=
    List.perm_comp_forall₂ (sortBy_perm Path.le r.failing) hsame
  refine ⟨sorted, hperm, ?_⟩
  rw [← List.forall₂_eq_eq_eq, List.forall₂_map_right_iff]
  exact hsorted

theorem failureLine_ne_successLine (p : Path) : failureLine p ≠ successLine := by
  intro h
  have hfails : "FAIL: Boilerplate header is wrong for: ".toList.head? = some 'F' := by
    decide +kernel
  have hfailure : (failureLine p).head? = some 'F' := by
    unfold failureLine
    rw [List.head?_append, hfails, Option.some_or]
  have hsuccess : successLine.head? = some 'A' := by decide +kernel
  rw [← h, hfailure] at hsuccess
  exact absurd hsuccess (by decide)

theorem lines_of_not_succeeded (h : r.succeeded = false) :
    r.lines = r.nonconforming.map failureLine := by
  rw [lines, if_neg (by simp [h])]

theorem lines_eq_success_iff : r.lines = [successLine] ↔ r.succeeded = true := by
  cases h : r.succeeded with
  | true => exact iff_of_true (by rw [lines, if_pos h]) rfl
  | false =>
    refine iff_of_false ?_ Bool.false_ne_true
    rw [lines_of_not_succeeded h]
    intro hlines
    obtain ⟨p, -, hp⟩ := List.map_eq_singleton_iff.1 hlines
    exact failureLine_ne_successLine p hp

/-- Every report of a run from an absolute root is one on files at absolute paths. Such a report
tells the files in the order of their components, as many names as there are failing results. Joined
to the root each name leads to the file of its own result, so files of the same name are the same.
The one line of success is printed if nothing fails, and the names otherwise, a line for each. -/
theorem nonconforming_faithful (r : Report) :
    (∀ (w : World) (s : Settings), s.root.isAbsolute = true → w.verify s = .ok r →
      ∀ result ∈ r.results, result.path.isAbsolute = true) ∧
    ((∀ result ∈ r.results, result.path.isAbsolute = true) →
      (r.nonconforming.Pairwise fun p q => p.components = q.components ∨
        List.Lex (fun a b => a.before b = true) p.components q.components) ∧
      r.nonconforming.length = r.results.countP (!·.passed) ∧
      (∃ failing : List FileResult, failing.Perm (r.results.filter (!·.passed)) ∧
        List.Forall₂ (fun q result => q = result.path.relativeTo r.root ∧
          (r.root.join q).components = result.path.components) r.nonconforming failing) ∧
      (∀ a ∈ r.results, ∀ b ∈ r.results, a.passed = false → b.passed = false →
        (a.path.relativeTo r.root).components = (b.path.relativeTo r.root).components →
          a.path.components = b.path.components) ∧
      (r.lines = [successLine] ↔ ∀ result ∈ r.results, result.passed = true) ∧
      ((∃ result ∈ r.results, result.passed = false) →
        r.lines = r.nonconforming.map failureLine)) := by
  refine ⟨fun w s hroot h => World.isAbsolute_of_verify hroot h, ?_⟩
  intro habs
  obtain ⟨failing, hperm, hnames⟩ := r.exists_failing
  refine ⟨r.pairwise_nonconforming, ?_, ⟨failing, hperm, ?_⟩, ?_, ?_, ?_⟩
  · rw [hnames, List.length_map, hperm.length_eq, List.countP_eq_length_filter]
  · rw [hnames, List.forall₂_map_left_iff, List.forall₂_same]
    intro result hresult
    have hmem := (List.mem_filter.1 (hperm.mem_iff.1 hresult)).1
    exact ⟨rfl, Path.components_join_relativeTo (habs result hmem) r.root⟩
  · intro a ha b hb _ _ h
    exact Path.components_eq_of_relativeTo (habs a ha) (habs b hb) h
  · rw [lines_eq_success_iff, succeeded_iff]
  · intro h
    exact lines_of_not_succeeded (not_succeeded_iff.2 h)

/-- A root beside a directory with a name that begins like that of the root. -/
def scatteredTree : World where
  disk := {
    root := .dir "b".toList (.file "boilerplate.py.txt".toList [120] .empty) <|
      .dir "repo".toList
        (.dir "a".toList (.file "b.py".toList [121] .empty) <|
          .file "a-b.py".toList [121] <| .file "ok.py".toList [120] .empty) <|
      .dir "repo-x".toList (.file "c.py".toList [121] .empty) .empty
    wellFormed := by decide +kernel }
  cwd := .on []
  git := none

/-- Files below the root and outside of it, one of them named twice and in two spellings. -/
def scatteredSettings : Settings where
  root := ⟨"/repo/.".toList⟩
  boilerplateDir := ⟨"/b".toList⟩
  forcedKey := none
  files := [⟨"/repo/a/b.py".toList⟩, ⟨"/repo-x/c.py".toList⟩, ⟨"a-b.py".toList⟩,
    ⟨"/repo//./a/b.py".toList⟩, ⟨"ok.py".toList⟩]
  anyYear := false

def scatteredReport : Report where
  root := ⟨"/repo/.".toList⟩
  results := [⟨⟨"/repo/a/b.py".toList⟩, "py".toList, false⟩,
    ⟨⟨"/repo-x/c.py".toList⟩, "py".toList, false⟩,
    ⟨⟨"/repo/./a-b.py".toList⟩, "py".toList, false⟩,
    ⟨⟨"/repo//./a/b.py".toList⟩, "py".toList, false⟩,
    ⟨⟨"/repo/./ok.py".toList⟩, "py".toList, true⟩]

theorem nonconforming_scatteredReport :
    scatteredTree.verify scatteredSettings = .ok scatteredReport ∧
    scatteredReport.nonconforming = ["/repo-x/c.py", "a/b.py", "a/b.py", "a-b.py"].map
      (fun text => ⟨text.toList⟩) ∧
    scatteredReport.nonconforming.length = 4 ∧
    (∀ a ∈ scatteredReport.results, ∀ b ∈ scatteredReport.results,
      a.passed = false → b.passed = false →
      (a.path.relativeTo scatteredReport.root).components =
        (b.path.relativeTo scatteredReport.root).components →
          a.path.components = b.path.components) := by
  have hrun : scatteredTree.verify scatteredSettings = .ok scatteredReport := by
    decide +kernel
  obtain ⟨hverify, hfaithful⟩ := nonconforming_faithful scatteredReport
  have habs := hverify scatteredTree scatteredSettings rfl hrun
  obtain ⟨-, hlength, -, hinj, -⟩ := hfaithful habs
  have hcount : scatteredReport.results.countP (!·.passed) = 4 := by decide +kernel
  exact ⟨hrun, by decide +kernel, hlength.trans hcount, hinj⟩

end HeaderCheck.Report
