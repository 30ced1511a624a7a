import HeaderCheck.Proofs.Verification.Stages

/-! Runs under a forced key beside runs in which every file has its own key. A forced key lets every
path through that is not skipped, so the paths of the other run are among those of the forced one;
and the files whose own key is the forced key are found in both runs with the same results. -/

namespace HeaderCheck

variable {w : World} {s : Settings} {b : Boilerplate} {m : Matcher} {key : Key}
  {forced other : Option Key} {root p : Path} {fragments : List Text} {known : Key → Bool}
  {candidates paths : List Path} {anyYear : Bool} {result : FileResult}

/-- Without a forced key the known keys are picked out of what a forced key lets through. -/
theorem wantedPaths_none (key : Key) (candidates : List Path) :
    wantedPaths root fragments known none candidates =
      (wantedPaths root fragments known (some key) candidates).filter fun p => known p.fileKey := by
  unfold wantedPaths
  rw [List.filter_filter]
  apply List.filter_congr
  intro p _
  simp [Path.isWanted, Bool.and_comm]

namespace World

theorem selectFiles_none (key : Key) (named : List Path) :
    w.selectFiles root named fragments known none =
      (w.selectFiles root named fragments known (some key)).map
        fun paths => paths.filter fun p => known p.fileKey := by
  unfold selectFiles
  split_ifs
  · have hwanted : wantedPaths root fragments known none = fun candidates =>
        (wantedPaths root fragments known (some key) candidates).filter fun p => known p.fileKey :=
      funext (wantedPaths_none key)
    rw [hwanted]
    cases w.filesBelow (fragments.contains ·) root <;> rfl
  · rw [wantedPaths_none key]
    rfl

theorem checkFile_congr (h : p.keyUnder forced = p.keyUnder other) :
    w.checkFile m forced p = w.checkFile m other p := by
  rw [checkFile, checkFile, h]

/-- A file that could be checked under a forced key can be checked under a known key of its own, and
with the same result if the two keys are the same. -/
theorem checkFile_none (h : w.checkFile (b.matcher anyYear) (some key) p = .ok result)
    (hknown : b.references.contains p.fileKey = true) :
    ∃ own, w.checkFile (b.matcher anyYear) none p = .ok own ∧ own.key = p.fileKey ∧
      (p.fileKey = key → own = result) := by
  obtain ⟨bytes, passed, hstat, -, -⟩ := checkFile_eq_ok_iff.1 h
  obtain ⟨reference, hreference⟩ := Option.isSome_iff_exists.1 hknown
  have hverdict := Boilerplate.verdict_of_reference hreference anyYear (Utf8.decodeLossy bytes)
  have hown : w.checkFile (b.matcher anyYear) none p = .ok ⟨p, p.fileKey, _⟩ :=
    checkFile_eq_ok_iff.2 ⟨bytes, _, hstat, hverdict, rfl⟩
  refine ⟨_, hown, rfl, ?_⟩
  intro hkey
  have hsame : p.keyUnder none = p.keyUnder (some key) := hkey
  rw [checkFile_congr hsame, h] at hown
  exact (Except.ok.inj hown).symm

/-- Of the files that could be checked under a forced key, those with a known key of their own can
be checked under that. Where this is the forced key, the results are those of the forced run. -/
theorem checkFiles_none {results : List FileResult} (hkey : b.references.contains key = true)
    (h : w.checkFiles (b.matcher anyYear) (some key) paths = .ok results) :
    ∃ own, w.checkFiles (b.matcher anyYear) none
        (paths.filter fun p => b.references.contains p.fileKey) = .ok own ∧
      own.filter (·.key = key) = results.filter (·.path.fileKey = key) := by
  induction paths generalizing results with
  | nil =>
    cases h
    exact ⟨[], rfl, rfl⟩
  | cons p more ih =>
    obtain ⟨result, hresult, h⟩ := bind_eq_ok_iff.1 h
    obtain ⟨rest, hrest, rfl⟩ := map_eq_ok_iff.1 h
    obtain ⟨owns, howns, hsame⟩ := ih hrest
    have hpath : result.path = p := by
      obtain ⟨bytes, passed, -, -, rfl⟩ := checkFile_eq_ok_iff.1 hresult
      rfl
    rw [List.filter_cons, List.filter_cons, hpath]
    by_cases hknown : b.references.contains p.fileKey = true
    · obtain ⟨own, hown, hownKey, heq⟩ := checkFile_none hresult hknown
      rw [if_pos hknown]
      refine ⟨own :: owns, ?_, ?_⟩
      · rw [checkFiles, hown, Except.bind, howns]
        rfl
      · rw [List.filter_cons, hownKey]
        split_ifs with hforced
        · rw [hsame, heq (of_decide_eq_true hforced)]
        · exact hsame
    · have hne : p.fileKey ≠ key := by
        rintro rfl
        exact hknown hkey
      rw [if_neg hknown, if_neg (by simpa using hne)]
      exact ⟨owns, howns, hsame⟩

/-- If there is a report under a forced key, that key has a reference, and there is a report without
it. The report without it is about those paths of the forced report whose own key has a reference,
so that every path in it is in the forced one; and its results under the forced key are the results
of the forced report for the files whose own key this is. -/
theorem verify_forced {forced : Report} (hnone : s.forcedKey = none)
    (h : w.verify { s with forcedKey := some key } = .ok forced) :
    ∃ b report, loadBoilerplate w s.boilerplateDir = .ok b ∧
      b.references.contains key = true ∧ w.verify s = .ok report ∧
      report.results.filter (·.key = key) = forced.results.filter (·.path.fileKey = key) ∧
      report.results.map (·.path) =
        (forced.results.map (·.path)).filter (fun p => b.references.contains p.fileKey) ∧
      ∀ result ∈ report.results, ∃ other ∈ forced.results, other.path = result.path := by
  obtain ⟨b, paths, hload, hforced, hpaths, -, hresults⟩ := verify_eq_ok_iff.1 h
  have hkey : b.references.contains key = true := hforced key rfl
  obtain ⟨own, hown, hsame⟩ := checkFiles_none hkey hresults
  have hselection : w.selection s b =
      .ok (paths.filter fun p => b.references.contains p.fileKey) := by
    have hselected : w.selectFiles s.root s.files skipFragments b.references.contains (some key) =
        .ok paths := hpaths
    rw [selection, hnone, selectFiles_none key, hselected]
    rfl
  have hreport : w.verify s = .ok ⟨s.root, own⟩ := by
    refine verify_eq_ok_iff.2 ⟨b, _, hload, ?_, hselection, rfl, ?_⟩
    · intro other hother
      rw [hnone] at hother
      cases hother
    · rw [hnone]
      exact hown
  have hmap : own.map (·.path) =
      (forced.results.map (·.path)).filter fun p => b.references.contains p.fileKey := by
    rw [map_path_of_checkFiles hown, map_path_of_checkFiles hresults]
  refine ⟨b, ⟨s.root, own⟩, hload, hkey, hreport, hsame, hmap, ?_⟩
  intro result hresult
  have hmem : result.path ∈ forced.results.map (·.path) := by
    have hown := List.mem_map_of_mem (f := (·.path)) hresult
    rw [hmap] at hown
    exact List.mem_of_mem_filter hown
  exact List.mem_map.1 hmem

/-- A tree with references for `go` and `py`, and a file of a third key. -/
def twoKeysTree : World where
  disk := {
    root := .dir "b".toList
        (.file "boilerplate.go.txt".toList [120] <|
          .file "boilerplate.py.txt".toList [121] .empty) <|
      .dir "r".toList
        (.file "k.go".toList [120] <| .file "l.py".toList [121] <| .file "m.md".toList [] <|
          .file "n.go".toList [121] .empty) .empty
    wellFormed := by decide +kernel }
  cwd := .on []
  git := none

/-- With `go` forced all four files are checked. The results for the two of them that have this key
are those of the run without it, which checks three. -/
theorem verify_twoKeysTree :
    twoKeysTree.verify ⟨⟨"/r".toList⟩, ⟨"/b".toList⟩, some "go".toList, [], false⟩ =
      .ok ⟨⟨"/r".toList⟩, [⟨⟨"/r/k.go".toList⟩, "go".toList, true⟩,
        ⟨⟨"/r/l.py".toList⟩, "go".toList, false⟩, ⟨⟨"/r/m.md".toList⟩, "go".toList, false⟩,
        ⟨⟨"/r/n.go".toList⟩, "go".toList, false⟩]⟩ ∧
    ∃ report, twoKeysTree.verify ⟨⟨"/r".toList⟩, ⟨"/b".toList⟩, none, [], false⟩ = .ok report ∧
      report.results.length = 3 ∧
      report.results.filter (·.key = "go".toList) =
        [⟨⟨"/r/k.go".toList⟩, "go".toList, true⟩, ⟨⟨"/r/n.go".toList⟩, "go".toList, false⟩] := by
  have hforced : twoKeysTree.verify
      ⟨⟨"/r".toList⟩, ⟨"/b".toList⟩, some "go".toList, [], false⟩ =
        .ok ⟨⟨"/r".toList⟩, [⟨⟨"/r/k.go".toList⟩, "go".toList, true⟩,
          ⟨⟨"/r/l.py".toList⟩, "go".toList, false⟩, ⟨⟨"/r/m.md".toList⟩, "go".toList, false⟩,
          ⟨⟨"/r/n.go".toList⟩, "go".toList, false⟩]⟩ := by decide +kernel
  have hload : loadBoilerplate twoKeysTree ⟨"/b".toList⟩ =
      .ok ⟨⟨[("py".toList, [['y']]), ("go".toList, [['x']])]⟩, ⟨[]⟩⟩ := by decide +kernel
  obtain ⟨b, report, hown, -, hreport, hsame, hpaths, -⟩ := verify_forced
    (s := ⟨⟨"/r".toList⟩, ⟨"/b".toList⟩, none, [], false⟩) rfl hforced
  cases hload.symm.trans hown
  refine ⟨hforced, report, hreport, ?_, hsame.trans (by decide +kernel)⟩
  rw [← List.length_map (·.path), hpaths]
  decide +kernel

end World

end HeaderCheck
