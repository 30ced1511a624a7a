import HeaderCheck.Proofs.Path.Relative
import HeaderCheck.Proofs.Selection.Ways
import HeaderCheck.Proofs.Verification.Named

/-! Naming files that a run over the whole tree has reported. The walk builds the paths of files
name by name, and a named file is joined to the root at once; both come to the same path, so that
the run over the named files repeats the results it is asked for. -/

namespace HeaderCheck

variable {w : World} {s : Settings} {b : Boilerplate} {inside : Listing} {p : Path}
  {paths : List Path} {bytes : Bytes}

namespace World

/-- What the walk of a directory selects is on a way of names from the directory. -/
theorem exists_way_of_mem_selection (habs : s.root.isAbsolute = true)
    (hdir : w.stat s.root = .ok (.dir inside)) (hfiles : s.files = [])
    (hpaths : w.selection s b = .ok paths) (hp : p ∈ paths)
    (hread : w.stat p = .ok (.file bytes)) :
    ∃ way, way ≠ [] ∧ (∀ name ∈ way, isName name = true) ∧ p = s.root.below way := by
  rw [selection, hfiles] at hpaths
  obtain ⟨⟨node, hentry, -⟩, -⟩ := (mem_selectFiles_tree_iff habs hpaths).1 hp
  rcases hentry with ⟨rfl, -⟩ | ⟨listing, hlisting, hbelow⟩
  · cases hdir.symm.trans hread
  · obtain ⟨way, hway, rfl, -⟩ := hbelow.exists_way (wellFormed_of_stat hlisting)
    refine ⟨way, ?_, hway, rfl⟩
    rintro rfl
    cases hdir.symm.trans hread

/-- The path of a selected file and its path relative to the root name the same file. -/
theorem join_of_mem_selection {q : Path} (habs : s.root.isAbsolute = true)
    (hdir : w.stat s.root = .ok (.dir inside)) (hfiles : s.files = [])
    (hpaths : w.selection s b = .ok paths) (hp : p ∈ paths)
    (hread : w.stat p = .ok (.file bytes)) (hq : q = p ∨ q = p.relativeTo s.root) :
    s.root.join q = p := by
  obtain ⟨way, hne, hway, rfl⟩ :=
    exists_way_of_mem_selection habs hdir hfiles hpaths hp hread
  rcases hq with rfl | rfl
  · apply Path.join_of_isAbsolute
    rw [Path.isAbsolute_below (usable_of_stat hdir).ne_nil (slash_notMem_of_forall_isName hway)]
    exact habs
  · rw [Path.relativeTo_below habs hne hway, Path.join_ofWay hne hway]

/-- Whatever files of the report of a whole tree are named, as they are reported or relative to the
root, the run over them gives their results again, in the order in which they are named. -/
theorem verify_reported {report : Report} {chosen : List FileResult} {named : List Path}
    (habs : s.root.isAbsolute = true) (hdir : w.stat s.root = .ok (.dir inside))
    (hfiles : s.files = []) (hwhole : w.verify s = .ok report) (hne : chosen ≠ [])
    (hnamed : List.Forall₂ (fun result p => result ∈ report.results ∧
      (p = result.path ∨ p = result.path.relativeTo s.root)) chosen named) :
    w.verify (s.apply (.files named)) = .ok ⟨s.root, chosen⟩ := by
  obtain ⟨b, paths, hload, hforced, hpaths, -, hresults⟩ := verify_eq_ok_iff.1 hwhole
  have hmap := map_path_of_checkFiles hresults
  have hnamedNe : named ≠ [] := by
    rintro rfl
    exact hne (List.forall₂_nil_right_iff.1 hnamed)
  have hchosen := ((List.forall₂_and_left _ _).1 hnamed).1
  have hjoin : List.Forall₂ (fun p q => p = q) (named.map s.root.join) (chosen.map (·.path)) := by
    rw [List.forall₂_map_left_iff, List.forall₂_map_right_iff]
    apply (hnamed.imp _).flip
    intro result p hp
    obtain ⟨hresult, hspelled⟩ := hp
    obtain ⟨bytes, -, hread, -⟩ := checkFile_eq_ok_iff.1 (checkFile_of_mem hresults hresult)
    have hmem : result.path ∈ paths := hmap ▸ List.mem_map_of_mem hresult
    exact join_of_mem_selection habs hdir hfiles hpaths hmem hread hspelled
  rw [List.forall₂_eq_eq_eq] at hjoin
  have hwanted : wantedPaths s.root skipFragments b.references.contains s.forcedKey named =
      chosen.map (·.path) := by
    rw [wantedPaths, hjoin, List.filter_eq_self]
    intro p hp
    obtain ⟨result, hresult, rfl⟩ := List.mem_map.1 hp
    apply isWanted_of_mem_selectFiles hpaths
    rw [← hmap]
    exact List.mem_map_of_mem (hchosen result hresult)
  refine verify_eq_ok_iff.2 ⟨b, chosen.map (·.path), hload, hforced, ?_, rfl, ?_⟩
  · rw [selection_files hnamedNe, hwanted]
  · rw [checkFiles_eq_ok_iff, List.forall₂_map_left_iff, List.forall₂_same]
    intro result hresult
    exact checkFile_of_mem hresults (hchosen result hresult)

/-- A tree behind a link, with a file below a directory and a link to it. -/
def nestedTree : World where
  disk := {
    root := .dir "b".toList (.file "boilerplate.go.txt".toList [120] .empty) <|
      .dir "tree".toList
        (.dir "a".toList (.file "m.go".toList [121] .empty) <|
          .link "n.go".toList ⟨"a/m.go".toList⟩ <| .file "o.go".toList [120] .empty) <|
      .link "r".toList ⟨"tree".toList⟩ .empty
    wellFormed := by decide +kernel }
  cwd := .on []
  git := none

/-- Of the three files there two are named, one of them twice, as reported and relative to a root
that ends in a step to itself. -/
theorem verify_nestedTree :
    nestedTree.verify ⟨⟨"/r/.".toList⟩, ⟨"/b".toList⟩, none, [], false⟩ =
      .ok ⟨⟨"/r/.".toList⟩, [⟨⟨"/r/./a/m.go".toList⟩, "go".toList, false⟩,
        ⟨⟨"/r/./n.go".toList⟩, "go".toList, false⟩,
        ⟨⟨"/r/./o.go".toList⟩, "go".toList, true⟩]⟩ ∧
    nestedTree.verify (Settings.apply ⟨⟨"/r/.".toList⟩, ⟨"/b".toList⟩, none, [], false⟩
        (.files [⟨"o.go".toList⟩, ⟨"/r/./a/m.go".toList⟩, ⟨"/r/./o.go".toList⟩])) =
      .ok ⟨⟨"/r/.".toList⟩, [⟨⟨"/r/./o.go".toList⟩, "go".toList, true⟩,
        ⟨⟨"/r/./a/m.go".toList⟩, "go".toList, false⟩,
        ⟨⟨"/r/./o.go".toList⟩, "go".toList, true⟩]⟩ := by
  have hwhole : nestedTree.verify ⟨⟨"/r/.".toList⟩, ⟨"/b".toList⟩, none, [], false⟩ =
      .ok ⟨⟨"/r/.".toList⟩, [⟨⟨"/r/./a/m.go".toList⟩, "go".toList, false⟩,
        ⟨⟨"/r/./n.go".toList⟩, "go".toList, false⟩,
        ⟨⟨"/r/./o.go".toList⟩, "go".toList, true⟩]⟩ := by decide +kernel
  have hdir : nestedTree.stat ⟨"/r/.".toList⟩ = .ok (.dir
      (.dir "a".toList (.file "m.go".toList [121] .empty) <|
        .link "n.go".toList ⟨"a/m.go".toList⟩ <| .file "o.go".toList [120] .empty)) := by
    decide +kernel
  refine ⟨hwhole, verify_reported rfl hdir rfl hwhole (List.cons_ne_nil _ _) ?_⟩
  refine .cons ⟨by simp, Or.inr ?_⟩ (.cons ⟨by simp, Or.inl rfl⟩
    (.cons ⟨by simp, Or.inl rfl⟩ .nil))
  decide +kernel

end World

end HeaderCheck
