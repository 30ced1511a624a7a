import HeaderCheck.Proofs.Boilerplate.Scan
import HeaderCheck.Proofs.Selection.Ways

/-! Pruning saves work and changes nothing. The walk leaves out directories whose name is a skip
fragment; every file in such a directory has the name in its path, so it would be skipped when the
paths are filtered. -/

namespace HeaderCheck

variable {w : World} {root dir p q : Path} {l inside : Listing} {way : List Text}
  {pruned : Text → Bool} {isFile keep : List Text → Bool} {fragments : List Text}
  {known : Key → Bool} {forced : Option Key}

/-- A filter that keeps no file with a pruned name on its way keeps the same files, in the same
order, of the whole tree and of the pruned one. -/
theorem Listing.filter_fileWays (hwf : l.WellFormed)
    (hkeep : ∀ way, (∀ name ∈ way, isName name = true) → (∃ name ∈ way, pruned name = true) →
      keep way = false) :
    (l.fileWays pruned isFile).filter keep = (l.fileWays (fun _ => false) isFile).filter keep := by
  induction l generalizing isFile keep with
  | empty => rfl
  | file name bytes rest ih =>
    rw [fileWays, fileWays, List.filter_cons, List.filter_cons, ih hwf.2.2 hkeep]
  | link name target rest ih =>
    rw [fileWays, fileWays]
    split_ifs with hfile
    · rw [List.filter_cons, List.filter_cons, ih hwf.2.2 hkeep]
    · exact ih hwf.2.2 hkeep
  | dir name inside rest ihInside ihRest =>
    have hrest : (rest.fileWays pruned isFile).filter keep =
        (rest.fileWays (fun _ => false) isFile).filter keep := ihRest hwf.2.2.2 hkeep
    rw [fileWays, fileWays, if_neg Bool.false_ne_true, List.filter_append, List.filter_map]
    by_cases hpruned : pruned name = true
    · -- nothing is kept of what is in the directory
      have hnone : (inside.fileWays (fun _ => false) fun way => isFile (name :: way)).filter
          (keep ∘ (name :: ·)) = [] := by
        rw [List.filter_eq_nil_iff]
        intro way hway
        have hnames := (isName_of_mem_fileWays hwf.2.2.1 hway).2
        exact Bool.eq_false_iff.1 (hkeep (name :: way) (List.forall_mem_cons.2 ⟨hwf.1, hnames⟩)
          ⟨name, List.mem_cons_self, hpruned⟩)
      rw [if_pos hpruned, hnone, hrest, List.map_nil, List.nil_append]
    · have hinside : (inside.fileWays pruned fun way => isFile (name :: way)).filter
            (keep ∘ (name :: ·)) =
          (inside.fileWays (fun _ => false) fun way => isFile (name :: way)).filter
            (keep ∘ (name :: ·)) := by
        refine ihInside hwf.2.2.1 fun way hnames hmem => ?_
        obtain ⟨other, hother, hprunedOther⟩ := hmem
        exact hkeep (name :: way) (List.forall_mem_cons.2 ⟨hwf.1, hnames⟩)
          ⟨other, List.mem_cons_of_mem _ hother, hprunedOther⟩
      rw [if_neg hpruned, List.filter_append, List.filter_map, hinside, hrest]

theorem Path.suffix_join (p q : Path) : q.text <:+ (p.join q).text := by
  by_cases hq : q.isAbsolute = true
  · exact (congrArg text (join_of_isAbsolute hq)).symm ▸ List.suffix_rfl
  · rw [text_join (Bool.not_eq_true _ ▸ hq)]
    exact List.suffix_append _ _

/-- A name that is also a fragment stands in the path of whatever is on the way behind it. -/
theorem Path.isWanted_of_fragment_mem (hway : ∀ name ∈ way, isName name = true)
    (h : ∃ name ∈ way, fragments.contains name = true) :
    (q.join (dir.below way)).isWanted fragments known forced = false := by
  obtain ⟨name, hmem, hfragment⟩ := h
  have hname := hway name hmem
  have hbelow : name <:+: (dir.below way).text :=
    (infix_below_iff (ne_nil_of_isName hname) (slash_notMem_of_isName hname)
      (slash_notMem_of_forall_isName hway) dir).2 (Or.inr ⟨name, hmem, List.infix_rfl⟩)
  refine Bool.eq_false_iff.2 fun hwanted => ?_
  exact (isWanted_iff.1 hwanted).1 name (by simpa using hfragment)
    (hbelow.trans (suffix_join _ _).isInfix)

theorem wantedPaths_map_below (ways : List (List Text)) :
    wantedPaths root fragments known forced (ways.map dir.below) =
      (ways.filter fun way => (root.join (dir.below way)).isWanted fragments known forced).map
        fun way => root.join (dir.below way) := by
  rw [wantedPaths, List.map_map, List.filter_map]
  rfl

/-- No directory is found at an entry that is none. -/
theorem EntryBelow.dir_behind {sub : Listing} (name : Text) (first : Node)
    (hfirst : ∀ inside, first ≠ .dir inside)
    (h : EntryBelow dir (.cons name first l) p (.dir sub)) : EntryBelow dir l p (.dir sub) := by
  rcases (cons_iff name first).1 h with ⟨-, rfl⟩ | ⟨inside, rfl, -⟩ | h
  · exact absurd rfl (hfirst sub)
  · exact absurd rfl (hfirst inside)
  · exact h

namespace World

theorem filesBelow_of_link {target : Path} (h : w.linkStat root = .ok (.link target)) :
    w.filesBelow pruned root = match w.stat root with
      | .error fault => .error (.walk root fault)
      | .ok (.dir inside) => w.filesIn pruned root inside
      | .ok _ => .ok [root] := by
  unfold filesBelow
  exact h ▸ rfl

/-- A root that is no directory is listed alone or is an error, whatever is pruned. -/
theorem filesBelow_of_not_dir (h : ∀ inside, w.stat root ≠ .ok (.dir inside)) :
    (∃ node, w.stat root = .ok node ∧ ∀ pruned, w.filesBelow pruned root = .ok [root]) ∨
      (∀ node, w.stat root ≠ .ok node) ∧
        ∃ fault, ∀ pruned, w.filesBelow pruned root = .error (.walk root fault) := by
  rcases hlink : w.linkStat root with fault | (bytes | target | inside)
  · refine Or.inr ⟨fun node hstat => ?_, fault, fun pruned => by rw [filesBelow, hlink]⟩
    obtain ⟨found, hfound⟩ := exists_linkStat_of_stat hstat
    rw [hlink] at hfound
    cases hfound
  · exact Or.inl ⟨_, stat_of_linkStat hlink (by simp), fun pruned => by rw [filesBelow, hlink]⟩
  · rcases hstat : w.stat root with fault | (bytes | target | inside)
    · refine Or.inr ⟨fun node hnode => ?_, fault, fun pruned => ?_⟩
      · cases hnode
      · rw [filesBelow_of_link hlink, hstat]
    · exact Or.inl ⟨_, rfl, fun pruned => by rw [filesBelow_of_link hlink, hstat]⟩
    · exact Or.inl ⟨_, rfl, fun pruned => by rw [filesBelow_of_link hlink, hstat]⟩
    · exact absurd hstat (h inside)
  · exact absurd (stat_of_linkStat hlink (by simp)) (h inside)

/-- In a tree whose directories can all be read, the walk of the root lists its files. -/
theorem filesBelow_of_readable (hstat : w.stat root = .ok (.dir inside))
    (hread : ∀ p sub, w.EntryAt root p (.dir sub) → ∃ listing, w.readDir p = .ok listing) :
    w.filesBelow pruned root =
      .ok ((inside.fileWays pruned fun way => w.isFile (root.below way)).map root.below) := by
  rw [filesBelow_of_dir hstat]
  refine filesIn_eq_ok_of_dirs fun p sub hp => ?_
  obtain ⟨listing, hlisting⟩ := hread p sub (Or.inr ⟨inside, hstat, hp⟩)
  exact (usable_of_stat (readDir_eq_ok_iff.1 hlisting)).short

/-- Where all directories can be read, the pruned walk selects what a walk of the whole tree would,
in the same order, and it fails only where there is nothing at the root. -/
theorem selectFiles_eq_unpruned
    (hread : ∀ p sub, w.EntryAt root p (.dir sub) → ∃ listing, w.readDir p = .ok listing) :
    w.selectFiles root [] fragments known forced =
        (w.filesBelow (fun _ => false) root).map (wantedPaths root fragments known forced) ∧
      ((∃ paths, w.selectFiles root [] fragments known forced = .ok paths) ↔
        ∃ node, w.stat root = .ok node) := by
  rw [selectFiles, if_pos rfl]
  by_cases hdir : ∃ inside, w.stat root = .ok (.dir inside)
  · obtain ⟨inside, hstat⟩ := hdir
    rw [filesBelow_of_readable hstat hread, filesBelow_of_readable hstat hread]
    refine ⟨congrArg Except.ok ?_, iff_of_true ⟨_, rfl⟩ ⟨_, hstat⟩⟩
    rw [wantedPaths_map_below, wantedPaths_map_below]
    exact congrArg (List.map _) (Listing.filter_fileWays (wellFormed_of_stat hstat)
      fun way hway => Path.isWanted_of_fragment_mem hway)
  · rcases filesBelow_of_not_dir (not_exists.1 hdir) with
      ⟨node, hstat, hfiles⟩ | ⟨hnone, fault, hfiles⟩
    · rw [hfiles, hfiles]
      exact ⟨rfl, iff_of_true ⟨_, rfl⟩ ⟨node, hstat⟩⟩
    · rw [hfiles, hfiles]
      refine ⟨rfl, iff_of_false (fun h => ?_) (not_exists.2 hnone)⟩
      obtain ⟨_, h⟩ := h
      cases h

/-- A directory with a pruned name, a link to the file in it, and a file with the name in its
own. -/
def prunedTree : World where
  disk := {
    root := .dir "r".toList
      (.dir "vendor".toList (.file "m.go".toList [120] .empty) <|
        .link "l.go".toList ⟨"vendor/m.go".toList⟩ <| .file "vendor.go".toList [] .empty) .empty
    wellFormed := by decide +kernel }
  cwd := .on []
  git := none

/-- The walk leaves out the directory, and the filter the file whose name holds that of the
directory. -/
theorem selectFiles_prunedTree :
    prunedTree.selectFiles ⟨"/r".toList⟩ [] ["vendor".toList] (· = "go".toList) none =
        .ok [⟨"/r/l.go".toList⟩] ∧
      (prunedTree.filesBelow (fun _ => false) ⟨"/r".toList⟩).map
          (wantedPaths ⟨"/r".toList⟩ ["vendor".toList] (· = "go".toList) none) =
        .ok [⟨"/r/l.go".toList⟩] := by
  have hdir : prunedTree.stat ⟨"/r".toList⟩ = .ok (.dir
      (.dir "vendor".toList (.file "m.go".toList [120] .empty) <|
        .link "l.go".toList ⟨"vendor/m.go".toList⟩ <| .file "vendor.go".toList [] .empty)) := by
    decide +kernel
  have hread : ∀ p sub, prunedTree.EntryAt ⟨"/r".toList⟩ p (.dir sub) →
      ∃ listing, prunedTree.readDir p = .ok listing := by
    rintro p sub (⟨rfl, -⟩ | ⟨inside, hstat, h⟩)
    · exact ⟨_, readDir_eq_ok_iff.2 hdir⟩
    cases hdir.symm.trans hstat
    rcases (EntryBelow.cons_iff "vendor".toList (.dir _)).1 h with
      ⟨rfl, -⟩ | ⟨_, hvendor, h⟩ | h
    · exact ⟨.file "m.go".toList [120] .empty, by decide +kernel⟩
    · cases hvendor
      have hnone := EntryBelow.dir_behind "m.go".toList (.file [120]) (by simp) h
      exact absurd hnone EntryBelow.not_empty
    · have hbehind :=
        EntryBelow.dir_behind "l.go".toList (.link ⟨"vendor/m.go".toList⟩) (by simp) h
      have hnone := EntryBelow.dir_behind "vendor.go".toList (.file []) (by simp) hbehind
      exact absurd hnone EntryBelow.not_empty
  have hpruned : prunedTree.selectFiles ⟨"/r".toList⟩ [] ["vendor".toList] (· = "go".toList)
      none = .ok [⟨"/r/l.go".toList⟩] := by decide +kernel
  obtain ⟨hsame, -⟩ := selectFiles_eq_unpruned hread
  exact ⟨hpruned, hsame.symm.trans hpruned⟩

end World

end HeaderCheck
