import HeaderCheck.Proofs.Selection.Ways
import HeaderCheck.Proofs.WholeTree

/-! A relative root against the absolute spelling of it. The walk finds the same files from both,
and the same of them are wanted. But every path that the walk finds is resolved against the root
once more: from an absolute root that changes nothing, while from a relative root what is read in
the end has the root in its path twice. -/

namespace HeaderCheck

/-- Where resolving against the root moves the walked directory, the ways in it stay the same. -/
theorem wantedPaths_below (moved : Path) {root dir : Path} {fragments : List Text}
    {known : Key → Bool} {forced : Option Key} {ways : List (List Text)}
    (hmoved : ∀ way ∈ ways, root.join (dir.below way) = moved.below way) :
    wantedPaths root fragments known forced (ways.map dir.below) =
      (ways.filter fun way =>
        (moved.below way).isWanted fragments known forced).map moved.below := by
  have hmap : (ways.map dir.below).map root.join = ways.map moved.below := by
    rw [List.map_map]
    exact List.map_congr_left hmoved
  rw [wantedPaths, hmap, List.filter_map]
  rfl

theorem kept_join_iff {q : Path} (hq : q.isAbsolute = false) (p : Path) :
    (∀ fragment ∈ skipFragments, ¬ fragment <:+: (p.join q).text) ↔
      (∀ fragment ∈ skipFragments, ¬ fragment <:+: p.text) ∧
        ∀ fragment ∈ skipFragments, ¬ fragment <:+: q.text := by
  rw [← forall₂_and]
  refine forall₂_congr fun fragment hmem => ?_
  obtain ⟨hne, hslash⟩ := skipFragments_plain fragment hmem
  rw [Path.infix_join_iff hne hslash hq, not_or]

namespace World

variable {w : World} {loc : Location} {here inside : Listing} {r : Path} {b : Boilerplate}
  {way : List Text} {pruned : Text → Bool} {node : Node}

theorem isFile_congr {p q : Path} (h : ∀ node, w.stat p = .ok node ↔ w.stat q = .ok node) :
    w.isFile p = w.isFile q := by
  have hfile : ∀ p, w.isFile p = true ↔ ∃ bytes, w.stat p = .ok (.file bytes) := by
    intro p
    rw [isFile]
    rcases w.stat p with fault | (bytes | target | inside) <;> simp
  rw [Bool.eq_iff_iff, hfile, hfile]
  exact exists_congr fun bytes => h (.file bytes)

/-- The ways on which a run over the whole tree at the root finds what it wants. -/
def wantedWays (w : World) (root : Path) (inside : Listing) (known : Key → Bool) :
    List (List Text) :=
  (inside.fileWays (skipFragments.contains ·) fun way => w.isFile (root.below way)).filter
    fun way => (root.below way).isWanted skipFragments known none

theorem isName_of_mem_wantedWays {root : Path} {known : Key → Bool} (hwf : inside.WellFormed)
    (hway : way ∈ w.wantedWays root inside known) :
    way ≠ [] ∧ ∀ name ∈ way, isName name = true :=
  Listing.isName_of_mem_fileWays hwf (List.mem_filter.1 hway).1

/-- A run over the whole tree at the root selects what is on these ways, from the directory to which
resolving against the root moves it. -/
theorem selection_ofRoot_eq_ok (moved : Path) {root : Path} (h : w.stat root = .ok (.dir inside))
    (hshort : ∀ p node, EntryBelow root inside p node → Utf8.size p.text < Disk.pathLimit)
    (hmoved : ∀ way, (∀ name ∈ way, isName name = true) →
      root.join (root.below way) = moved.below way)
    (hkept : ∀ fragment ∈ skipFragments, ¬ fragment <:+: root.text)
    (hkeptMoved : ∀ fragment ∈ skipFragments, ¬ fragment <:+: moved.text) :
    w.selection (.ofRoot root) b =
      .ok ((w.wantedWays root inside b.references.contains).map moved.below) := by
  have hnames : ∀ way ∈ inside.fileWays (skipFragments.contains ·) (fun way =>
      w.isFile (root.below way)), way ≠ [] ∧ ∀ name ∈ way, isName name = true :=
    fun way => Listing.isName_of_mem_fileWays (wellFormed_of_stat h)
  rw [selection, Settings.ofRoot, selectFiles, if_pos rfl, filesBelow_of_dir h,
    filesIn_eq_ok hshort]
  refine congrArg _ ((wantedPaths_below moved fun way hway =>
    hmoved way (hnames way hway).2).trans (congrArg _ (List.filter_congr fun way hway => ?_)))
  exact Path.isWanted_below (hnames way hway).1 (hnames way hway).2 hkeptMoved hkept

/-- A way on which the walk finds a file leads to one. -/
theorem exists_stat_of_mem_fileWays {root : Path} (h : w.stat root = .ok (.dir inside))
    (hshort : ∀ p node, EntryBelow root inside p node → Utf8.size p.text < Disk.pathLimit)
    (hway : way ∈ inside.fileWays pruned fun way => w.isFile (root.below way)) :
    ∃ node bytes, EntryBelow root inside (root.below way) node ∧
      w.stat (root.below way) = .ok (.file bytes) := by
  obtain ⟨node, hentry, hsource⟩ :=
    entryBelow_of_mem_filesIn (filesIn_eq_ok hshort) (List.mem_map_of_mem hway)
  obtain ⟨bytes, hbytes⟩ := isSource_iff.1 hsource
  have hlink := hentry.linkStat_eq h (hshort _ node hentry)
  exact ⟨node, bytes, hentry, (hasBytes_iff_of_linkStat hlink).1 hbytes⟩

section Standing

variable {p : Path} (hcwd : w.cwd = .on loc) (hloc : w.disk.node? loc = some (.dir here))
  (hr : r.isAbsolute = false) (hdir : w.stat r = .ok (.dir inside))
  (hshort : ∀ p node, EntryBelow (loc.path.join r) inside p node →
    Utf8.size p.text < Disk.pathLimit)

include hr hdir

theorem join_below_of_stat (hway : ∀ name ∈ way, isName name = true) (dir : Path) :
    dir.join (r.below way) = (dir.join r).below way :=
  Path.join_below hr (usable_of_stat hdir).ne_nil (slash_notMem_of_forall_isName hway) dir

include hshort

/-- The relative spelling is the shorter one. -/
theorem size_lt_of_entryBelow (h : EntryBelow r inside p node) :
    Utf8.size p.text < Disk.pathLimit := by
  obtain ⟨way, hway, rfl, hmoved⟩ := h.exists_way (wellFormed_of_stat hdir)
  have hne := (usable_of_stat hdir).ne_nil
  have hrelative := (Path.isAbsolute_below hne (slash_notMem_of_forall_isName hway)).trans hr
  have hlong := hshort _ node (hmoved (loc.path.join r))
  rw [← join_below_of_stat hr hdir hway, Path.text_join hrelative, Utf8.size_append] at hlong
  omega

include hcwd hloc

/-- On the way of an entry the two spellings of the root lead to the same place. -/
theorem stat_below_join_iff (hway : ∀ name ∈ way, isName name = true)
    (hentry : EntryBelow (loc.path.join r) inside ((loc.path.join r).below way) node)
    (found : Node) : w.stat ((loc.path.join r).below way) = .ok found ↔
      w.stat (r.below way) = .ok found := by
  have hlong := hshort _ node hentry
  have hne := (usable_of_stat hdir).ne_nil
  have hslash := slash_notMem_of_forall_isName hway
  rw [← join_below_of_stat hr hdir hway] at hlong ⊢
  exact stat_join_iff hcwd hloc ((Path.isAbsolute_below hne hslash).trans hr)
    (Path.below_ne_nil hne hslash) hlong

/-- From both spellings the same ways are wanted. -/
theorem wantedWays_join (hkept : ∀ fragment ∈ skipFragments, ¬ fragment <:+: r.text)
    (hkeptJoined : ∀ fragment ∈ skipFragments, ¬ fragment <:+: (loc.path.join r).text)
    (known : Key → Bool) :
    w.wantedWays r inside known = w.wantedWays (loc.path.join r) inside known := by
  have hwf := wellFormed_of_stat hdir
  have hfiles : (inside.fileWays (skipFragments.contains ·) fun way =>
        w.isFile ((loc.path.join r).below way)) =
      inside.fileWays (skipFragments.contains ·) fun way => w.isFile (r.below way) :=
    Listing.fileWays_congr hwf fun _ _ hway hentry =>
      isFile_congr (stat_below_join_iff hcwd hloc hr hdir hshort hway hentry)
  rw [wantedWays, wantedWays, hfiles]
  refine List.filter_congr fun way hway => ?_
  obtain ⟨hne, hnames⟩ := Listing.isName_of_mem_fileWays hwf hway
  exact Path.isWanted_below hne hnames hkept hkeptJoined

end Standing

/-- The whole tree from a relative root and from the absolute spelling of it. The same ways are
selected, in the same order and with the same keys, and each leads to a file from either root. The
run with the absolute root reads this file and gives a report. The run with the relative root reads
what is on the way from the root behind itself, and gives a report just when there is a file too. -/
theorem verify_of_relative_root (hcwd : w.cwd = .on loc)
    (hloc : w.disk.node? loc = some (.dir here)) (hr : r.isAbsolute = false)
    (hdir : w.stat r = .ok (.dir inside))
    (hroot : Utf8.size (loc.path.join r).text < Disk.pathLimit)
    (hshort : ∀ p node, EntryBelow (loc.path.join r) inside p node →
      Utf8.size p.text < Disk.pathLimit)
    (hkept : ∀ fragment ∈ skipFragments, ¬ fragment <:+: (loc.path.join r).text) :
    ∃ ways : List (List Text),
      w.selection (.ofRoot (loc.path.join r)) b = .ok (ways.map (loc.path.join r).below) ∧
      w.selection (.ofRoot r) b = .ok (ways.map (r.join r).below) ∧
      (∀ way ∈ ways, ((r.join r).below way).fileKey = ((loc.path.join r).below way).fileKey ∧
        ∃ bytes, w.stat ((loc.path.join r).below way) = .ok (.file bytes) ∧
          w.stat (r.below way) = .ok (.file bytes)) ∧
      (loadBoilerplate w (Settings.ofRoot (loc.path.join r)).boilerplateDir = .ok b →
        ∃ report, w.verify (.ofRoot (loc.path.join r)) = .ok report) ∧
      (loadBoilerplate w (Settings.ofRoot r).boilerplateDir = .ok b →
        ((∃ report, w.verify (.ofRoot r) = .ok report) ↔
          ∀ way ∈ ways, ∃ bytes, w.stat ((r.join r).below way) = .ok (.file bytes))) := by
  have hwf := wellFormed_of_stat hdir
  have hstat := (stat_join_iff hcwd hloc hr (usable_of_stat hdir).ne_nil hroot).2 hdir
  have habs : (loc.path.join r).isAbsolute = true :=
    Path.isAbsolute_join (List.cons_ne_nil _ _) hr
  obtain ⟨-, hkeptRelative⟩ := (kept_join_iff hr loc.path).1 hkept
  have hkeptTwice := (kept_join_iff hr r).2 ⟨hkeptRelative, hkeptRelative⟩
  have habsolute := selection_ofRoot_eq_ok (b := b) (loc.path.join r) hstat hshort
    (fun way hway => Path.join_of_isAbsolute ((Path.isAbsolute_below (usable_of_stat hstat).ne_nil
      (slash_notMem_of_forall_isName hway)).trans habs)) hkept hkept
  have hrelative := selection_ofRoot_eq_ok (b := b) (r.join r) hdir
    (fun _ _ => size_lt_of_entryBelow hr hdir hshort)
    (fun way hway => join_below_of_stat hr hdir hway r) hkeptRelative hkeptTwice
  rw [wantedWays_join hcwd hloc hr hdir hshort hkeptRelative hkept] at hrelative
  have hleads : ∀ way ∈ w.wantedWays (loc.path.join r) inside b.references.contains,
      ∃ node bytes, EntryBelow (loc.path.join r) inside ((loc.path.join r).below way) node ∧
        w.stat ((loc.path.join r).below way) = .ok (.file bytes) := fun way hway =>
    exists_stat_of_mem_fileWays hstat hshort (List.mem_filter.1 hway).1
  refine ⟨_, habsolute, hrelative, fun way hway => ?same, fun hload => ?_, fun hload => ?_⟩
  case same =>
    obtain ⟨hne, hnames⟩ := isName_of_mem_wantedWays hwf hway
    obtain ⟨node, bytes, hentry, hfile⟩ := hleads way hway
    exact ⟨Path.fileKey_below hne hnames _ _, bytes, hfile,
      (stat_below_join_iff hcwd hloc hr hdir hshort hnames hentry _).1 hfile⟩
  · refine (exists_verify_iff hload (fun _ hkey => by cases hkey) habsolute).2
      (List.forall_mem_map.2 fun way hway => ?_)
    obtain ⟨-, bytes, -, hfile⟩ := hleads way hway
    exact ⟨bytes, hfile⟩
  · rw [exists_verify_iff hload (fun _ hkey => by cases hkey) hrelative, List.forall_mem_map]

/-- A directory `r` with one file and, behind a link, the boilerplate. The run stands above it. -/
def treeBelow : World where
  disk := {
    root := .dir "h".toList
        (.dir "boilerplate".toList (.file "boilerplate.py.txt".toList [120, 10] .empty) .empty) <|
      .dir "r".toList (.link "hack".toList ⟨"../h".toList⟩ <| .file "x.py".toList [120] .empty)
        .empty
    wellFormed := by decide +kernel }
  cwd := .on []
  git := none

/-- Both roots select the file there, and only the absolute one gives a report. -/
theorem report_treeBelow :
    (∃ report, treeBelow.verify (.ofRoot ⟨"/r".toList⟩) = .ok report) ∧
    ∃ ways : List (List Text),
      treeBelow.selection (.ofRoot ⟨['r']⟩) ⟨⟨[("py".toList, [['x']])]⟩, ⟨[]⟩⟩ =
        .ok (ways.map (Path.below ⟨"r/r".toList⟩)) ∧
      ((∃ report, treeBelow.verify (.ofRoot ⟨['r']⟩) = .ok report) ↔
        ∀ way ∈ ways, ∃ bytes,
          treeBelow.stat (Path.below ⟨"r/r".toList⟩ way) = .ok (.file bytes)) := by
  have hloc : treeBelow.disk.node? [] = some (.dir treeBelow.disk.root) := rfl
  have hdir : treeBelow.stat ⟨['r']⟩ = .ok (.dir (.link "hack".toList ⟨"../h".toList⟩ <|
      .file "x.py".toList [120] .empty)) := by decide +kernel
  have hshort : ∀ p node, EntryBelow (Location.path [] |>.join ⟨['r']⟩) (.link "hack".toList
      ⟨"../h".toList⟩ <| .file "x.py".toList [120] .empty) p node →
      Utf8.size p.text < Disk.pathLimit := by
    intro p node h
    rcases (EntryBelow.cons_iff "hack".toList (.link ⟨"../h".toList⟩)).1 h with
      ⟨rfl, -⟩ | ⟨_, hlink, -⟩ | h
    · decide +kernel
    · cases hlink
    rcases (EntryBelow.cons_iff "x.py".toList (.file [120])).1 h with ⟨rfl, -⟩ | ⟨_, hfile, -⟩ | h
    · decide +kernel
    · cases hfile
    · exact absurd h EntryBelow.not_empty
  have hload : loadBoilerplate treeBelow (Settings.ofRoot ⟨"/r".toList⟩).boilerplateDir =
      .ok ⟨⟨[("py".toList, [['x']])]⟩, ⟨[]⟩⟩ := by decide +kernel
  have hloadRelative : loadBoilerplate treeBelow (Settings.ofRoot ⟨['r']⟩).boilerplateDir =
      .ok ⟨⟨[("py".toList, [['x']])]⟩, ⟨[]⟩⟩ := by decide +kernel
  obtain ⟨ways, -, hrelative, -, habsolute, hiff⟩ := verify_of_relative_root
    (b := ⟨⟨[("py".toList, [['x']])]⟩, ⟨[]⟩⟩) rfl hloc rfl hdir (by decide +kernel) hshort
    (by decide +kernel)
  exact ⟨habsolute hload, ways, hrelative, hiff hloadRelative⟩

/-- So the run from the relative root fails, where the run from the absolute root reports. -/
theorem verify_treeBelow :
    treeBelow.verify (.ofRoot ⟨"/r".toList⟩) =
      .ok ⟨⟨"/r".toList⟩, [⟨⟨"/r/x.py".toList⟩, "py".toList, true⟩]⟩ ∧
    treeBelow.verify (.ofRoot ⟨['r']⟩) =
      .error (.onDisk .readFile ⟨"r/r/x.py".toList⟩ .missing) := by
  decide +kernel

end World

end HeaderCheck
