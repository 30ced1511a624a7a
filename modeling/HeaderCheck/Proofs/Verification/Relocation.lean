import HeaderCheck.Proofs.Boilerplate.Relocation
import HeaderCheck.Proofs.Path.Relative
import HeaderCheck.Proofs.Report
import HeaderCheck.Proofs.Verification.RelativeRoot
import Mathlib.Data.List.Nodup
import Mathlib.Data.List.Perm.Basic

/-! A tree without links, checked in two places. Where it stands is read by nothing but the skip
test, and no fragment can reach over the end of the root; so the two runs load the same boilerplate,
check the same files, and report the same of them, but for the root in front of the paths. -/

namespace HeaderCheck

/-- The names on the way to the boilerplate of a root. -/
def boilerplateWay : List Text := ["hack".toList, "boilerplate".toList]

theorem isName_boilerplateWay : ∀ name ∈ boilerplateWay, isName name = true := by
  decide +kernel

theorem boilerplateDir_ofRoot (root : Path) :
    (Settings.ofRoot root).boilerplateDir = root.below boilerplateWay :=
  Path.join_ofWay (by decide) isName_boilerplateWay root

variable {w v : World} {root moved : Path} {tree copy : Node} {l m : Listing} {b : Boilerplate}
  {way : List Text} {known : Key → Bool}

theorem map_eq_of_forall₂ {α β γ δ : Type} {R : α → β → Prop} {S : α → γ → Prop} {f : β → δ}
    {g : γ → δ} {xs : List α} {ys : List β} {zs : List γ}
    (h : ∀ x ∈ xs, ∀ y z, R x y → S x z → f y = g z) (hys : List.Forall₂ R xs ys)
    (hzs : List.Forall₂ S xs zs) : ys.map f = zs.map g := by
  induction hys generalizing zs with
  | nil =>
    cases hzs
    rfl
  | @cons x y xs ys hy _ ih =>
    obtain ⟨z, zs, hz, hrest, rfl⟩ := List.forall₂_cons_left_iff.1 hzs
    obtain ⟨hfirst, hmore⟩ := List.forall_mem_cons.1 h
    rw [List.map_cons, List.map_cons, hfirst y z hy hz, ih hmore hrest]

theorem exists_dir_of_loadBoilerplate {dir : Path} (h : loadBoilerplate w dir = .ok b) :
    ∃ l, w.stat dir = .ok (.dir l) := by
  obtain ⟨hreferences, -, -⟩ := loadBoilerplate_eq_ok_iff.1 h
  unfold loadCategory at hreferences
  rcases hdir : w.readDir dir with fault | l
  · simp [hdir] at hreferences
  · exact ⟨l, World.readDir_eq_ok_iff.1 hdir⟩

namespace World

section OneTree

variable (hw : w.Holds root (.dir l)) (hfree : (Node.dir l).LinkFree)
include hw

theorem Holds.size_lt {p : Path} {node : Node} (h : EntryBelow root l p node) :
    Utf8.size p.text < Disk.pathLimit := by
  obtain ⟨way, -, -, rfl, hway⟩ := h.exists_at? (wellFormed_of_stat hw.stat)
  exact hw.short way node hway

/-- Nothing stops the walk of the tree. -/
theorem filesIn_of_holds : w.filesIn (skipFragments.contains ·) root l =
    .ok ((l.fileWays (skipFragments.contains ·) fun way => w.isFile (root.below way)).map
      root.below) :=
  filesIn_eq_ok fun _ _ => hw.size_lt

theorem selection_of_holds (hkept : ∀ fragment ∈ skipFragments, ¬ fragment <:+: root.text) :
    w.selection (.ofRoot root) b =
      .ok ((w.wantedWays root l b.references.contains).map root.below) := by
  apply selection_ofRoot_eq_ok root hw.stat (fun p node => hw.size_lt) _ hkept hkept
  intro way hway
  exact Path.join_of_isAbsolute (hw.isAbsolute_below hway)

theorem nodup_wantedWays (known : Key → Bool) : (w.wantedWays root l known).Nodup := by
  have hpaths := nodup_filesIn (filesIn_of_holds hw) (wellFormed_of_stat hw.stat)
  exact (List.Nodup.of_map root.below hpaths).filter _

include hfree

/-- What a way that is wanted leads to is a file of the tree, and all files that are wanted are on
such ways. -/
theorem mem_wantedWays_iff : way ∈ w.wantedWays root l known ↔
    (∃ bytes, (Node.dir l).at? way = some (.file bytes)) ∧
      (root.below way).isWanted skipFragments known none = true := by
  have hwf := wellFormed_of_stat hw.stat
  rw [wantedWays, List.mem_filter]
  refine and_congr_left fun hwanted => ⟨?_, ?_⟩
  · intro hfile
    obtain ⟨hne, hnames⟩ := Listing.isName_of_mem_fileWays hwf hfile
    obtain ⟨node, bytes, hentry, hstat⟩ :=
      exists_stat_of_mem_fileWays hw.stat (fun _ _ => hw.size_lt) hfile
    rw [stat_below hw hfree hne hnames (hw.size_lt hentry)] at hstat
    exact ⟨bytes, Node.seek_eq_ok_iff.1 hstat⟩
  · rintro ⟨bytes, hfile⟩
    have hne := Node.way_ne_nil hfile rfl
    have hnames := hw.isName_of_at? hfile
    have hmem := mem_filesIn_of_entryBelow (filesIn_of_holds hw) hwf (EntryBelow.of_at? hne hfile)
      trivial fun name hname => (Path.isWanted_iff.1 hwanted).1 name (by simpa using hname)
    obtain ⟨other, hother, heq⟩ := List.mem_map.1 hmem
    obtain ⟨hotherNe, hotherNames⟩ := Listing.isName_of_mem_fileWays hwf hother
    rwa [← Path.eq_of_below_eq hotherNe hotherNames hne hnames heq]

/-- The whole tree can be checked once the boilerplate is loaded. The results are those of the files
on the ways that are wanted. -/
theorem exists_verify_of_holds
    (hkept : ∀ fragment ∈ skipFragments, ¬ fragment <:+: root.text)
    (hload : loadBoilerplate w (Settings.ofRoot root).boilerplateDir = .ok b) :
    ∃ report, w.verify (.ofRoot root) = .ok report ∧ report.root = root ∧
      w.checkFiles (b.matcher false) none
        ((w.wantedWays root l b.references.contains).map root.below) = .ok report.results := by
  have hselect := selection_of_holds (b := b) hw hkept
  have hread : ∀ p ∈ (w.wantedWays root l b.references.contains).map root.below,
      ∃ bytes, w.stat p = .ok (.file bytes) := by
    rw [List.forall_mem_map]
    intro way hway
    obtain ⟨hne, hnames⟩ := isName_of_mem_wantedWays (wellFormed_of_stat hw.stat) hway
    obtain ⟨⟨bytes, hfile⟩, -⟩ := (mem_wantedWays_iff hw hfree).1 hway
    refine ⟨bytes, ?_⟩
    rw [stat_below hw hfree hne hnames (hw.short way _ hfile), Node.seek_eq_ok_iff]
    exact hfile
  obtain ⟨report, hreport⟩ :=
    (exists_verify_iff hload (fun _ hkey => by cases hkey) hselect).2 hread
  obtain ⟨other, paths, hother, -, hpaths, hroot, hresults⟩ := verify_eq_ok_iff.1 hreport
  cases hload.symm.trans hother
  cases hselect.symm.trans hpaths
  exact ⟨report, hreport, hroot, hresults⟩

end OneTree

section TwoTrees

variable (hw : w.Holds root (.dir l)) (hv : v.Holds moved (.dir m))
  (hfree : (Node.dir l).LinkFree) (hsame : (Node.dir l).SameTree (.dir m))
include hw hv hfree hsame

/-- On a way that is wanted both runs find the same. -/
theorem relativeTo_eq_of_checkFile {result other : FileResult}
    (hway : way ∈ w.wantedWays root l known)
    (hresult : w.checkFile (b.matcher false) none (root.below way) = .ok result)
    (hother : v.checkFile (b.matcher false) none (moved.below way) = .ok other) :
    result.relativeTo root = other.relativeTo moved := by
  obtain ⟨hne, hnames⟩ := isName_of_mem_wantedWays (wellFormed_of_stat hw.stat) hway
  obtain ⟨⟨bytes, hfile⟩, -⟩ := (mem_wantedWays_iff hw hfree).1 hway
  have hfileMoved := hsame.exists_at? hfile
  have hstat := stat_below hw hfree hne hnames (hw.short way _ hfile)
  have hstatMoved := stat_below hv (hsame.linkFree hfree) hne hnames (hv.short way _ hfileMoved)
  rw [Node.seek_eq_ok_iff.2 hfile] at hstat
  rw [Node.seek_eq_ok_iff.2 hfileMoved] at hstatMoved
  obtain ⟨own, passed, hown, hpassed, rfl⟩ := checkFile_eq_ok_iff.1 hresult
  obtain ⟨same, passedMoved, hsameBytes, hpassedMoved, rfl⟩ := checkFile_eq_ok_iff.1 hother
  cases hstat.symm.trans hown
  cases hstatMoved.symm.trans hsameBytes
  have hkey : (root.below way).keyUnder none = (moved.below way).keyUnder none :=
    Path.fileKey_below hne hnames root moved
  rw [hkey] at hpassed
  cases hpassed.symm.trans hpassedMoved
  simp only [FileResult.relativeTo, hkey, Path.relativeTo_below hw.isAbsolute hne hnames,
    Path.relativeTo_below hv.isAbsolute hne hnames]

variable (hkept : ∀ fragment ∈ skipFragments, ¬ fragment <:+: root.text)
  (hkeptMoved : ∀ fragment ∈ skipFragments, ¬ fragment <:+: moved.text)
include hkept hkeptMoved

theorem wantedWays_perm (known : Key → Bool) :
    (w.wantedWays root l known).Perm (v.wantedWays moved m known) := by
  rw [List.perm_ext_iff_of_nodup (nodup_wantedWays hw known) (nodup_wantedWays hv known)]
  intro way
  rw [mem_wantedWays_iff hw hfree, mem_wantedWays_iff hv (hsame.linkFree hfree)]
  have hfile : (∃ bytes, (Node.dir l).at? way = some (.file bytes)) ↔
      ∃ bytes, (Node.dir m).at? way = some (.file bytes) :=
    exists_congr fun bytes => ⟨hsame.exists_at?, hsame.symm.exists_at?⟩
  rw [hfile]
  refine and_congr_right fun hexists => ?_
  obtain ⟨bytes, hbytes⟩ := hexists
  rw [Path.isWanted_below (Node.way_ne_nil hbytes rfl) (hv.isName_of_at? hbytes) hkept hkeptMoved]

/-- With the same boilerplate both runs give a report, and the same one but for the root. -/
theorem reports_of_holds (hload : loadBoilerplate w (Settings.ofRoot root).boilerplateDir = .ok b)
    (hloadMoved : loadBoilerplate v (Settings.ofRoot moved).boilerplateDir = .ok b) :
    ∃ report other, w.verify (.ofRoot root) = .ok report ∧ v.verify (.ofRoot moved) = .ok other ∧
      (report.results.map (·.relativeTo root)).Perm (other.results.map (·.relativeTo moved)) ∧
      report.lines = other.lines := by
  obtain ⟨report, hreport, hroot, hresults⟩ := exists_verify_of_holds hw hfree hkept hload
  obtain ⟨other, hother, hmoved, hothers⟩ :=
    exists_verify_of_holds hv (hsame.linkFree hfree) hkeptMoved hloadMoved
  have hpaths := map_path_of_checkFiles hresults
  rw [checkFiles_eq_ok_iff, List.forall₂_map_left_iff] at hresults hothers
  have hways := wantedWays_perm hw hv hfree hsame hkept hkeptMoved b.references.contains
  obtain ⟨sorted, hsorted, hperm⟩ := List.perm_comp_forall₂ hways hothers
  have hmap : report.results.map (·.relativeTo root) = sorted.map (·.relativeTo moved) :=
    map_eq_of_forall₂ (fun way hway result other hresult hother =>
      relativeTo_eq_of_checkFile hw hv hfree hsame hway hresult hother) hresults hsorted
  have hsameResults : (report.results.map (·.relativeTo root)).Perm
      (other.results.map (·.relativeTo moved)) := hmap ▸ hperm.map _
  have hfailing : report.failing.Perm other.failing := by
    apply Report.failing_perm
    rw [hroot, hmoved]
    exact hsameResults
  refine ⟨report, other, hreport, hother, hsameResults, Report.lines_eq hfailing ?_⟩
  -- a file that fails is spelled by the way to it
  have hspelled : ∀ p ∈ report.failing,
      ∃ way, (∀ name ∈ way, isName name = true) ∧ p = Path.ofWay way := by
    intro p hp
    obtain ⟨result, hresult, rfl⟩ := List.mem_map.1 hp
    have hmem := List.mem_map_of_mem (f := (·.path)) (List.mem_filter.1 hresult).1
    rw [hpaths] at hmem
    obtain ⟨way, hway, hpath⟩ := List.mem_map.1 hmem
    obtain ⟨hne, hnames⟩ := isName_of_mem_wantedWays (wellFormed_of_stat hw.stat) hway
    refine ⟨way, hnames, ?_⟩
    rw [hroot, ← hpath, Path.relativeTo_below hw.isAbsolute hne hnames]
  intro p hp q hq heq
  obtain ⟨way, hnames, rfl⟩ := hspelled p hp
  obtain ⟨other, hotherNames, rfl⟩ := hspelled q hq
  exact Path.ofWay_inj hnames hotherNames heq

end TwoTrees

/-- A tree, and the same tree with its entries in another order. -/
def plainTree : Listing :=
  .dir "hack".toList
    (.dir "boilerplate".toList (.file "boilerplate.go.txt".toList [120] .empty) .empty) <|
  .file "m.go".toList [121] <| .file "n.go".toList [120, 10] .empty

def shuffledTree : Listing :=
  .file "n.go".toList [120, 10] <|
  .dir "hack".toList
    (.dir "boilerplate".toList (.file "boilerplate.go.txt".toList [120] .empty) .empty) <|
  .file "m.go".toList [121] .empty

/-- A disk on which the tree stands twice, once under a directory with a name like a pattern. -/
def twoPlaces : World where
  disk := {
    root := .dir "a".toList plainTree <|
      .dir "[*".toList (.dir "r".toList shuffledTree .empty) .empty
    wellFormed := by decide +kernel }
  cwd := .on []
  git := none

end World

end HeaderCheck
