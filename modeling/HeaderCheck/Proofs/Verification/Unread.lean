import HeaderCheck.Proofs.Boilerplate.Load
import HeaderCheck.Proofs.Disk.Blanked
import HeaderCheck.Proofs.Disk.Tree
import HeaderCheck.Proofs.Verification.Stages

/-! What is in a file that a run does not read. A run finds its files by names and links alone, and
the only bytes that it looks at are those of the boilerplate and of the files that it selects. So
another content of any other file makes no difference to the run, be it a report or a failure. -/

namespace HeaderCheck

namespace World

/-- The two differ in no more than the bytes of the file at the location. -/
structure SameBut (w v : World) (loc : Location) : Prop where
  blanked : w.blanked = v.blanked
  file : ∀ other bytes, other ≠ loc →
    w.disk.node? other = some (.file bytes) → v.disk.node? other = some (.file bytes)

/-- The path resolves to the location, with every link followed. -/
def LeadsTo (w : World) (p : Path) (loc : Location) : Prop :=
  w.disk.resolve true w.cwd p = .ok (.on loc)

instance (w : World) (p : Path) (loc : Location) : Decidable (w.LeadsTo p loc) :=
  inferInstanceAs (Decidable (_ = _))

/-- An entry of the boilerplate directory with the name of a reference or a preamble resolves to the
location. -/
def BoilerplateAt (w : World) (s : Settings) (loc : Location) : Prop :=
  ∃ spelled listing, scanned? s.boilerplateDir = some spelled ∧
    w.readDir s.boilerplateDir = .ok listing ∧
    ∃ name ∈ listing.names, ∃ category : Category, category.hasName name = true ∧
      w.LeadsTo (scannedEntry spelled name) loc

/-- A path that the run selects resolves to the location. -/
def SelectedAt (w : World) (s : Settings) (loc : Location) : Prop :=
  ∃ b paths, loadBoilerplate w s.boilerplateDir = .ok b ∧
    requireReference b s.forcedKey = .ok () ∧ w.selection s b = .ok paths ∧
    ∃ p ∈ paths, w.LeadsTo p loc

end World

variable {w v : World} {s : Settings} {loc : Location} {p : Path}

theorem Category.exists_name_of_mem_sources {category : Category} {dir : Path} {listing : Listing}
    {source : Key × Path} (h : source ∈ category.sources dir listing) :
    ∃ name ∈ listing.names, category.hasName name = true ∧ source.2 = scannedEntry dir name := by
  obtain ⟨name, hname, hsource⟩ := List.mem_filterMap.1 h
  obtain ⟨key, -, rfl⟩ := Option.map_eq_some_iff.1 hsource
  obtain ⟨hmem, hhas⟩ := List.mem_filter.1 ((sortBy_perm _ _).mem_iff.1 hname)
  exact ⟨name, hmem, hhas, rfl⟩

namespace World.SameBut

variable (h : w.SameBut v loc)
include h

theorem resolve_eq (last : Bool) (p : Path) :
    v.disk.resolve last v.cwd p = w.disk.resolve last w.cwd p := by
  have hdisk : w.disk.blanked = v.disk.blanked := congrArg (·.disk) h.blanked
  have hcwd : w.blanked.cwd = v.blanked.cwd := congrArg (·.cwd) h.blanked
  change w.cwd = v.cwd at hcwd
  rw [← Disk.resolve_blanked v.disk, ← hdisk, ← hcwd, Disk.resolve_blanked]

theorem nodeAt?_eq (place : Standpoint) :
    (v.disk.nodeAt? place).map Node.blanked = (w.disk.nodeAt? place).map Node.blanked := by
  have hdisk : w.disk.blanked = v.disk.blanked := congrArg (·.disk) h.blanked
  rw [← Disk.nodeAt?_blanked, ← hdisk, Disk.nodeAt?_blanked]

/-- A file of another location has its bytes in both. -/
theorem nodeAt?_of_file {place : Standpoint} {bytes : Bytes} (hplace : place ≠ .on loc)
    (hw : w.disk.nodeAt? place = some (.file bytes)) :
    v.disk.nodeAt? place = some (.file bytes) := by
  unfold Disk.nodeAt? at hw ⊢
  cases hlocation : place.location? with
  | none =>
    rw [hlocation] at hw
    cases hw
  | some other =>
    rw [hlocation] at hw
    apply h.file other bytes _ hw
    rintro rfl
    exact hplace (Standpoint.eq_on_of_location? hlocation)

/-- Reading a file shows the difference only at the location. -/
theorem readBytes_eq (hp : ¬ w.LeadsTo p loc) : v.readBytes p = w.readBytes p := by
  unfold readBytes stat
  rw [h.resolve_eq]
  rcases hresolve : w.disk.resolve true w.cwd p with fault | place
  · rfl
  have hplace : place ≠ .on loc := by
    rintro rfl
    exact hp hresolve
  have hblanked := h.nodeAt?_eq place
  rcases hw : w.disk.nodeAt? place with _ | (bytes | target | inside) <;> rw [hw] at hblanked
  · have hv : v.disk.nodeAt? place = none := by simpa using hblanked
    simp only [Except.bind, hw, hv]
  · simp only [Except.bind, hw, h.nodeAt?_of_file hplace hw]
  · obtain ⟨node, hv, hnode⟩ := Option.map_eq_some_iff.1 hblanked
    cases node <;> cases hnode
    simp only [Except.bind, hw, hv]
  · obtain ⟨node, hv, hnode⟩ := Option.map_eq_some_iff.1 hblanked
    cases node with
    | file own => cases hnode
    | link target => cases hnode
    | dir l => simp only [Except.bind, hw, hv]

theorem readText_eq (hp : ¬ w.LeadsTo p loc) : v.readText p = w.readText p := by
  rw [readText, readText, h.readBytes_eq hp]

/-- The boilerplate directory is listed alike, and what its files have to be read for is told by the
listing. -/
theorem loadCategory_eq (hboilerplate : ¬ w.BoilerplateAt s loc) (category : Category) :
    loadCategory v category s.boilerplateDir = loadCategory w category s.boilerplateDir := by
  have hread : (v.readDir s.boilerplateDir).map Listing.blanked =
      (w.readDir s.boilerplateDir).map Listing.blanked := by
    rw [← readDir_blanked, ← readDir_blanked, h.blanked]
  rcases hw : w.readDir s.boilerplateDir with fault | l <;>
    rcases hv : v.readDir s.boilerplateDir with other | m <;> rw [hw, hv] at hread
  · cases hread
    simp only [loadCategory, hw, hv]
  · cases hread
  · cases hread
  · have hnames : m.names = l.names := by
      rw [← Listing.names_blanked m, Except.ok.inj hread, Listing.names_blanked]
    simp only [loadCategory, hw, hv]
    cases hscan : scanned? s.boilerplateDir with
    | none => simp only [Category.found, hscan, readSources]
    | some spelled =>
      rw [Category.found_of_scanned? hscan hw, Category.found_of_scanned? hscan hv]
      have hsources : category.sources spelled m = category.sources spelled l := by
        rw [Category.sources, Category.sources, hnames]
      rw [hsources]
      apply readSources_eq
      intro source hsource
      obtain ⟨name, hmem, hname, hpath⟩ := Category.exists_name_of_mem_sources hsource
      rw [hpath]
      apply h.readText_eq
      intro hleads
      exact hboilerplate ⟨spelled, l, hscan, hw, name, hmem, category, hname, hleads⟩

theorem loadBoilerplate_eq (hboilerplate : ¬ w.BoilerplateAt s loc) :
    loadBoilerplate v s.boilerplateDir = loadBoilerplate w s.boilerplateDir := by
  unfold loadBoilerplate
  rw [h.loadCategory_eq hboilerplate, h.loadCategory_eq hboilerplate]

/-- What is selected does not depend on what is in files. -/
theorem selection_eq (s : Settings) (b : Boilerplate) : v.selection s b = w.selection s b := by
  unfold selection selectFiles
  rw [← filesBelow_blanked v, ← h.blanked, filesBelow_blanked]

theorem verify_eq (hboilerplate : ¬ w.BoilerplateAt s loc) (hselected : ¬ w.SelectedAt s loc) :
    v.verify s = w.verify s := by
  refine verify_congr (h.loadBoilerplate_eq hboilerplate) (fun b _ => h.selection_eq s b) ?_
  intro b paths hload hforced hpaths p hp
  exact h.readBytes_eq fun hleads => hselected ⟨b, paths, hload, hforced, hpaths, p, hp, hleads⟩

end World.SameBut

namespace World

/-- So it can be computed whether two disks with the same entries differ in one file only. -/
theorem SameBut.of_places (hblanked : w.blanked = v.blanked)
    (h : ∀ place ∈ w.disk.root.places, place.1 ≠ loc → place ∈ v.disk.root.places) :
    w.SameBut v loc where
  blanked := hblanked
  file other bytes hother hnode := by
    have hne := Node.way_ne_nil hnode rfl
    have hmem := h _ (Listing.mem_places_of_at? w.disk.wellFormed hne hnode) hother
    obtain ⟨node, hv, hsight⟩ :=
      Option.map_eq_some_iff.1 ((Listing.mem_places_iff v.disk.wellFormed).1 hmem).2
    cases node <;> cases hsight
    exact hv

/-- A path that is skipped, or has a key that is not known, is not selected. -/
theorem not_selectedAt (h : ∀ p, w.LeadsTo p loc → p.isSkipped skipFragments = true ∨
    s.forcedKey = none ∧ ∀ b, loadBoilerplate w s.boilerplateDir = .ok b →
      b.references.contains p.fileKey = false) : ¬ w.SelectedAt s loc := by
  rintro ⟨b, paths, hload, -, hpaths, p, hp, hleads⟩
  obtain ⟨hkept, hknown⟩ := Path.isWanted_iff.1 (isWanted_of_mem_selectFiles hpaths hp)
  rcases h p hleads with hskipped | ⟨hforced, hunknown⟩
  · obtain ⟨fragment, hmem, hinfix⟩ := Path.isSkipped_iff.1 hskipped
    exact hkept fragment hmem hinfix
  · have hkey := hknown hforced
    rw [hunknown b hload] at hkey
    cases hkey

/-- The bytes of one file make no difference to a run if neither an entry of the boilerplate nor a
path that the run selects resolves to the file: the run has the same report in both states, or the
same failure. So it is with a file all of whose paths are skipped or, where no key is forced, have a
key that is not known. -/
theorem verify_of_unread (h : w.SameBut v loc) (hboilerplate : ¬ w.BoilerplateAt s loc) :
    (¬ w.SelectedAt s loc → v.verify s = w.verify s) ∧
    ((∀ p, w.LeadsTo p loc → p.isSkipped skipFragments = true ∨
        s.forcedKey = none ∧ ∀ b, loadBoilerplate w s.boilerplateDir = .ok b →
          b.references.contains p.fileKey = false) →
      v.verify s = w.verify s) :=
  ⟨h.verify_eq hboilerplate, fun hpaths => h.verify_eq hboilerplate (not_selectedAt hpaths)⟩

/-- A tree with these bytes in a file under a skipped directory, to which a link of an unknown key
leads as well. -/
def vendoredTree (bytes : Bytes) : World where
  disk := {
    root := .dir "b".toList (.file "boilerplate.go.txt".toList [120] .empty) <|
      .dir "r".toList
        (.dir "vendor".toList (.file "x.go".toList bytes .empty) <|
          .link "n.md".toList ⟨"vendor/x.go".toList⟩ <| .file "m.go".toList [121] .empty) .empty
    wellFormed := by simp +decide [Listing.WellFormed, Listing.names, Listing.entries] }
  cwd := .on []
  git := none

/-- With and without a header in that file the run reports the same of the one file that it
checks. -/
theorem verify_vendoredTree :
    (vendoredTree [120]).verify ⟨⟨"/r".toList⟩, ⟨"/b".toList⟩, none, [], false⟩ =
      (vendoredTree []).verify ⟨⟨"/r".toList⟩, ⟨"/b".toList⟩, none, [], false⟩ ∧
    (vendoredTree []).verify ⟨⟨"/r".toList⟩, ⟨"/b".toList⟩, none, [], false⟩ =
      .ok ⟨⟨"/r".toList⟩, [⟨⟨"/r/m.go".toList⟩, "go".toList, false⟩]⟩ := by
  have hsame : (vendoredTree []).SameBut (vendoredTree [120])
      ["r".toList, "vendor".toList, "x.go".toList] := SameBut.of_places rfl (by decide +kernel)
  have hboilerplate : ¬ (vendoredTree []).BoilerplateAt
      ⟨⟨"/r".toList⟩, ⟨"/b".toList⟩, none, [], false⟩
      ["r".toList, "vendor".toList, "x.go".toList] := by
    rintro ⟨spelled, listing, hscan, hdir, name, hname, -, -, hleads⟩
    cases hscan.symm.trans (by decide +kernel : scanned? ⟨"/b".toList⟩ = some ⟨"/b".toList⟩)
    cases hdir.symm.trans (by decide +kernel : (vendoredTree []).readDir ⟨"/b".toList⟩ =
      .ok (.file "boilerplate.go.txt".toList [120] .empty))
    cases List.mem_singleton.1 hname
    exact absurd hleads (by decide +kernel)
  refine ⟨(verify_of_unread hsame hboilerplate).1 ?_, by decide +kernel⟩
  rintro ⟨b, paths, hload, -, hpaths, p, hp, hleads⟩
  cases hload.symm.trans (by decide +kernel : loadBoilerplate (vendoredTree []) ⟨"/b".toList⟩ =
    .ok ⟨⟨[("go".toList, [['x']])]⟩, ⟨[]⟩⟩)
  cases hpaths.symm.trans (by decide +kernel : (vendoredTree []).selection
    ⟨⟨"/r".toList⟩, ⟨"/b".toList⟩, none, [], false⟩ ⟨⟨[("go".toList, [['x']])]⟩, ⟨[]⟩⟩ =
      .ok [⟨"/r/m.go".toList⟩])
  cases List.mem_singleton.1 hp
  exact absurd hleads (by decide +kernel)

end World

end HeaderCheck
