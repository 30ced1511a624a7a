import HeaderCheck.Proofs.Boilerplate.Directory
import HeaderCheck.Proofs.FileKey

/-! The key of a reference, read off the name of its file, and the key of a file, read off its
extension. The two agree on an extension that is its own lower case, and a reference for such an
extension is put to use. -/

namespace HeaderCheck

namespace World

variable {w : World} {s : Settings} {b : Boilerplate} {p : Path} {bytes : Bytes}

/-- A run over one named file that is wanted has one result, the verdict on the file. -/
theorem verify_of_file {reference : List Line} (hload : loadBoilerplate w s.boilerplateDir = .ok b)
    (hforced : s.forcedKey = none) (hfiles : s.files = [p]) (habs : p.isAbsolute = true)
    (hkept : ∀ fragment ∈ skipFragments, ¬ fragment <:+: p.text)
    (hreference : b.references.get? p.fileKey = some reference)
    (hread : w.stat p = .ok (.file bytes)) :
    w.verify s = .ok ⟨s.root, [⟨p, p.fileKey,
      (b.body p.fileKey (Utf8.decodeLossy bytes)).hasLeadingLines reference s.anyYear⟩]⟩ := by
  have hknown : b.references.contains p.fileKey = true := by
    rw [Catalogue.contains, hreference]
    rfl
  have hpaths : w.selection s b = .ok [p] := by
    rw [selection, selectFiles, hfiles, if_neg (List.cons_ne_nil p []),
      wantedPaths_of_isAbsolute fun _ hq => List.mem_singleton.1 hq ▸ habs]
    exact congrArg _ (List.filter_eq_self.2 fun q hq => List.mem_singleton.1 hq ▸
      Path.isWanted_iff.2 ⟨hkept, fun _ => hknown⟩)
  have hkey : p.keyUnder s.forcedKey = p.fileKey := by rw [hforced, Path.keyUnder, Option.getD_none]
  have hverdict := Boilerplate.verdict_of_reference hreference s.anyYear (Utf8.decodeLossy bytes)
  have hcheck : w.checkFile (b.matcher s.anyYear) s.forcedKey p = .ok ⟨p, p.fileKey,
      (b.body p.fileKey (Utf8.decodeLossy bytes)).hasLeadingLines reference s.anyYear⟩ := by
    rw [checkFile_eq_ok_iff, hkey]
    exact ⟨bytes, _, hread, hverdict, rfl⟩
  refine verify_eq_ok_iff.2 ⟨b, [p], hload, fun key hforce => ?_, hpaths, rfl,
    checkFiles_eq_ok_iff.2 (.cons hcheck .nil)⟩
  rw [hforced] at hforce
  cases hforce

variable {listing : Listing} {node : Node} {stem ext : Text}

/-- The one reference file for an extension that is its own lower case is put to use: a run over a
file with this extension checks the file, and against the lines of that reference file. -/
theorem verify_of_reference_alone (hload : loadBoilerplate w s.boilerplateDir = .ok b)
    (hdir : w.readDir s.boilerplateDir = .ok listing)
    (hmem : (Category.reference.fileName ext, node) ∈ listing.entries)
    (hext : ext ≠ []) (hdot : '.' ∉ ext) (hlower : Text.lowercase ext = ext)
    (halone : ∀ other ∈ listing.names, Category.reference.hasName other = true →
      keyOfName other = some ext → other = Category.reference.fileName ext)
    (hforced : s.forcedKey = none) (hfiles : s.files = [p]) (habs : p.isAbsolute = true)
    (hkept : ∀ fragment ∈ skipFragments, ¬ fragment <:+: p.text)
    (hname : p.fileName? = some (stem ++ '.' :: ext)) (hstem : stem ≠ [])
    (hread : w.stat p = .ok (.file bytes)) :
    ∃ spelled own text, scanned? s.boilerplateDir = some spelled ∧
      w.HasBytes (scannedEntry spelled (Category.reference.fileName ext)) node own ∧
      Utf8.decode? own = some text ∧
      w.verify s = .ok ⟨s.root, [⟨p, ext,
        (b.body ext (Utf8.decodeLossy bytes)).hasLeadingLines text.lines s.anyYear⟩]⟩ := by
  obtain ⟨spelled, hscan⟩ := exists_scanned?_of_loadBoilerplate hload
  obtain ⟨hreferences, -, -⟩ := loadBoilerplate_eq_ok_iff.1 hload
  obtain ⟨text, htext, hlines⟩ := Category.get?_loadCategory_of_alone hscan hdir hreferences
    (List.mem_map_of_mem hmem) (Category.hasName_fileName _ _)
    (Category.keyOfName_fileName hext hdot _) halone
  obtain ⟨own, hown, hdecoded⟩ := readText_eq_ok_iff.1 htext
  have hlink := linkStat_scannedEntry hscan hdir hmem (usable_of_stat hown).short
  have hkey : p.fileKey = ext := (Path.fileKey_of_fileName? hname hstem hext hdot).trans hlower
  refine ⟨spelled, own, text, hscan, (hasBytes_iff_of_linkStat hlink).2 hown, hdecoded, ?_⟩
  have hverify := verify_of_file hload hforced hfiles habs hkept (hkey.symm ▸ hlines) hread
  rwa [hkey] at hverify

/-- A tree whose one reference file is a link. -/
def linkedReferenceTree : World where
  disk := {
    root := .dir "b".toList
        (.link "boilerplate.py.txt".toList ⟨"../h".toList⟩ <|
          .file "boilerplate.py.preamble".toList [35] .empty) <|
      .file "h".toList [120, 10] <| .file "m.py".toList [35, 10, 120] .empty
    wellFormed := by decide +kernel }
  cwd := .on []
  git := none

/-- The file there passes, against the line that the link leads to. -/
theorem verify_linkedReferenceTree :
    ∃ own text, linkedReferenceTree.HasBytes ⟨"/b/boilerplate.py.txt".toList⟩
        (.link ⟨"../h".toList⟩) own ∧ Utf8.decode? own = some text ∧
      linkedReferenceTree.verify ⟨⟨['/']⟩, ⟨"/b".toList⟩, none, [⟨"/m.py".toList⟩], false⟩ =
        .ok ⟨⟨['/']⟩, [⟨⟨"/m.py".toList⟩, "py".toList, true⟩]⟩ := by
  have hload : loadBoilerplate linkedReferenceTree ⟨"/b".toList⟩ =
      .ok ⟨⟨[("py".toList, [['x']])]⟩, ⟨[("py".toList, [['#']])]⟩⟩ := by decide +kernel
  have hdir : linkedReferenceTree.readDir ⟨"/b".toList⟩ =
      .ok (.link "boilerplate.py.txt".toList ⟨"../h".toList⟩ <|
        .file "boilerplate.py.preamble".toList [35] .empty) := by decide +kernel
  have hread : linkedReferenceTree.stat ⟨"/m.py".toList⟩ = .ok (.file [35, 10, 120]) := by
    decide +kernel
  have hmem : (Category.reference.fileName "py".toList, Node.link ⟨"../h".toList⟩) ∈
      (Listing.link "boilerplate.py.txt".toList ⟨"../h".toList⟩ <|
        .file "boilerplate.py.preamble".toList [35] .empty).entries := List.mem_cons_self
  have hname : Path.fileName? ⟨"/m.py".toList⟩ = some (['m'] ++ '.' :: "py".toList) := by
    decide +kernel
  obtain ⟨spelled, own, text, hscan, hown, htext, hverify⟩ :=
    verify_of_reference_alone (s := ⟨⟨['/']⟩, ⟨"/b".toList⟩, none, [⟨"/m.py".toList⟩], false⟩)
      hload hdir hmem (by decide) (by decide) (by decide +kernel) (by decide +kernel) rfl rfl
      (by decide) (by decide +kernel) hname (by decide) hread
  have hspelled : scanned? ⟨"/b".toList⟩ = some ⟨"/b".toList⟩ := by decide +kernel
  cases hscan.symm.trans hspelled
  refine ⟨own, text, hown, htext, hverify.trans ?_⟩
  have hstat : linkedReferenceTree.stat ⟨"/b/boilerplate.py.txt".toList⟩ =
      .ok (.file [120, 10]) := by decide +kernel
  have hlink : linkedReferenceTree.linkStat ⟨"/b/boilerplate.py.txt".toList⟩ =
      .ok (.link ⟨"../h".toList⟩) := by decide +kernel
  cases hstat.symm.trans ((hasBytes_iff_of_linkStat hlink).1 hown)
  cases (by decide +kernel : Utf8.decode? [120, 10] = some ['x', '\n']).symm.trans htext
  decide +kernel

/-- A tree whose one reference file is for an extension in upper case. -/
def upperCaseTree : World where
  disk := {
    root := .dir "b".toList (.file "boilerplate.PY.txt".toList [120, 10] .empty) <|
      .file "m.PY".toList [121] .empty
    wellFormed := by decide +kernel }
  cwd := .on []
  git := none

/-- No file there is checked against it. The file with just this extension has the key `py`, so a
run over it succeeds and has no result. -/
theorem verify_upperCaseTree :
    loadBoilerplate upperCaseTree ⟨"/b".toList⟩ = .ok ⟨⟨[("PY".toList, [['x']])]⟩, ⟨[]⟩⟩ ∧
    upperCaseTree.readDir ⟨"/b".toList⟩ =
      .ok (.file (Category.reference.fileName "PY".toList) [120, 10] .empty) ∧
    keyOfName (Category.reference.fileName "PY".toList) = some "PY".toList ∧
    Path.isAbsolute ⟨"/m.PY".toList⟩ = true ∧
    (∀ fragment ∈ skipFragments, ¬ fragment <:+: "/m.PY".toList) ∧
    Path.fileName? ⟨"/m.PY".toList⟩ = some "m.PY".toList ∧
    upperCaseTree.stat ⟨"/m.PY".toList⟩ = .ok (.file [121]) ∧
    upperCaseTree.verify ⟨⟨['/']⟩, ⟨"/b".toList⟩, none, [⟨"/m.PY".toList⟩], false⟩ =
      .ok ⟨⟨['/']⟩, []⟩ := by
  decide +kernel

end World

end HeaderCheck
