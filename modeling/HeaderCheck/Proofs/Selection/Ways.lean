import HeaderCheck.Proofs.Path.Below
import HeaderCheck.Proofs.Selection.Select

/-! The files of a walk by the names that lead to them. Two walks of one listing, under whatever
directories, find the same files in the same order as long as the same links lead to files. -/

namespace HeaderCheck

/-- The files in the listing, each by the names on the way to it, where `isFile` tells of a link
whether it leads to a file. -/
def Listing.fileWays (pruned : Text → Bool) : (List Text → Bool) → Listing → List (List Text)
  | _, .empty => []
  | isFile, .file name _ rest => [name] :: rest.fileWays pruned isFile
  | isFile, .link name _ rest =>
    if isFile [name] then [name] :: rest.fileWays pruned isFile else rest.fileWays pruned isFile
  | isFile, .dir name inside rest =>
    if pruned name then rest.fileWays pruned isFile
    else (inside.fileWays pruned fun way => isFile (name :: way)).map (name :: ·) ++
      rest.fileWays pruned isFile

theorem skipFragments_plain : ∀ fragment ∈ skipFragments, fragment ≠ [] ∧ '/' ∉ fragment := by
  decide

/-- Whether a file is wanted is a matter of the names that lead to it, where no fragment stands in
the directory. -/
theorem Path.isWanted_below {p q : Path} {way : List Text} {known : Key → Bool}
    {forced : Option Key} (hne : way ≠ []) (hway : ∀ name ∈ way, isName name = true)
    (hp : ∀ fragment ∈ skipFragments, ¬ fragment <:+: p.text)
    (hq : ∀ fragment ∈ skipFragments, ¬ fragment <:+: q.text) :
    (p.below way).isWanted skipFragments known forced =
      (q.below way).isWanted skipFragments known forced := by
  have hslash := slash_notMem_of_forall_isName hway
  have hsame : ∀ fragment ∈ skipFragments,
      (fragment <:+: (p.below way).text ↔ fragment <:+: (q.below way).text) := by
    intro fragment hmem
    obtain ⟨hnil, hsep⟩ := skipFragments_plain fragment hmem
    rw [infix_below_iff hnil hsep hslash, infix_below_iff hnil hsep hslash,
      or_iff_right (hp fragment hmem), or_iff_right (hq fragment hmem)]
  rw [Bool.eq_iff_iff, isWanted_iff, isWanted_iff, fileKey_below hne hway p q]
  exact and_congr_left fun _ => forall₂_congr fun fragment hmem => not_congr (hsame fragment hmem)

/-- An entry is on a way of names, and on the same way below any directory with the listing. -/
theorem EntryBelow.exists_way {dir p : Path} {l : Listing} {node : Node}
    (h : EntryBelow dir l p node) (hwf : l.WellFormed) :
    ∃ way, (∀ name ∈ way, isName name = true) ∧ p = dir.below way ∧
      ∀ other, EntryBelow other l (other.below way) node := by
  induction h with
  | @here dir l name node hmem =>
    exact ⟨[name], by simpa using hwf.isName_of_mem hmem, rfl, fun other => .here hmem⟩
  | @deeper dir l sub name p node hmem below ih =>
    obtain ⟨way, hnames, hp, hway⟩ := ih (hwf.node_of_mem hmem)
    exact ⟨name :: way, List.forall_mem_cons.2 ⟨hwf.isName_of_mem hmem, hnames⟩, hp,
      fun other => .deeper hmem (hway (other.entry name))⟩

/-- The names on the way to an entry are its location in the listing. -/
theorem EntryBelow.exists_at? {dir p : Path} {l : Listing} {node : Node}
    (h : EntryBelow dir l p node) (hwf : l.WellFormed) :
    ∃ way, way ≠ [] ∧ (∀ name ∈ way, isName name = true) ∧ p = dir.below way ∧
      (Node.dir l).at? way = some node := by
  induction h with
  | @here dir l name node hmem =>
    refine ⟨[name], List.cons_ne_nil name [], by simpa using hwf.isName_of_mem hmem, rfl, ?_⟩
    simp [Node.at?, Listing.find?_of_mem hwf hmem]
  | @deeper dir l sub name p node hmem below ih =>
    obtain ⟨way, -, hnames, hp, hway⟩ := ih (hwf.node_of_mem hmem)
    refine ⟨name :: way, List.cons_ne_nil name way,
      List.forall_mem_cons.2 ⟨hwf.isName_of_mem hmem, hnames⟩, hp, ?_⟩
    simp [Node.at?, Listing.find?_of_mem hwf hmem, hway]

/-- And at every location of the listing is an entry. -/
theorem EntryBelow.of_at? {dir : Path} {l : Listing} {node : Node} {way : List Text}
    (hne : way ≠ []) (h : (Node.dir l).at? way = some node) :
    EntryBelow dir l (dir.below way) node := by
  induction way generalizing dir l with
  | nil => exact absurd rfl hne
  | cons name more ih =>
    obtain ⟨next, hfind, hmore⟩ := Option.bind_eq_some_iff.1 h
    have hmem := Listing.lookup_mem hfind
    cases more with
    | nil =>
      cases hmore
      exact .here hmem
    | cons second rest =>
      cases next with
      | file bytes => cases hmore
      | link target => cases hmore
      | dir sub => exact .deeper hmem (ih (List.cons_ne_nil second rest) hmore)

variable {w : World} {pruned : Text → Bool} {isFile other : List Text → Bool} {dir : Path}
  {l : Listing} {way : List Text}

namespace Listing

theorem isName_of_mem_fileWays (hwf : l.WellFormed) (h : way ∈ l.fileWays pruned isFile) :
    way ≠ [] ∧ ∀ name ∈ way, isName name = true := by
  induction l generalizing isFile way with
  | empty => cases h
  | file name bytes rest ih =>
    rcases List.mem_cons.1 h with rfl | h
    · exact ⟨List.cons_ne_nil _ _, by simpa using hwf.1⟩
    · exact ih hwf.2.2 h
  | link name target rest ih =>
    rw [fileWays] at h
    split_ifs at h
    · rcases List.mem_cons.1 h with rfl | h
      · exact ⟨List.cons_ne_nil _ _, by simpa using hwf.1⟩
      · exact ih hwf.2.2 h
    · exact ih hwf.2.2 h
  | dir name inside rest ihInside ihRest =>
    rw [fileWays] at h
    split_ifs at h
    · exact ihRest hwf.2.2.2 h
    · rcases List.mem_append.1 h with h | h
      · obtain ⟨more, hmore, rfl⟩ := List.mem_map.1 h
        exact ⟨List.cons_ne_nil _ _,
          List.forall_mem_cons.2 ⟨hwf.1, (ihInside hwf.2.2.1 hmore).2⟩⟩
      · exact ihRest hwf.2.2.2 h

/-- Only what is told of the entries matters. -/
theorem fileWays_congr (hwf : l.WellFormed) (h : ∀ way node, (∀ name ∈ way, isName name = true) →
    EntryBelow dir l (dir.below way) node → isFile way = other way) :
    l.fileWays pruned isFile = l.fileWays pruned other := by
  induction l generalizing dir isFile other with
  | empty => rfl
  | file name bytes rest ih =>
    rw [fileWays, fileWays, ih hwf.2.2 fun way node hnames hway => h way node hnames
      ((EntryBelow.cons_iff name (.file bytes)).2 (Or.inr (Or.inr hway)))]
  | link name target rest ih =>
    have hfirst := h [name] (.link target) (by simpa using hwf.1)
      ((EntryBelow.cons_iff name (.link target)).2 (Or.inl ⟨rfl, rfl⟩))
    rw [fileWays, fileWays, hfirst, ih hwf.2.2 fun way node hnames hway => h way node hnames
      ((EntryBelow.cons_iff name (.link target)).2 (Or.inr (Or.inr hway)))]
  | dir name inside rest ihInside ihRest =>
    have hinside : (inside.fileWays pruned fun way => isFile (name :: way)) =
        inside.fileWays pruned fun way => other (name :: way) :=
      ihInside hwf.2.2.1 fun way node hnames hway =>
        h (name :: way) node (List.forall_mem_cons.2 ⟨hwf.1, hnames⟩)
          ((EntryBelow.cons_iff name (.dir inside)).2 (Or.inr (Or.inl ⟨inside, rfl, hway⟩)))
    rw [fileWays, fileWays, hinside, ihRest hwf.2.2.2 fun way node hnames hway => h way node hnames
      ((EntryBelow.cons_iff name (.dir inside)).2 (Or.inr (Or.inr hway)))]

end Listing

namespace World

theorem filesBelow_of_dir {root : Path} {inside : Listing}
    (h : w.stat root = .ok (.dir inside)) :
    w.filesBelow pruned root = w.filesIn pruned root inside := by
  obtain ⟨found, hfound⟩ := exists_linkStat_of_stat h
  rw [filesBelow, hfound]
  cases found with
  | file bytes => cases h.symm.trans (stat_of_linkStat hfound (by simp))
  | link target => simp only [h]
  | dir other =>
    cases h.symm.trans (stat_of_linkStat hfound (by simp))
    rfl

/-- Where no directory has too long a path, the walk lists the files of the listing. -/
theorem filesIn_eq_ok_of_dirs
    (h : ∀ p sub, EntryBelow dir l p (.dir sub) → Utf8.size p.text < Disk.pathLimit) :
    w.filesIn pruned dir l =
      .ok ((l.fileWays pruned fun way => w.isFile (dir.below way)).map dir.below) := by
  induction l generalizing dir with
  | empty => rfl
  | file name bytes rest ih =>
    have hrest := ih fun p sub hp => h p sub
      ((EntryBelow.cons_iff name (.file bytes)).2 (Or.inr (Or.inr hp)))
    rw [filesIn, hrest]
    rfl
  | link name target rest ih =>
    have hrest := ih fun p sub hp => h p sub
      ((EntryBelow.cons_iff name (.link target)).2 (Or.inr (Or.inr hp)))
    have hpath : dir.below [name] = dir.entry name := rfl
    rw [filesIn, hrest, Listing.fileWays, hpath]
    split_ifs with hfile
    · simp [Except.map, hpath]
    · simp [Except.map]
  | dir name inside rest ihInside ihRest =>
    have hshort := h (dir.entry name) inside
      ((EntryBelow.cons_iff name (.dir inside)).2 (Or.inl ⟨rfl, rfl⟩))
    have hinside := ihInside fun p sub hp => h p sub
      ((EntryBelow.cons_iff name (.dir inside)).2 (Or.inr (Or.inl ⟨inside, rfl, hp⟩)))
    have hrest := ihRest fun p sub hp => h p sub
      ((EntryBelow.cons_iff name (.dir inside)).2 (Or.inr (Or.inr hp)))
    rw [filesIn, Listing.fileWays]
    split_ifs with hpruned hlong
    · exact hrest
    · exact absurd hshort (Nat.not_lt.2 hlong)
    · rw [hinside, hrest, List.map_append, List.map_map]
      rfl

/-- Where no path is too long, the walk lists the files of the listing. -/
theorem filesIn_eq_ok (h : ∀ p node, EntryBelow dir l p node → Utf8.size p.text < Disk.pathLimit) :
    w.filesIn pruned dir l =
      .ok ((l.fileWays pruned fun way => w.isFile (dir.below way)).map dir.below) :=
  filesIn_eq_ok_of_dirs fun p sub => h p (.dir sub)

end World

end HeaderCheck
