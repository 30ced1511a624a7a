import HeaderCheck.Boilerplate.Load
import HeaderCheck.Proofs.Disk.Stat

/-! The scanned directory under another spelling. What the scan leaves out of the spelling of a
directory, a `.` at the start and repeated separators, changes neither where the path leads nor
what is found there, and the paths of the entries lead to the entries. -/

namespace HeaderCheck

theorem Utf8.size_le_of_sublist {s t : Text} (h : s.Sublist t) : size s ≤ size t := by
  induction h with
  | slnil => exact Nat.le_refl _
  | cons c _ ih =>
    rw [size]
    omega
  | cons_cons c _ ih =>
    rw [size, size]
    omega

namespace Path

variable {dir spelled seen p : Path} {pieces : List Text} {name : Text}

section Pieces

variable (hpieces : ∀ piece ∈ pieces, '/' ∉ piece)
include hpieces

theorem getLast?_below (hseen : seen.text ≠ []) :
    (seen.below pieces).text.getLast? = some '/' ↔
      if pieces = [] then seen.text.getLast? = some '/' else pieces.getLast? = some [] := by
  induction pieces generalizing seen with
  | nil => simp
  | cons piece more ih =>
    obtain ⟨hpiece, hmore⟩ := List.forall_mem_cons.1 hpieces
    rw [below_cons, ih hmore (entry_ne_nil_of_dir hseen hpiece), if_neg (List.cons_ne_nil _ _)]
    split_ifs with hnil
    · subst hnil
      by_cases hempty : piece = []
      · subst hempty
        rw [text_entry hpiece, List.append_nil, stem]
        split_ifs with hstem
        · simp [hstem.resolve_left hseen]
        · simp
      · simp [getLast?_entry hempty hpiece, hempty]
    · rw [List.getLast?_cons_of_ne_nil hnil]

theorem below_sublist (seen : Path) :
    (seen.below pieces).text.Sublist (seen.text ++ pieces.flatMap ('/' :: ·)) := by
  induction pieces generalizing seen with
  | nil => simp
  | cons piece more ih =>
    obtain ⟨hpiece, hmore⟩ := List.forall_mem_cons.1 hpieces
    refine (ih hmore (seen.entry piece)).trans ?_
    rw [List.flatMap_cons, ← List.append_assoc, text_entry hpiece, stem]
    refine List.Sublist.append_right ?_ _
    split_ifs
    · exact List.Sublist.append_left (List.sublist_cons_self _ _) _
    · simp

end Pieces

/-- The way that the path describes, spelled with no more than what it is spelled with, and without
steps to the directory itself that stand before another step. -/
structure Respelling (dir spelled : Path) : Prop where
  isAbsolute : spelled.isAbsolute = dir.isAbsolute
  ne_nil : spelled.text ≠ []
  sublist : spelled.text.Sublist dir.text
  ends : spelled.text.getLast? = some '/' ↔ dir.text.getLast? = some '/'
  ways : ∃ k, dir.ways = List.replicate k ['.'] ++ spelled.ways ∧ (k ≠ 0 → spelled.ways ≠ [])

namespace Respelling

theorem dir_ne_nil (h : Respelling dir spelled) : dir.text ≠ [] := fun hnil =>
  h.ne_nil (List.sublist_nil.1 (hnil ▸ h.sublist))

theorem steps (h : Respelling dir spelled) :
    ∃ k, dir.steps = List.replicate k ['.'] ++ spelled.steps ∧ (k ≠ 0 → spelled.steps ≠ []) := by
  obtain ⟨k, hways, hne⟩ := h.ways
  have hnil : dir.ways = [] ↔ spelled.ways = [] := by
    rw [hways, List.append_eq_nil_iff, List.replicate_eq_nil_iff, and_iff_right_iff_imp]
    exact fun hnil => by_contra fun hk => hne hk hnil
  refine ⟨k, ?_, fun hk hnil => ?_⟩
  · simp only [steps_eq_ite, h.ends, ne_eq, hnil]
    split_ifs
    · rw [hways, List.append_assoc]
    · exact hways
  · rw [steps_eq_ite] at hnil
    split_ifs at hnil
    · simp at hnil
    · exact hne hk hnil

theorem usable (h : Respelling dir spelled) (hdir : dir.Usable) : spelled.Usable where
  ne_nil := h.ne_nil
  noNul := fun hmem => hdir.noNul (h.sublist.mem hmem)
  short := Nat.lt_of_le_of_lt (Utf8.size_le_of_sublist h.sublist) hdir.short

end Respelling

end Path

theorem Disk.reach_replicate_here {d : Disk} {last : Bool} {steps : List Text} (k : ℕ)
    (h : k ≠ 0 → steps ≠ []) (here : Standpoint) :
    d.reach last here (List.replicate k ['.'] ++ steps) = d.reach last here steps := by
  induction k with
  | zero => rfl
  | succ k ih =>
    have hsteps := h (Nat.succ_ne_zero k)
    rw [List.replicate_succ', List.append_assoc, List.singleton_append,
      reach_append_here hsteps, ih fun _ => hsteps]

theorem Path.Respelling.reach_eq {dir spelled : Path} (h : Respelling dir spelled) (d : Disk)
    (last : Bool) (here : Standpoint) :
    d.reach last (spelled.start here) spelled.steps = d.reach last (dir.start here) dir.steps := by
  obtain ⟨k, hsteps, hne⟩ := h.steps
  rw [hsteps, Disk.reach_replicate_here k hne, start, start, h.isAbsolute]

/-- What the path names, the other spelling names, and where the one fails, so does the other. -/
theorem World.stat_respelling {w : World} {dir spelled : Path} (h : dir.Respelling spelled)
    (husable : dir.Usable) : w.stat spelled = w.stat dir := by
  rw [stat, stat, Disk.resolve_of_usable (h.usable husable), Disk.resolve_of_usable husable,
    h.reach_eq]

theorem World.stat_respelled {w : World} {dir spelled : Path} {node : Node}
    (h : dir.Respelling spelled) (hstat : w.stat dir = .ok node) : w.stat spelled = .ok node := by
  rw [stat_respelling h (usable_of_stat hstat)]
  exact hstat

section Scanned

variable {dir spelled seen : Path} {pieces : List Text} {name : Text}

/-- One step of the scan's spelling: once a name has been seen, each piece is spelled behind it. -/
theorem foldlM_scanned (hpieces : ∀ piece ∈ pieces, '/' ∉ piece) (hseen : seen.text ≠ [])
    (hhere : seen.text ≠ ['.']) :
    pieces.foldlM (fun seen piece =>
      if seen.text = ['.'] then (if piece = [] then none else some ⟨piece⟩)
      else some (seen.entry piece)) seen = some (seen.below pieces) := by
  induction pieces generalizing seen with
  | nil => rfl
  | cons piece more ih =>
    obtain ⟨hpiece, hmore⟩ := List.forall_mem_cons.1 hpieces
    have hslash : '/' ∈ (seen.entry piece).text := by
      rw [Path.text_entry hpiece]
      exact List.mem_append_left _ (Path.slash_mem_stem hseen)
    have hentry : (seen.entry piece).text ≠ ['.'] := fun hdot => by simp [hdot] at hslash
    rw [List.foldlM_cons, if_neg hhere, Path.below_cons]
    exact ih hmore (Path.entry_ne_nil_of_dir hseen hpiece) hentry

/-- Before that, every `.` goes away. -/
theorem foldlM_scanned_here (hpieces : ∀ piece ∈ pieces, '/' ∉ piece)
    (h : pieces.foldlM (fun seen piece =>
      if seen.text = ['.'] then (if piece = [] then none else some ⟨piece⟩)
      else some (seen.entry piece)) (⟨['.']⟩ : Path) = some spelled) :
    (∃ k, pieces = List.replicate k ['.'] ∧ spelled = ⟨['.']⟩) ∨
    ∃ k first more, pieces = List.replicate k ['.'] ++ first :: more ∧ first ≠ [] ∧
      spelled = Path.below ⟨first⟩ more := by
  induction pieces with
  | nil => exact Or.inl ⟨0, rfl, (Option.some.inj h).symm⟩
  | cons piece more ih =>
    obtain ⟨hpiece, hmore⟩ := List.forall_mem_cons.1 hpieces
    by_cases hnil : piece = []
    · simp [List.foldlM_cons, hnil] at h
    by_cases hdot : piece = ['.']
    · subst hdot
      rcases ih hmore h with ⟨k, rfl, hspelled⟩ | ⟨k, first, after, rfl, hfirst, hspelled⟩
      · exact Or.inl ⟨k + 1, rfl, hspelled⟩
      · exact Or.inr ⟨k + 1, first, after, rfl, hfirst, hspelled⟩
    · rw [List.foldlM_cons, if_pos rfl, if_neg hnil] at h
      refine Or.inr ⟨0, piece, more, rfl, hnil, ?_⟩
      exact (Option.some.inj ((foldlM_scanned hmore hnil hdot).symm.trans h)).symm

theorem respelling_of_absolute {tail first : Text} {more : List Text}
    (hpieces : Text.pieces '/' tail = first :: more) :
    Path.Respelling ⟨'/' :: tail⟩ (Path.below ⟨['/']⟩ (first :: more)) := by
  have hslash : ∀ piece ∈ first :: more, '/' ∉ piece := fun piece hpiece =>
    Text.notMem_of_mem_pieces (hpieces ▸ hpiece)
  obtain ⟨hfirst, hmore⟩ := List.forall_mem_cons.1 hslash
  have hne : (Path.mk ['/']).text ≠ [] := List.cons_ne_nil _ _
  refine ⟨Path.isAbsolute_below hne hslash, Path.below_ne_nil hne hslash, ?_, ?_,
    0, ?_, fun hk => absurd rfl hk⟩
  · have htail : tail = first ++ more.flatMap ('/' :: ·) := by
      rw [← Text.joined_cons_eq, ← hpieces, Text.joined_pieces]
    have hentry : (Path.entry ⟨['/']⟩ first).text = '/' :: first := by
      rw [Path.text_entry hfirst]
      rfl
    rw [htail, Path.below_cons, ← List.cons_append, ← hentry]
    exact Path.below_sublist hmore _
  · have hdir := Text.getLast?_pieces_eq_nil_iff '/' (List.cons_ne_nil '/' tail)
    rw [Path.getLast?_below hslash hne, if_neg (List.cons_ne_nil _ _), ← hdir, ← hpieces,
      Text.pieces, if_pos rfl, List.getLast?_cons_of_ne_nil (Text.pieces_ne_nil '/' tail)]
  · rw [Path.ways_below hslash, List.replicate_zero, List.nil_append, ← hpieces]
    simp [Path.ways, Text.pieces]

theorem respelling_of_here {k : ℕ} (hpieces : Text.pieces '/' dir.text = List.replicate k ['.'])
    (hrelative : dir.isAbsolute = false) : dir.Respelling ⟨['.']⟩ := by
  obtain _ | k := k
  · exact absurd hpieces (Text.pieces_ne_nil '/' dir.text)
  have htext : dir.text = ['.'] ++ (List.replicate k ['.']).flatMap ('/' :: ·) := by
    rw [← Text.joined_cons_eq, ← List.replicate_succ, ← hpieces, Text.joined_pieces]
  have hne : dir.text ≠ [] := by simp [htext]
  refine ⟨hrelative.symm, List.cons_ne_nil _ _, ?_, ?_, k, ?_, fun _ => by decide⟩
  · rw [htext]
    exact List.sublist_append_left _ _
  · rw [← Text.getLast?_pieces_eq_nil_iff '/' hne, hpieces, List.getLast?_replicate]
    simp
  · have hways : Path.ways ⟨['.']⟩ = [['.']] := by decide
    rw [hways, ← List.replicate_succ', ← hpieces, Path.ways, List.filter_eq_self]
    intro piece hpiece
    rw [hpieces] at hpiece
    simp [List.eq_of_mem_replicate hpiece]

theorem respelling_of_first {k : ℕ} {first : Text} {more : List Text}
    (hpieces : Text.pieces '/' dir.text = List.replicate k ['.'] ++ first :: more)
    (hfirst : first ≠ []) (hrelative : dir.isAbsolute = false) :
    dir.Respelling (Path.below ⟨first⟩ more) := by
  have hslash : ∀ piece ∈ first :: more, '/' ∉ piece := fun piece hpiece =>
    Text.notMem_of_mem_pieces (hpieces ▸ List.mem_append_right _ hpiece)
  obtain ⟨hhead, hmore⟩ := List.forall_mem_cons.1 hslash
  have hways : Path.ways ⟨first⟩ = [first] := by
    simp [Path.ways, Text.pieces_of_not_mem hhead, hfirst]
  have hsub : (first ++ more.flatMap ('/' :: ·)).Sublist dir.text := by
    rw [← Text.joined_pieces '/' dir.text, hpieces, ← Text.joined_cons_eq]
    exact Text.joined_sublist_append '/' _ _
  have hne : dir.text ≠ [] := fun hnil => by
    rw [hnil, List.sublist_nil] at hsub
    exact List.append_ne_nil_of_left_ne_nil hfirst _ hsub
  refine ⟨?_, Path.below_ne_nil hfirst hmore, (Path.below_sublist hmore _).trans hsub,
    ?_, k, ?_, fun _ => ?_⟩
  · rw [Path.isAbsolute_below hfirst hmore, Path.isAbsolute_of_no_slash hhead, hrelative]
  · have hlast : first.getLast? ≠ some '/' := fun hl => hhead (List.mem_of_getLast? hl)
    rw [Path.getLast?_below hmore hfirst, ← Text.getLast?_pieces_eq_nil_iff '/' hne, hpieces,
      List.getLast?_append_of_ne_nil _ (List.cons_ne_nil _ _)]
    split_ifs with hnil
    · simp [hnil, hfirst, hlast]
    · rw [List.getLast?_cons_of_ne_nil hnil]
  · rw [Path.ways_below hmore, hways, Path.ways, hpieces, List.filter_append,
      List.filter_cons_of_pos (by simpa using hfirst), List.singleton_append]
    congr 1
    rw [List.filter_eq_self]
    intro piece hpiece
    simp [List.eq_of_mem_replicate hpiece]
  · rw [Path.ways_below hmore, hways]
    exact List.append_ne_nil_of_left_ne_nil (List.cons_ne_nil _ _) _

/-- The scan spells the directory anew and does not leave it for another. -/
theorem respelling_of_scanned? (h : scanned? dir = some spelled) : dir.Respelling spelled := by
  unfold scanned? at h
  cases habs : dir.isAbsolute with
  | true =>
    obtain ⟨tail, hdir⟩ : ∃ tail, dir = ⟨'/' :: tail⟩ := by
      obtain ⟨text⟩ := dir
      cases text with
      | nil => cases habs
      | cons c tail =>
        have hc : c = '/' := by simpa [Path.isAbsolute] using habs
        exact ⟨tail, by rw [hc]⟩
    subst hdir
    obtain ⟨first, more, hpieces⟩ := List.exists_cons_of_ne_nil (Text.pieces_ne_nil '/' tail)
    have hslash : ∀ piece ∈ first :: more, '/' ∉ piece := fun piece hpiece =>
      Text.notMem_of_mem_pieces (hpieces ▸ hpiece)
    simp only [habs, if_true, List.tail_cons, hpieces] at h
    rw [foldlM_scanned hslash (by simp) (by simp)] at h
    cases h
    exact respelling_of_absolute hpieces
  | false =>
    simp only [habs, Bool.false_eq_true, if_false] at h
    rcases foldlM_scanned_here (fun piece => Text.notMem_of_mem_pieces) h with
      ⟨k, hpieces, rfl⟩ | ⟨k, first, more, hpieces, hfirst, rfl⟩
    · exact respelling_of_here hpieces habs
    · exact respelling_of_first hpieces hfirst habs

theorem Path.Respelling.stem_sublist (h : dir.Respelling spelled) :
    spelled.stem.Sublist dir.stem := by
  rw [stem, stem]
  simp only [h.ne_nil, h.dir_ne_nil, h.ends, false_or]
  split_ifs
  · exact h.sublist
  · exact h.sublist.append_right _

/-- And so it is with the entries. -/
theorem respelling_entry (h : dir.Respelling spelled) (hname : isName name = true) :
    (dir.entry name).Respelling (scannedEntry spelled name) := by
  obtain ⟨hne, -, -, hslash, -⟩ := isName_iff.1 hname
  obtain ⟨k, hways, hk⟩ := h.ways
  have hfilter : [name].filter (· != []) = [name] := by simp [hne]
  have hends := Path.getLast?_entry hne hslash
  have hdir := Path.isAbsolute_entry_eq h.dir_ne_nil hslash
  unfold scannedEntry
  split_ifs with hhere
  · have hspelled : spelled.ways = [['.']] := by
      rw [Path.ways, hhere]
      decide
    have hself : Path.ways ⟨name⟩ = [name] := by
      simp [Path.ways, Text.pieces_of_not_mem hslash, hne]
    refine ⟨?_, hne, ?_, ?_, k + 1, ?_, fun _ => by simp [hself]⟩
    · rw [hdir, ← h.isAbsolute, Path.isAbsolute_of_no_slash hslash, Path.isAbsolute, hhere]
      rfl
    · rw [Path.text_entry hslash]
      exact List.sublist_append_right _ _
    · simp only [hends, iff_false]
      exact fun hl => hslash (List.mem_of_getLast? hl)
    · rw [Path.ways_entry hslash, hways, hspelled, hself, hfilter, List.replicate_succ']
  · refine ⟨?_, Path.entry_ne_nil_of_dir h.ne_nil hslash, ?_, ?_, k, ?_, fun _ => ?_⟩
    · rw [hdir, ← h.isAbsolute, Path.isAbsolute_entry_eq h.ne_nil hslash]
    · rw [Path.text_entry hslash, Path.text_entry hslash]
      exact h.stem_sublist.append_right _
    · simp only [hends]
    · rw [Path.ways_entry hslash, Path.ways_entry hslash, hways, List.append_assoc]
    · rw [Path.ways_entry hslash, hfilter]
      simp

end Scanned

namespace World

variable {w : World} {dir spelled : Path} {listing : Listing} {name : Text} {node : Node}

theorem readDir_eq_ok_iff : w.readDir dir = .ok listing ↔ w.stat dir = .ok (.dir listing) := by
  rw [readDir, bind_eq_ok_iff]
  refine ⟨?_, fun hstat => ⟨.dir listing, hstat, rfl⟩⟩
  intro h
  obtain ⟨node, hstat, hnode⟩ := h
  cases node with
  | file bytes => cases hnode
  | link target => cases hnode
  | dir inside =>
    cases hnode
    exact hstat

/-- The scan finds what the directory holds. -/
theorem readDir_of_scanned? (hscan : scanned? dir = some spelled)
    (h : w.readDir dir = .ok listing) : w.readDir spelled = .ok listing := by
  rw [readDir_eq_ok_iff] at h ⊢
  exact stat_respelled (respelling_of_scanned? hscan) h

/-- At the path under which the scan reads an entry stands the entry. -/
theorem linkStat_scannedEntry (hscan : scanned? dir = some spelled)
    (h : w.readDir dir = .ok listing) (hmem : (name, node) ∈ listing.entries)
    (hsize : Utf8.size (scannedEntry spelled name).text < Disk.pathLimit) :
    w.linkStat (scannedEntry spelled name) = .ok node := by
  rw [readDir_eq_ok_iff] at h
  have hname := (wellFormed_of_stat h).isName_of_mem hmem
  have hrespelled := respelling_entry (respelling_of_scanned? hscan) hname
  have hnul := Path.noNul_entry (usable_of_stat h).noNul hname
  obtain ⟨loc, hreach, hfound⟩ := reach_entry_of_stat h hmem fun _ _ => rfl
  have husable : (scannedEntry spelled name).Usable :=
    ⟨hrespelled.ne_nil, fun hc => hnul (hrespelled.sublist.mem hc), hsize⟩
  refine linkStat_eq_ok_iff.2 ⟨husable, .on (loc ++ [name]), ?_, hfound⟩
  rw [hrespelled.reach_eq]
  exact hreach

end World

end HeaderCheck
