import HeaderCheck.Proofs.Path.Components

/-! Relative paths of what stands below a directory. Seen from the directory only the names on the
way are left, however the directory is spelled, and joined to the directory they give back the
path to the letter. -/

namespace HeaderCheck.Path

variable {root : Path} {way : List Text} {name : Text}

/-- The path that is spelled by nothing but the names on a way. -/
def ofWay (way : List Text) : Path := ⟨Text.joined '/' way⟩

theorem isBlankPiece_of_isName (h : isName name = true) : isBlankPiece name = false := by
  obtain ⟨hne, hhere, -⟩ := isName_iff.1 h
  simp [isBlankPiece, hne, hhere]

theorem isAbsolute_ofWay (hway : ∀ name ∈ way, isName name = true) :
    (ofWay way).isAbsolute = false := by
  refine (components_joined (slash_notMem_of_forall_isName hway) fun name hname => ?_).1
  exact isBlankPiece_of_isName (hway name (List.mem_of_mem_head? hname))

section Spelling

variable (hne : way ≠ []) (hway : ∀ name ∈ way, isName name = true)
include hne hway

theorem text_below (root : Path) : (root.below way).text = root.stem ++ Text.joined '/' way := by
  induction way generalizing root with
  | nil => exact absurd rfl hne
  | cons name more ih =>
    obtain ⟨hname, hmore⟩ := List.forall_mem_cons.1 hway
    have hslash := slash_notMem_of_isName hname
    rw [below_cons]
    cases more with
    | nil =>
      rw [below_nil, text_entry hslash]
      rfl
    | cons next rest =>
      rw [ih (List.cons_ne_nil next rest) hmore, stem_entry (ne_nil_of_isName hname) hslash,
        Text.joined_cons_cons, List.append_assoc, List.append_assoc, List.singleton_append]

/-- Joined to the directory, the names lead to the same path as when they are taken one by one. -/
theorem join_ofWay (root : Path) : root.join (ofWay way) = root.below way := by
  have htext : (root.join (ofWay way)).text = (root.below way).text := by
    rw [text_join (isAbsolute_ofWay hway), text_below hne hway, ofWay]
  exact congrArg mk htext

/-- The pieces of a path below a directory are those of the directory, less an empty one at the end,
and the names. -/
theorem opened_below (hroot : root.isAbsolute = true) :
    ∃ front blanks, (∀ piece ∈ blanks, isBlankPiece piece = true) ∧
      root.opened = (some .root, front ++ blanks) ∧
      (root.below way).opened = (some .root, front ++ way) := by
  have hne' : root.text ≠ [] := by
    intro hnil
    rw [isAbsolute, hnil] at hroot
    cases hroot
  obtain ⟨front, blanks, hblanks, hopened, hjoined⟩ :=
    opened_join hne' (isAbsolute_ofWay hway)
  rw [join_ofWay hne hway, ofWay, Text.pieces_joined (slash_notMem_of_forall_isName hway) hne]
    at hjoined
  rw [opened_of_isAbsolute hroot] at hopened hjoined
  exact ⟨front, blanks, hblanks, (opened_of_isAbsolute hroot).trans hopened, hjoined⟩

/-- Different ways lead to different paths. -/
theorem eq_of_below_eq {other : List Text} (hother : other ≠ [])
    (hnames : ∀ name ∈ other, isName name = true) (h : root.below way = root.below other) :
    way = other := by
  have htext := congrArg Path.text h
  rw [text_below hne hway, text_below hother hnames] at htext
  have hpieces := congrArg (Text.pieces '/') (List.append_cancel_left htext)
  rwa [Text.pieces_joined (slash_notMem_of_forall_isName hway) hne,
    Text.pieces_joined (slash_notMem_of_forall_isName hnames) hother] at hpieces

end Spelling

theorem filter_isBlankPiece (hway : ∀ name ∈ way, isName name = true) :
    way.filter (!isBlankPiece ·) = way := by
  rw [List.filter_eq_self]
  intro name hname
  rw [isBlankPiece_of_isName (hway name hname)]
  rfl

theorem dropWhile_isBlankPiece (hway : ∀ name ∈ way, isName name = true) :
    way.dropWhile isBlankPiece = way := by
  cases way with
  | nil => rfl
  | cons name more =>
    rw [List.dropWhile_cons_of_neg]
    rw [isBlankPiece_of_isName (hway name List.mem_cons_self)]
    exact Bool.false_ne_true

theorem trimPiecesRight_of_isName (hway : ∀ name ∈ way, isName name = true) :
    trimPiecesRight way = way := by
  have hreverse : ∀ name ∈ way.reverse, isName name = true := by
    intro name hname
    exact hway name (List.mem_reverse.1 hname)
  rw [trimPiecesRight, dropWhile_isBlankPiece hreverse, List.reverse_reverse]

/-- Behind all components of the pieces in front nothing is left of these but blank pieces. -/
theorem dropWhile_piecesBehind (front pieces : List Text) :
    (piecesBehind (front.filter (!isBlankPiece ·)).length (front ++ pieces)).dropWhile
      isBlankPiece = pieces.dropWhile isBlankPiece := by
  induction front with
  | nil => rfl
  | cons piece front ih =>
    by_cases hblank : isBlankPiece piece = true
    · rw [List.filter_cons_of_neg (by simp [hblank]), List.cons_append, ← ih]
      cases (front.filter (!isBlankPiece ·)).length with
      | zero => rw [piecesBehind, piecesBehind, List.dropWhile_cons_of_pos hblank]
      | succ n => rw [piecesBehind, piecesBehind, List.dropWhile_cons_of_pos hblank]
    · rw [List.filter_cons_of_pos (by simp [hblank]), List.length_cons, List.cons_append,
        piecesBehind, List.dropWhile_cons_of_neg hblank, List.tail_cons]
      exact ih

/-- What is below a directory is called by the names on the way to it. -/
theorem relativeTo_below (hroot : root.isAbsolute = true) (hne : way ≠ [])
    (hway : ∀ name ∈ way, isName name = true) : (root.below way).relativeTo root = ofWay way := by
  obtain ⟨front, blanks, hblanks, hopened, hbelow⟩ := opened_below hne hway hroot
  have hnone : blanks.filter (!isBlankPiece ·) = [] := by
    rw [List.filter_eq_nil_iff]
    intro piece hpiece
    simp [hblanks piece hpiece]
  have hcomponents : root.components =
      .root :: (front.filter (!isBlankPiece ·)).map Component.ofPiece := by
    simp [components, hopened, hnone]
  have hwhole : (root.below way).components = root.components ++ way.map Component.ofPiece := by
    rw [hcomponents]
    simp [components, hbelow, filter_isBlankPiece hway]
  have hlength : root.components.length = (front.filter (!isBlankPiece ·)).length + 1 := by
    rw [hcomponents, List.length_cons, List.length_map]
  have hprefix : root.components.isPrefixOf (root.below way).components = true := by
    rw [hwhole, List.isPrefixOf_iff_prefix]
    exact List.prefix_append _ _
  rw [relativeTo, if_pos hprefix, hlength, behind, hbelow]
  simp only [Option.toList_some, List.length_singleton, Nat.add_sub_cancel,
    dropWhile_piecesBehind, dropWhile_isBlankPiece hway, trimPiecesRight_of_isName hway]
  rfl

/-- The components of a spelled way are its names. -/
theorem components_ofWay (hway : ∀ name ∈ way, isName name = true) :
    (ofWay way).components = way.map Component.name := by
  have hcomponents := (components_joined (slash_notMem_of_forall_isName hway)
    fun name hname => isBlankPiece_of_isName (hway name (List.mem_of_mem_head? hname))).2
  rw [ofWay, hcomponents, componentsOf, filter_isBlankPiece hway]
  apply List.map_congr_left
  intro name hname
  obtain ⟨-, -, hup, -⟩ := isName_iff.1 (hway name hname)
  exact if_neg hup

theorem ofWay_inj {other : List Text} (hway : ∀ name ∈ way, isName name = true)
    (hnames : ∀ name ∈ other, isName name = true)
    (h : (ofWay way).components = (ofWay other).components) : ofWay way = ofWay other := by
  rw [components_ofWay hway, components_ofWay hnames] at h
  have hinjective : Function.Injective Component.name := fun _ _ heq => Component.name.inj heq
  rw [List.map_injective_iff.2 hinjective h]

end HeaderCheck.Path
