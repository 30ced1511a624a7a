import HeaderCheck.Path.Relative
import HeaderCheck.Proofs.Path.Below

/-! The components of a path that is put together from pieces, and of one that is joined to a
directory. What is relative to a directory has the components of the path that are left behind
those of the directory, and joined to the directory it has all of them. -/

namespace HeaderCheck.Path

/-- The components that pieces make, none for a blank one. -/
def componentsOf (pieces : List Text) : List Component :=
  (pieces.filter (!isBlankPiece ·)).map Component.ofPiece

theorem components_eq (p : Path) :
    p.components = p.opened.1.toList ++ componentsOf p.opened.2 := rfl

theorem componentsOf_append (front pieces : List Text) :
    componentsOf (front ++ pieces) = componentsOf front ++ componentsOf pieces := by
  rw [componentsOf, List.filter_append, List.map_append, componentsOf, componentsOf]

theorem componentsOf_of_blank {pieces : List Text}
    (h : ∀ piece ∈ pieces, isBlankPiece piece = true) : componentsOf pieces = [] := by
  rw [componentsOf, List.filter_eq_nil_iff.2 fun piece hpiece => by simp [h piece hpiece],
    List.map_nil]

theorem componentsOf_cons_blank {piece : Text} (h : isBlankPiece piece = true)
    (pieces : List Text) : componentsOf (piece :: pieces) = componentsOf pieces := by
  rw [componentsOf, List.filter_cons_of_neg (by simp [h]), componentsOf]

theorem componentsOf_cons {piece : Text} (h : isBlankPiece piece = false) (pieces : List Text) :
    componentsOf (piece :: pieces) = Component.ofPiece piece :: componentsOf pieces := by
  rw [componentsOf, List.filter_cons_of_pos (by simp [h]), List.map_cons, componentsOf]

theorem root_notMem_componentsOf (pieces : List Text) : .root ∉ componentsOf pieces := by
  intro h
  obtain ⟨piece, -, hpiece⟩ := List.mem_map.1 h
  unfold Component.ofPiece at hpiece
  split_ifs at hpiece

/-- The components tell whether a path is absolute. -/
theorem isAbsolute_iff_head? {p : Path} :
    p.isAbsolute = true ↔ p.components.head? = some .root := by
  rw [components_eq, opened]
  split_ifs with habs
  · exact iff_of_true habs rfl
  · refine iff_of_false habs ?_
    split
    · simp
    · exact fun h => root_notMem_componentsOf _ (List.mem_of_mem_head? h)

theorem isAbsolute_congr {p q : Path} (h : p.components = q.components) :
    p.isAbsolute = q.isAbsolute := by
  rw [Bool.eq_iff_iff, isAbsolute_iff_head?, isAbsolute_iff_head?, h]

section Join

theorem opened_append_sep {base : Text} (hne : base ≠ []) (t : Text) :
    (mk (base ++ '/' :: t)).opened =
      ((mk base).opened.1, (mk base).opened.2 ++ Text.pieces '/' t) := by
  obtain ⟨c, base, rfl⟩ := List.exists_cons_of_ne_nil hne
  have habs : (mk (c :: base ++ '/' :: t)).isAbsolute = (mk (c :: base)).isAbsolute := rfl
  rw [opened, opened, habs]
  split_ifs
  · rw [List.cons_append, List.tail_cons, List.tail_cons, Text.pieces_append_sep]
  · rw [Text.pieces_append_sep]
    obtain ⟨first, rest, hpieces⟩ :=
      List.exists_cons_of_ne_nil (Text.pieces_ne_nil '/' (c :: base))
    rw [hpieces, List.cons_append]
    split
    · next more heq =>
      obtain ⟨rfl, rfl⟩ := List.cons.inj heq
      rfl
    · next hnot =>
      split
      · next more heq => exact absurd (congrArg (· ++ _) heq) (hnot _)
      · rfl

/-- The pieces of a joined path are those of the directory, less an empty one at the end, and those
of the path that is joined to it. -/
theorem opened_join {root q : Path} (hne : root.text ≠ []) (hq : q.isAbsolute = false) :
    ∃ front blanks, (∀ piece ∈ blanks, isBlankPiece piece = true) ∧
      root.opened = (root.opened.1, front ++ blanks) ∧
      (root.join q).opened = (root.opened.1, front ++ Text.pieces '/' q.text) := by
  obtain ⟨text⟩ := root
  have hjoin : (mk text).join q = ⟨(mk text).stem ++ q.text⟩ := congrArg mk (text_join hq _)
  by_cases hends : text.getLast? = some '/'
  · rw [hjoin, stem, if_pos (Or.inr hends)]
    obtain ⟨base, rfl⟩ := List.getLast?_eq_some_iff.1 hends
    rw [List.append_assoc, List.singleton_append]
    by_cases hbase : base = []
    · -- the directory is the root of the disk
      subst hbase
      exact ⟨[], [[]], by simp [isBlankPiece], rfl, rfl⟩
    · rw [opened_append_sep hbase, opened_append_sep hbase]
      exact ⟨(mk base).opened.2, [[]], by simp [isBlankPiece], rfl, rfl⟩
  · rw [hjoin, stem, if_neg (not_or.2 ⟨hne, hends⟩), List.append_assoc, List.singleton_append,
      opened_append_sep hne]
    exact ⟨(mk text).opened.2, [], by simp, by rw [List.append_nil], rfl⟩

theorem components_join {root q : Path} (hne : root.text ≠ []) (hq : q.isAbsolute = false) :
    (root.join q).components = root.components ++ componentsOf (Text.pieces '/' q.text) := by
  obtain ⟨front, blanks, hblanks, hroot, hjoin⟩ := opened_join hne hq
  rw [components_eq, components_eq, hroot, hjoin, componentsOf_append, componentsOf_append,
    componentsOf_of_blank hblanks, List.append_nil, List.append_assoc]

end Join

section Pieces

variable {pieces : List Text}

theorem componentsOf_pieces_joined (h : ∀ piece ∈ pieces, '/' ∉ piece) :
    componentsOf (Text.pieces '/' (Text.joined '/' pieces)) = componentsOf pieces := by
  by_cases hne : pieces = []
  · subst hne
    rfl
  · rw [Text.pieces_joined h hne]

/-- A text of pieces of which the first one is not blank opens with nothing else. -/
theorem components_joined (h : ∀ piece ∈ pieces, '/' ∉ piece)
    (hhead : ∀ piece ∈ pieces.head?, isBlankPiece piece = false) :
    (mk (Text.joined '/' pieces)).isAbsolute = false ∧
      (mk (Text.joined '/' pieces)).components = componentsOf pieces := by
  cases pieces with
  | nil => exact ⟨rfl, rfl⟩
  | cons first more =>
    have hfirst : isBlankPiece first = false := hhead first rfl
    have hslash := h first List.mem_cons_self
    have habs : (mk (Text.joined '/' (first :: more))).isAbsolute = false := by
      cases first with
      | nil => cases hfirst
      | cons c first =>
        rw [isAbsolute, Text.joined_cons_eq, List.cons_append, List.head?_cons]
        simpa using (List.ne_of_not_mem_cons hslash).symm
    refine ⟨habs, ?_⟩
    rw [components_eq, opened, if_neg (by simp [habs]),
      Text.pieces_joined h (List.cons_ne_nil first more)]
    split
    · next heq =>
      obtain ⟨rfl, -⟩ := List.cons.inj heq
      cases hfirst
    · rfl

theorem trimPiecesRight_prefix_self (pieces : List Text) : trimPiecesRight pieces <+: pieces := by
  rw [trimPiecesRight, ← List.reverse_suffix, List.reverse_reverse]
  exact List.dropWhile_suffix _

theorem componentsOf_dropWhile (pieces : List Text) :
    componentsOf (pieces.dropWhile isBlankPiece) = componentsOf pieces := by
  induction pieces with
  | nil => rfl
  | cons piece pieces ih =>
    by_cases hblank : isBlankPiece piece = true
    · rw [List.dropWhile_cons_of_pos hblank, ih, componentsOf_cons_blank hblank]
    · rw [List.dropWhile_cons_of_neg hblank]

theorem componentsOf_trimPiecesRight (pieces : List Text) :
    componentsOf (trimPiecesRight pieces) = componentsOf pieces := by
  have hreverse (ps : List Text) : componentsOf ps.reverse = (componentsOf ps).reverse := by
    rw [componentsOf, List.filter_reverse, List.map_reverse, componentsOf]
  rw [trimPiecesRight, hreverse, componentsOf_dropWhile, hreverse, List.reverse_reverse]

theorem componentsOf_piecesBehind (n : ℕ) (pieces : List Text) :
    componentsOf (piecesBehind n pieces) = (componentsOf pieces).drop n := by
  induction n generalizing pieces with
  | zero => rfl
  | succ n ih =>
    rw [piecesBehind, ih, ← componentsOf_dropWhile pieces]
    have hhead := List.head?_dropWhile_not isBlankPiece pieces
    cases hpieces : pieces.dropWhile isBlankPiece with
    | nil => simp [componentsOf]
    | cons piece more =>
      rw [hpieces] at hhead
      rw [componentsOf_cons (by simpa using hhead), List.tail_cons, List.drop_succ_cons]

theorem mem_of_mem_piecesBehind {n : ℕ} {piece : Text} (h : piece ∈ piecesBehind n pieces) :
    piece ∈ pieces := by
  induction n generalizing pieces with
  | zero => exact h
  | succ n ih => exact (List.dropWhile_suffix _).mem (List.mem_of_mem_tail (ih h))

end Pieces

section Relative

variable {p root : Path}

theorem opened_of_isAbsolute (hp : p.isAbsolute = true) :
    p.opened = (some .root, Text.pieces '/' p.text.tail) := by
  rw [opened, if_pos hp]

theorem components_trimmedRight (hp : p.isAbsolute = true) :
    p.trimmedRight.isAbsolute = true ∧ p.trimmedRight.components = p.components := by
  have hopened := opened_of_isAbsolute hp
  have htrimmed : p.trimmedRight =
      ⟨'/' :: Text.joined '/' (trimPiecesRight (Text.pieces '/' p.text.tail))⟩ := by
    rw [trimmedRight, hopened]
  have habs : p.trimmedRight.isAbsolute = true := by rw [htrimmed, isAbsolute]; rfl
  have hslash : ∀ piece ∈ trimPiecesRight (Text.pieces '/' p.text.tail), '/' ∉ piece :=
    fun piece hpiece => Text.notMem_of_mem_pieces ((trimPiecesRight_prefix_self _).subset hpiece)
  refine ⟨habs, ?_⟩
  rw [components_eq, components_eq, opened_of_isAbsolute habs, hopened, htrimmed, List.tail_cons,
    componentsOf_pieces_joined hslash, componentsOf_trimPiecesRight]

/-- Behind its first components, the root among them, an absolute path is spelled by pieces. -/
theorem exists_pieces_behind (hp : p.isAbsolute = true) (n : ℕ) :
    ∃ pieces, p.behind (n + 1) = ⟨Text.joined '/' pieces⟩ ∧ (∀ piece ∈ pieces, '/' ∉ piece) ∧
      (∀ piece ∈ pieces.head?, isBlankPiece piece = false) ∧
      componentsOf pieces = p.components.drop (n + 1) := by
  have hopened := opened_of_isAbsolute hp
  have hbehind : p.behind (n + 1) = ⟨Text.joined '/' (trimPiecesRight
      ((piecesBehind n (Text.pieces '/' p.text.tail)).dropWhile isBlankPiece))⟩ := by
    rw [behind, hopened]
    rfl
  refine ⟨_, hbehind, ?_, ?_, ?_⟩
  · intro piece hpiece
    have hleft := (List.dropWhile_suffix _).mem ((trimPiecesRight_prefix_self _).subset hpiece)
    exact Text.notMem_of_mem_pieces (mem_of_mem_piecesBehind hleft)
  · intro piece hpiece
    obtain ⟨more, hmore⟩ := List.head?_eq_some_iff.1 hpiece
    obtain ⟨rest, hrest⟩ := trimPiecesRight_prefix_self
      ((piecesBehind n (Text.pieces '/' p.text.tail)).dropWhile isBlankPiece)
    have hhead := List.head?_dropWhile_not isBlankPiece
      (piecesBehind n (Text.pieces '/' p.text.tail))
    rw [← hrest, hmore] at hhead
    simpa using hhead
  · rw [componentsOf_trimPiecesRight, componentsOf_dropWhile, componentsOf_piecesBehind,
      components_eq, hopened]
    rfl

/-- Seen from a root, an absolute path stays absolute and has the same components, or it is relative
and has the components behind those of the root. -/
theorem relativeTo_cases (hp : p.isAbsolute = true) (root : Path) :
    ((p.relativeTo root).isAbsolute = true ∧ (p.relativeTo root).components = p.components) ∨
    ((p.relativeTo root).isAbsolute = false ∧
      p.components = root.components ++ (p.relativeTo root).components ∧
      (root.join (p.relativeTo root)).components = p.components) := by
  rw [relativeTo]
  split_ifs with hprefix
  · rw [List.isPrefixOf_iff_prefix] at hprefix
    cases hroot : root.components with
    | nil => exact Or.inl (components_trimmedRight hp)
    | cons first more =>
      have habs : root.isAbsolute = true := by
        obtain ⟨rest, hrest⟩ := hprefix
        rw [isAbsolute_iff_head?, ← hrest, hroot] at hp
        rw [isAbsolute_iff_head?, hroot]
        exact hp
      have hne : root.text ≠ [] := by
        intro hnil
        rw [isAbsolute, hnil] at habs
        cases habs
      obtain ⟨pieces, hbehind, hslash, hhead, hpieces⟩ := exists_pieces_behind hp more.length
      obtain ⟨hrelative, hcomponents⟩ := components_joined hslash hhead
      have hsplit : p.components = root.components ++ componentsOf pieces := by
        rw [hpieces, ← List.length_cons, ← hroot]
        exact (List.prefix_iff_eq_append.1 hprefix).symm
      rw [List.length_cons, hbehind]
      refine Or.inr ⟨hrelative, ?_, ?_⟩
      · rw [hcomponents, hsplit, hroot]
      · rw [components_join hne hrelative, componentsOf_pieces_joined hslash, hsplit]
  · exact Or.inl ⟨hp, rfl⟩

/-- Joined to the root, what is relative to it is the path again, component by component. -/
theorem components_join_relativeTo (hp : p.isAbsolute = true) (root : Path) :
    (root.join (p.relativeTo root)).components = p.components := by
  rcases relativeTo_cases hp root with ⟨habs, hcomponents⟩ | ⟨-, -, hjoined⟩
  · rw [join_of_isAbsolute habs, hcomponents]
  · exact hjoined

/-- Paths that look the same from a root are the same. -/
theorem components_eq_of_relativeTo {q : Path} (hp : p.isAbsolute = true)
    (hq : q.isAbsolute = true)
    (h : (p.relativeTo root).components = (q.relativeTo root).components) :
    p.components = q.components := by
  have habs := isAbsolute_congr h
  rcases relativeTo_cases hp root with ⟨hpabs, hpcomponents⟩ | ⟨hprel, hpcomponents, -⟩
  · rcases relativeTo_cases hq root with ⟨-, hqcomponents⟩ | ⟨hqrel, -⟩
    · rw [← hpcomponents, h, hqcomponents]
    · rw [hpabs, hqrel] at habs
      cases habs
  · rcases relativeTo_cases hq root with ⟨hqabs, -⟩ | ⟨-, hqcomponents, -⟩
    · rw [hprel, hqabs] at habs
      cases habs
    · rw [hpcomponents, h, ← hqcomponents]

end Relative

end HeaderCheck.Path
