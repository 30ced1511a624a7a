import HeaderCheck.FileKey
import HeaderCheck.Proofs.Disk.Listing
import HeaderCheck.Proofs.Path.Entry
import HeaderCheck.Proofs.Text.Pieces

/-! Paths below a directory, by the names that lead to them. The last name is that of the file, and
a fragment without a separator stands in the directory or in one of the names. -/

namespace HeaderCheck

namespace Text

variable {s t fragment : Text}

theorem prefix_of_prefix_append_sep {sep : Char} (hsep : sep ∉ fragment)
    (h : fragment <+: s ++ sep :: t) : fragment <+: s := by
  rcases Nat.lt_or_ge s.length fragment.length with hlong | hshort
  · have hfront : s ++ [sep] <+: s ++ sep :: t := ⟨t, by simp⟩
    have hle : (s ++ [sep]).length ≤ fragment.length := by simpa using Nat.succ_le_of_lt hlong
    have hmem : sep ∈ s ++ [sep] := List.mem_append_right s (List.mem_singleton_self sep)
    exact absurd ((List.prefix_of_prefix_length_le hfront h hle).subset hmem) hsep
  · exact List.prefix_of_prefix_length_le h (List.prefix_append s _) hshort

/-- A fragment without the separator does not reach over it. -/
theorem infix_append_sep_iff {sep : Char} (hne : fragment ≠ []) (hsep : sep ∉ fragment) :
    fragment <:+: s ++ sep :: t ↔ fragment <:+: s ∨ fragment <:+: t := by
  induction s with
  | nil =>
    have hhead : ¬ fragment <+: sep :: t := fun h =>
      hne (List.prefix_nil.1 (prefix_of_prefix_append_sep (s := []) hsep h))
    simp [List.infix_cons_iff, hhead, hne]
  | cons c s ih =>
    have hhead : fragment <+: c :: (s ++ sep :: t) ↔ fragment <+: c :: s :=
      ⟨prefix_of_prefix_append_sep (s := c :: s) hsep,
        fun h => h.trans (List.prefix_append (c :: s) _)⟩
    rw [List.cons_append, List.infix_cons_iff, List.infix_cons_iff, ih, hhead, or_assoc]

end Text

namespace Path

/-- The path of what the names lead to, one after another, from the directory. -/
def below (dir : Path) (way : List Text) : Path := way.foldl entry dir

@[simp] theorem below_nil (dir : Path) : dir.below [] = dir := rfl

theorem below_cons (dir : Path) (name : Text) (way : List Text) :
    dir.below (name :: way) = (dir.entry name).below way := rfl

theorem below_concat (dir : Path) (way : List Text) (name : Text) :
    dir.below (way ++ [name]) = (dir.below way).entry name := List.foldl_concat ..

variable {p q : Path} {name fragment : Text} {way : List Text}

theorem exists_stem_eq (hne : p.text ≠ []) : ∃ front, p.stem = front ++ ['/'] := by
  rw [stem]
  split_ifs with hstem
  · exact List.getLast?_eq_some_iff.1 (hstem.resolve_left hne)
  · exact ⟨p.text, rfl⟩

theorem slash_mem_stem (hne : p.text ≠ []) : '/' ∈ p.stem := by
  obtain ⟨front, hfront⟩ := exists_stem_eq hne
  simp [hfront]

theorem entry_ne_nil_of_dir (hne : p.text ≠ []) (hname : '/' ∉ name) :
    (p.entry name).text ≠ [] := by
  obtain ⟨front, hfront⟩ := exists_stem_eq hne
  rw [text_entry hname, hfront]
  simp

theorem below_ne_nil (hne : p.text ≠ []) (hway : ∀ name ∈ way, '/' ∉ name) :
    (p.below way).text ≠ [] := by
  induction way generalizing p with
  | nil => exact hne
  | cons name more ih =>
    obtain ⟨hname, hmore⟩ := List.forall_mem_cons.1 hway
    exact ih (entry_ne_nil_of_dir hne hname) hmore

theorem isAbsolute_below (hne : p.text ≠ []) (hway : ∀ name ∈ way, '/' ∉ name) :
    (p.below way).isAbsolute = p.isAbsolute := by
  induction way generalizing p with
  | nil => rfl
  | cons name more ih =>
    obtain ⟨hname, hmore⟩ := List.forall_mem_cons.1 hway
    exact (ih (entry_ne_nil_of_dir hne hname) hmore).trans (isAbsolute_entry_eq hne hname)

theorem join_entry (hq : q.isAbsolute = false) (hne : q.text ≠ []) (hname : '/' ∉ name)
    (p : Path) : p.join (q.entry name) = (p.join q).entry name := by
  have hentry : (q.entry name).isAbsolute = false := (isAbsolute_entry_eq hne hname).trans hq
  have htext : (p.join (q.entry name)).text = ((p.join q).entry name).text := by
    rw [text_join hentry, text_entry hname, text_entry hname, stem_join hq hne, List.append_assoc]
  exact congrArg mk htext

theorem join_below (hq : q.isAbsolute = false) (hne : q.text ≠ []) (hway : ∀ name ∈ way, '/' ∉ name)
    (p : Path) : p.join (q.below way) = (p.join q).below way := by
  induction way generalizing q with
  | nil => rfl
  | cons name more ih =>
    obtain ⟨hname, hmore⟩ := List.forall_mem_cons.1 hway
    have hentry : (q.entry name).isAbsolute = false := (isAbsolute_entry_eq hne hname).trans hq
    rw [below_cons, ih hentry (entry_ne_nil_of_dir hne hname) hmore, join_entry hq hne hname,
      below_cons]

section FileName

/-- The last piece of the path of an entry is the name. -/
theorem opened_entry (hname : isName name = true) (p : Path) :
    ∃ front, (p.entry name).opened.2 = front ++ [name] := by
  obtain ⟨-, hhere, -, hslash, -⟩ := isName_iff.1 hname
  have hself := Text.pieces_of_not_mem hslash
  rw [opened]
  by_cases hne : p.text = []
  · have htext : (p.entry name).text = name := by
      rw [text_entry hslash, stem, if_pos (Or.inl hne), hne, List.nil_append]
    have habs : (p.entry name).isAbsolute = false := by
      rw [isAbsolute, htext]
      exact isAbsolute_of_no_slash hslash
    rw [if_neg (by simp [habs]), htext, hself]
    refine ⟨[], ?_⟩
    split
    · next more heq => exact absurd (List.cons.inj heq).1 hhere
    · rfl
  · obtain ⟨front, hfront⟩ := exists_stem_eq hne
    have htext : (p.entry name).text = front ++ '/' :: name := by
      rw [text_entry hslash, hfront, List.append_assoc, List.singleton_append]
    split_ifs with habs
    · rw [htext]
      cases front with
      | nil => exact ⟨[], hself⟩
      | cons c front =>
        rw [List.cons_append, List.tail_cons, Text.pieces_append_sep, hself]
        exact ⟨_, rfl⟩
    · rw [htext, Text.pieces_append_sep, hself]
      obtain ⟨first, rest, hpieces⟩ := List.exists_cons_of_ne_nil (Text.pieces_ne_nil '/' front)
      rw [hpieces]
      split
      · next more heq => exact ⟨rest, (List.cons.inj heq).2.symm⟩
      · exact ⟨first :: rest, rfl⟩

theorem fileName?_entry (hname : isName name = true) (p : Path) :
    (p.entry name).fileName? = some name := by
  obtain ⟨hne, hhere, hup, -⟩ := isName_iff.1 hname
  obtain ⟨front, hfront⟩ := opened_entry hname p
  have hblank : isBlankPiece name = false := by simp [isBlankPiece, hne, hhere]
  have hpiece : Component.ofPiece name = .name name := if_neg hup
  have hlast : (p.entry name).components.getLast? = some (.name name) := by
    rw [components, hfront, List.filter_append, List.map_append, ← List.append_assoc]
    simp [hblank, hpiece]
  rw [fileName?, hlast]

/-- The name of a file decides its key, wherever the file is. -/
theorem fileKey_eq_of_fileName? (h : p.fileName? = q.fileName?) : p.fileKey = q.fileKey := by
  rw [fileKey, fileKey, extension?, extension?, h]

theorem fileKey_below (hne : way ≠ []) (hway : ∀ name ∈ way, isName name = true) (p q : Path) :
    (p.below way).fileKey = (q.below way).fileKey := by
  obtain rfl | ⟨front, name, rfl⟩ := List.eq_nil_or_concat way
  · exact absurd rfl hne
  · have hname := hway name (by simp)
    refine fileKey_eq_of_fileName? ?_
    rw [List.concat_eq_append, below_concat, below_concat, fileName?_entry hname,
      fileName?_entry hname]

end FileName

section Fragment

variable (hne : fragment ≠ []) (hslash : '/' ∉ fragment)
include hne hslash

theorem infix_join_iff (hq : q.isAbsolute = false) (p : Path) :
    fragment <:+: (p.join q).text ↔ fragment <:+: p.text ∨ fragment <:+: q.text := by
  rw [text_join hq, stem]
  split_ifs with hstem
  · rcases hstem with hnil | hlast
    · simp [hnil, hne]
    · obtain ⟨front, hfront⟩ := List.getLast?_eq_some_iff.1 hlast
      rw [hfront, List.append_assoc, List.singleton_append,
        Text.infix_append_sep_iff hne hslash, Text.infix_append_sep_iff hne hslash]
      simp [hne]
  · rw [List.append_assoc, List.singleton_append, Text.infix_append_sep_iff hne hslash]

theorem infix_below_iff (hway : ∀ name ∈ way, '/' ∉ name) (p : Path) :
    fragment <:+: (p.below way).text ↔
      fragment <:+: p.text ∨ ∃ name ∈ way, fragment <:+: name := by
  induction way generalizing p with
  | nil => simp
  | cons name more ih =>
    obtain ⟨hname, hmore⟩ := List.forall_mem_cons.1 hway
    rw [below_cons, ih hmore, entry, infix_join_iff hne hslash (isAbsolute_of_no_slash hname),
      or_assoc]
    simp

end Fragment

end Path

end HeaderCheck
