import HeaderCheck.FileKey
import HeaderCheck.Proofs.Path.Components

/-! The key of a file, told from the spelling of its path. Nothing but the last component counts,
however the separators around it are written, and of that component the last dot decides. -/

namespace HeaderCheck

namespace Text

variable {t before after : Text}

theorem splitLastDot_eq_none_iff : splitLastDot t = none ↔ '.' ∉ t := by
  induction t with
  | nil => simp [splitLastDot]
  | cons c rest ih =>
    rw [splitLastDot, List.mem_cons, not_or, ← ih]
    cases splitLastDot rest <;> simp [eq_comm]

theorem splitLastDot_append (before : Text) (h : '.' ∉ after) :
    splitLastDot (before ++ '.' :: after) = some (before, after) := by
  induction before with
  | nil =>
    rw [List.nil_append, splitLastDot, splitLastDot_eq_none_iff.2 h]
    rfl
  | cons c before ih => rw [List.cons_append, splitLastDot, ih]

theorem splitLastDot_eq_some_iff :
    splitLastDot t = some (before, after) ↔ t = before ++ '.' :: after ∧ '.' ∉ after := by
  refine ⟨fun h => ?_, fun h => h.1 ▸ splitLastDot_append before h.2⟩
  induction t generalizing before with
  | nil => cases h
  | cons c rest ih =>
    rw [splitLastDot] at h
    cases hrest : splitLastDot rest with
    | some sides =>
      rw [hrest] at h
      cases h
      obtain ⟨rfl, hdot⟩ := ih hrest
      exact ⟨rfl, hdot⟩
    | none =>
      simp only [hrest] at h
      split_ifs at h with hc
      cases h
      exact ⟨by rw [hc, List.nil_append], splitLastDot_eq_none_iff.1 hrest⟩

/-- Separators and `.` components, as they may stand behind the last component of a path. -/
inductive IsTail : Text → Prop
  | nil : IsTail []
  | separator {tail : Text} : IsTail tail → IsTail ('/' :: tail)
  | here {tail : Text} : IsTail tail → IsTail ('/' :: '.' :: tail)

/-- The pieces of such a tail are blank, whatever stands before it. -/
theorem IsTail.exists_blanks {tail : Text} (h : tail.IsTail) :
    ∃ blanks, (∀ piece ∈ blanks, Path.isBlankPiece piece = true) ∧
      ∀ front, pieces '/' (front ++ tail) = pieces '/' front ++ blanks := by
  induction h with
  | nil => exact ⟨[], List.forall_mem_nil _, fun front => by simp⟩
  | @separator tail _ ih =>
    obtain ⟨blanks, hblank, hpieces⟩ := ih
    refine ⟨[] :: blanks, List.forall_mem_cons.2 ⟨rfl, hblank⟩, fun front => ?_⟩
    rw [pieces_append_sep, ← List.nil_append tail, hpieces]
    rfl
  | @here tail _ ih =>
    obtain ⟨blanks, hblank, hpieces⟩ := ih
    refine ⟨['.'] :: blanks, List.forall_mem_cons.2 ⟨rfl, hblank⟩, fun front => ?_⟩
    rw [pieces_append_sep, ← List.singleton_append, hpieces]
    rfl

theorem isTail_of_blanks {blanks : List Text}
    (h : ∀ piece ∈ blanks, Path.isBlankPiece piece = true) :
    IsTail (blanks.flatMap ('/' :: ·)) := by
  induction blanks with
  | nil => exact .nil
  | cons piece blanks ih =>
    obtain ⟨hpiece, hblanks⟩ := List.forall_mem_cons.1 h
    rw [List.flatMap_cons]
    obtain rfl | rfl : piece = [] ∨ piece = ['.'] := by simpa [Path.isBlankPiece] using hpiece
    · exact .separator (ih hblanks)
    · exact .here (ih hblanks)

end Text

namespace Path

variable {p q : Path} {last name stem ext : Text}

/-- The path is spelled as a directory part, which is empty or ends with a separator, this last
component, and nothing behind it but separators and `.` components. -/
structure EndsIn (p : Path) (last : Text) : Prop where
  spelled : ∃ front tail : Text, p.text = front ++ last ++ tail ∧
    (front = [] ∨ front.getLast? = some '/') ∧ tail.IsTail
  noSlash : '/' ∉ last
  ne_nil : last ≠ []
  ne_here : last ≠ ['.']

/-- There are no components in the spelling but the root and `.` ones. -/
def IsBlank (p : Path) : Prop :=
  p.text.IsTail ∨ ∃ tail : Text, tail.IsTail ∧ p.text = '.' :: tail

/-- The second spelling has a separator or a `.` more than the first one, where it makes no
component. -/
inductive Padded : Path → Path → Prop
  | again (front back : Text) :
    Padded ⟨front ++ '/' :: back⟩ ⟨front ++ '/' :: '/' :: back⟩
  | here (front back : Text) :
    Padded ⟨front ++ '/' :: back⟩ ⟨front ++ '/' :: '.' :: '/' :: back⟩
  | trailing (text : Text) : Padded ⟨text⟩ ⟨text ++ ['/']⟩

/-- The rules for the key of a path. -/
inductive HasKey (p : Path) : Key → Prop
  | blank : p.IsBlank → HasKey p []
  | up : p.EndsIn ['.', '.'] → HasKey p []
  | extension (stem ext : Text) : p.EndsIn (stem ++ '.' :: ext) → '.' ∉ ext → stem ≠ [] → ext ≠ [] →
    HasKey p (Text.lowercase ext)
  | whole (name : Text) : p.EndsIn name → name ≠ ['.', '.'] →
    (∀ stem ext, name = stem ++ '.' :: ext → '.' ∉ ext → stem = [] ∨ ext = []) → HasKey p name

section LastPiece

/-- The last of the pieces that make a component. -/
def lastPiece? (p : Path) : Option Text :=
  (Text.pieces '/' p.text).reverse.find? (!isBlankPiece ·)

theorem lastPiece?_eq_some_iff : p.lastPiece? = some last ↔ isBlankPiece last = false ∧
    ∃ front blanks, Text.pieces '/' p.text = front ++ last :: blanks ∧
      ∀ piece ∈ blanks, isBlankPiece piece = true := by
  rw [lastPiece?, List.find?_eq_some_iff_append, Bool.not_eq_true']
  refine and_congr_right fun _ => ?_
  refine ⟨?_, ?_⟩
  · rintro ⟨behind, before, hpieces, hbehind⟩
    refine ⟨before.reverse, behind.reverse, ?_, fun piece hpiece => ?_⟩
    · rw [← List.reverse_inj, hpieces]
      simp
    · simpa using hbehind piece (List.mem_reverse.1 hpiece)
  · rintro ⟨front, blanks, hpieces, hblanks⟩
    refine ⟨blanks.reverse, front.reverse, by rw [hpieces]; simp, fun piece hpiece => ?_⟩
    simpa using hblanks piece (List.mem_reverse.1 hpiece)

theorem lastPiece?_eq_none_iff :
    p.lastPiece? = none ↔ ∀ piece ∈ Text.pieces '/' p.text, isBlankPiece piece = true := by
  simp [lastPiece?]

theorem getLast?_componentsOf (pieces : List Text) : (componentsOf pieces).getLast? =
    (pieces.reverse.find? (!isBlankPiece ·)).map Component.ofPiece := by
  rw [componentsOf, List.getLast?_map, ← List.head?_reverse, ← List.filter_reverse,
    List.head?_filter]

theorem componentsOf_opened (p : Path) :
    componentsOf p.opened.2 = componentsOf (Text.pieces '/' p.text) := by
  rw [opened]
  split_ifs with habs
  · obtain ⟨tail, htail⟩ := List.head?_eq_some_iff.1 (beq_iff_eq.1 habs)
    rw [htail, List.tail_cons, Text.pieces, if_pos rfl, componentsOf_cons_blank rfl]
  · split
    · next heq => rw [heq, componentsOf_cons_blank rfl]
    · rfl

theorem opened_ne_name (p : Path) (n : Text) : p.opened.1 ≠ some (.name n) := by
  rw [opened]
  split_ifs
  · simp
  · split <;> simp

theorem fileName?_eq_some_iff :
    p.fileName? = some name ↔ p.lastPiece? = some name ∧ name ≠ ['.', '.'] := by
  rw [fileName?, components_eq, List.getLast?_append, componentsOf_opened, getLast?_componentsOf,
    ← lastPiece?]
  cases hlast : p.lastPiece? with
  | none =>
    rw [Option.map_none, Option.none_or]
    refine iff_of_false ?_ (by simp)
    rcases hopened : p.opened.1 with _ | (_ | _ | _ | n)
    case some.name => exact absurd hopened (opened_ne_name p n)
    all_goals simp
  | some piece =>
    rw [Option.map_some, Option.some_or, Component.ofPiece, Option.some_inj]
    split_ifs with hup
    · refine iff_of_false (by simp) ?_
      rintro ⟨rfl, hne⟩
      exact hne hup
    · rw [Option.some_inj, iff_self_and]
      rintro rfl
      exact hup

theorem endsIn_iff : p.EndsIn last ↔ p.lastPiece? = some last := by
  rw [lastPiece?_eq_some_iff]
  refine ⟨?_, ?_⟩
  · intro h
    obtain ⟨front, tail, htext, hfront, htail⟩ := h.spelled
    obtain ⟨blanks, hblanks, hpieces⟩ := htail.exists_blanks
    have hself := Text.pieces_of_not_mem h.noSlash
    refine ⟨by simp [isBlankPiece, h.ne_nil, h.ne_here], ?_⟩
    rcases hfront with rfl | hfront
    · refine ⟨[], blanks, ?_, hblanks⟩
      rw [htext, hpieces, List.nil_append, hself]
      rfl
    · obtain ⟨front, rfl⟩ := List.getLast?_eq_some_iff.1 hfront
      refine ⟨Text.pieces '/' front, blanks, ?_, hblanks⟩
      rw [htext, hpieces, List.append_assoc, List.singleton_append, Text.pieces_append_sep, hself,
        List.append_assoc, List.singleton_append]
  · rintro ⟨hlast, front, blanks, hpieces, hblanks⟩
    have htext := Text.joined_pieces '/' p.text
    have hslash : '/' ∉ last := by
      refine Text.notMem_of_mem_pieces (t := p.text) ?_
      rw [hpieces]
      exact List.mem_append_right _ List.mem_cons_self
    have hne : last ≠ [] ∧ last ≠ ['.'] := by simpa [isBlankPiece] using hlast
    refine ⟨?_, hslash, hne.1, hne.2⟩
    cases front with
    | nil =>
      refine ⟨[], _, ?_, Or.inl rfl, Text.isTail_of_blanks hblanks⟩
      rw [← htext, hpieces, List.nil_append, Text.joined_cons_eq, List.nil_append]
    | cons first more =>
      refine ⟨first ++ more.flatMap ('/' :: ·) ++ ['/'], _, ?_, Or.inr (by simp),
        Text.isTail_of_blanks hblanks⟩
      rw [← htext, hpieces, List.cons_append, Text.joined_cons_eq]
      simp

theorem isBlank_iff : p.IsBlank ↔ p.lastPiece? = none := by
  rw [lastPiece?_eq_none_iff]
  refine ⟨?_, ?_⟩
  · rintro (htail | ⟨tail, htail, htext⟩)
    · obtain ⟨blanks, hblanks, hpieces⟩ := htail.exists_blanks
      rw [← List.nil_append p.text, hpieces]
      exact List.forall_mem_cons.2 ⟨rfl, hblanks⟩
    · obtain ⟨blanks, hblanks, hpieces⟩ := htail.exists_blanks
      rw [htext, ← List.singleton_append, hpieces]
      exact List.forall_mem_cons.2 ⟨rfl, hblanks⟩
  · intro h
    have htext := Text.joined_pieces '/' p.text
    cases hpieces : Text.pieces '/' p.text with
    | nil => exact absurd hpieces (Text.pieces_ne_nil '/' p.text)
    | cons first blanks =>
      rw [hpieces] at h htext
      obtain ⟨hfirst, hblanks⟩ := List.forall_mem_cons.1 h
      rw [Text.joined_cons_eq] at htext
      obtain rfl | rfl : first = [] ∨ first = ['.'] := by simpa [isBlankPiece] using hfirst
      · exact Or.inl (htext ▸ Text.isTail_of_blanks hblanks)
      · exact Or.inr ⟨_, Text.isTail_of_blanks hblanks, htext.symm⟩

/-- A separator or a `.` that makes no component does not change which is the last one. -/
theorem Padded.lastPiece?_eq (h : p.Padded q) : q.lastPiece? = p.lastPiece? := by
  have hblank : isBlankPiece [] = true ∧ isBlankPiece ['.'] = true := ⟨rfl, rfl⟩
  have hhere : Text.pieces '/' ['.'] = [['.']] := rfl
  cases h with
  | again front back =>
    have hpieces (back : Text) : Text.pieces '/' ('/' :: back) = [] :: Text.pieces '/' back := by
      rw [Text.pieces, if_pos rfl]
    simp [lastPiece?, Text.pieces_append_sep, hpieces, List.find?_append, hblank]
  | here front back =>
    rw [lastPiece?, lastPiece?, Text.pieces_append_sep, ← List.singleton_append,
      Text.pieces_append_sep, hhere, Text.pieces_append_sep]
    simp [List.find?_append, hblank]
  | trailing text =>
    rw [lastPiece?, lastPiece?, Text.pieces_append_sep]
    simp [Text.pieces, hblank]

end LastPiece

section Key

/-- A file with an extension is checked under the lower case of the extension. -/
theorem fileKey_of_fileName? (hname : p.fileName? = some (stem ++ '.' :: ext))
    (hstem : stem ≠ []) (hext : ext ≠ []) (hdot : '.' ∉ ext) : p.fileKey = Text.lowercase ext := by
  obtain ⟨c, front, rfl⟩ := List.exists_cons_of_ne_nil hstem
  obtain ⟨d, rest, rfl⟩ := List.exists_cons_of_ne_nil hext
  rw [fileKey, extension?, hname, Option.bind_some, Text.splitLastDot_append _ hdot]

/-- A file without one is checked under its name. -/
theorem fileKey_of_whole (hname : p.fileName? = some name)
    (hwhole : ∀ stem ext, name = stem ++ '.' :: ext → '.' ∉ ext → stem = [] ∨ ext = []) :
    p.fileKey = name := by
  rw [fileKey, extension?, hname, Option.bind_some]
  cases hsplit : Text.splitLastDot name with
  | none => rfl
  | some sides =>
    obtain ⟨stem, ext⟩ := sides
    obtain ⟨hsides, hdot⟩ := Text.splitLastDot_eq_some_iff.1 hsplit
    rcases hwhole stem ext hsides hdot with rfl | rfl
    · rfl
    · cases stem <;> rfl

theorem fileKey_of_no_fileName (hname : p.fileName? = none) : p.fileKey = [] := by
  rw [fileKey, extension?, hname]
  rfl

theorem fileName?_eq_none_iff : p.fileName? = none ↔ p.IsBlank ∨ p.EndsIn ['.', '.'] := by
  rw [isBlank_iff, endsIn_iff]
  cases hlast : p.lastPiece? with
  | none =>
    refine iff_of_true (Option.eq_none_iff_forall_ne_some.2 fun name hname => ?_) (Or.inl rfl)
    cases hlast.symm.trans (fileName?_eq_some_iff.1 hname).1
  | some last =>
    rw [Option.eq_none_iff_forall_ne_some]
    simp [fileName?_eq_some_iff, hlast]

theorem fileName?_of_endsIn (h : p.EndsIn name) (hup : name ≠ ['.', '.']) :
    p.fileName? = some name :=
  fileName?_eq_some_iff.2 ⟨endsIn_iff.1 h, hup⟩

theorem fileName?_of_extension (h : p.EndsIn (stem ++ '.' :: ext)) (hstem : stem ≠ [])
    (hext : ext ≠ []) : p.fileName? = some (stem ++ '.' :: ext) := by
  refine fileName?_of_endsIn h fun hup => ?_
  have hlength := congrArg List.length hup
  have hstemLength := List.length_pos_iff.2 hstem
  have hextLength := List.length_pos_iff.2 hext
  simp at hlength
  omega

theorem HasKey.fileKey_eq {key : Key} (h : p.HasKey key) : p.fileKey = key := by
  cases h with
  | blank hblank => exact fileKey_of_no_fileName (fileName?_eq_none_iff.2 (Or.inl hblank))
  | up hup => exact fileKey_of_no_fileName (fileName?_eq_none_iff.2 (Or.inr hup))
  | extension stem ext hends hdot hstem hext =>
    exact fileKey_of_fileName? (fileName?_of_extension hends hstem hext) hstem hext hdot
  | whole name hends hup hwhole => exact fileKey_of_whole (fileName?_of_endsIn hends hup) hwhole

theorem hasKey_fileKey (p : Path) : p.HasKey p.fileKey := by
  cases hname : p.fileName? with
  | none =>
    rw [fileKey_of_no_fileName hname]
    rcases fileName?_eq_none_iff.1 hname with hblank | hup
    · exact .blank hblank
    · exact .up hup
  | some name =>
    obtain ⟨hlast, hup⟩ := fileName?_eq_some_iff.1 hname
    have hends := endsIn_iff.2 hlast
    by_cases hext : ∃ stem ext, name = stem ++ '.' :: ext ∧ '.' ∉ ext ∧ stem ≠ [] ∧ ext ≠ []
    · obtain ⟨stem, ext, rfl, hdot, hstem, hext⟩ := hext
      rw [fileKey_of_fileName? hname hstem hext hdot]
      exact .extension stem ext hends hdot hstem hext
    · have hwhole : ∀ stem ext, name = stem ++ '.' :: ext → '.' ∉ ext → stem = [] ∨ ext = [] := by
        intro stem ext hsides hdot
        by_contra hne
        exact hext ⟨stem, ext, hsides, hdot, not_or.1 hne⟩
      rw [fileKey_of_whole hname hwhole]
      exact .whole name hends hup hwhole

end Key

/-- The rules for the key of a path decide it, with just one key for each path. Either there is no
component to go by, or there is one last component, and it alone decides: neither the directory part
nor the way in which separators and `.` components are written matters. -/
theorem fileKey_of_last_component (p : Path) :
    (∀ key, p.HasKey key ↔ p.fileKey = key) ∧
    (p.IsBlank ↔ ∀ last, ¬ p.EndsIn last) ∧
    (∀ last other, p.EndsIn last → p.EndsIn other → other = last) ∧
    (∀ (q : Path) last, p.EndsIn last → q.EndsIn last → q.fileKey = p.fileKey) ∧
    ∀ q, p.Padded q → q.fileKey = p.fileKey ∧ ∀ last, q.EndsIn last ↔ p.EndsIn last := by
  have hname : ∀ q : Path, q.lastPiece? = p.lastPiece? → q.fileKey = p.fileKey := by
    intro q hlast
    refine fileKey_eq_of_fileName? (Option.ext fun name => ?_)
    rw [fileName?_eq_some_iff, fileName?_eq_some_iff, hlast]
  refine ⟨fun key => ⟨HasKey.fileKey_eq, fun hkey => hkey ▸ hasKey_fileKey p⟩, ?_, ?_, ?_, ?_⟩
  · simp only [isBlank_iff, endsIn_iff, Option.eq_none_iff_forall_ne_some]
  · intro last other hlast hother
    rw [endsIn_iff] at hlast hother
    exact Option.some_inj.1 (hother.symm.trans hlast)
  · intro q last hp hq
    rw [endsIn_iff] at hp hq
    exact hname q (hq.trans hp.symm)
  · intro q hpadded
    refine ⟨hname q hpadded.lastPiece?_eq, fun last => ?_⟩
    rw [endsIn_iff, endsIn_iff, hpadded.lastPiece?_eq]

/-- A name with two dots in front and one inside, in a directory whose name has a dot. -/
def dottedPath : Path := ⟨"a.b/./..x.TAR//.".toList⟩

/-- It is checked under its extension, with its directory, without it, and with one more
separator. -/
theorem fileKey_dottedPath :
    (dottedPath.EndsIn "..x.TAR".toList ∧ dottedPath.fileKey = "tar".toList) ∧
    (EndsIn ⟨"..x.TAR".toList⟩ "..x.TAR".toList ∧ fileKey ⟨"..x.TAR".toList⟩ = "tar".toList) ∧
    dottedPath.Padded ⟨"a.b//./..x.TAR//.".toList⟩ ∧
      fileKey ⟨"a.b//./..x.TAR//.".toList⟩ = "tar".toList := by
  have hends : dottedPath.EndsIn "..x.TAR".toList :=
    ⟨⟨"a.b/./".toList, "//.".toList, rfl, Or.inr rfl, .separator (.here .nil)⟩,
      by decide, by decide, by decide⟩
  have hname : EndsIn ⟨"..x.TAR".toList⟩ "..x.TAR".toList :=
    ⟨⟨[], [], rfl, Or.inl rfl, .nil⟩, by decide, by decide, by decide⟩
  have hpadded : dottedPath.Padded ⟨"a.b//./..x.TAR//.".toList⟩ :=
    .again "a.b".toList "./..x.TAR//.".toList
  obtain ⟨hrules, -, -, hsame, hpad⟩ := fileKey_of_last_component dottedPath
  have hkey : dottedPath.fileKey = "tar".toList := by
    refine ((hrules _).1 (.extension "..x".toList "TAR".toList hends ?_ ?_ ?_)).trans ?_
    all_goals decide +kernel
  exact ⟨⟨hends, hkey⟩, ⟨hname, (hsame _ _ hends hname).trans hkey⟩, hpadded,
    (hpad _ hpadded).1.trans hkey⟩

end Path

end HeaderCheck
