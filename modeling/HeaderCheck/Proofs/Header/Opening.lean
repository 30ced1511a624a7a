import HeaderCheck.Proofs.Header.ByLines
import HeaderCheck.Proofs.Text.Written

/-! What goes away with a preamble, part by part. The parts can be found in one way only, so a text
has one remainder at most. It is what is left of the text, and a text without an occurrence of the
preamble at its very front is left as it is. -/

namespace HeaderCheck

/-- A preamble as it stands in a file: the lines before its last one, each with its break, the last
one, and what follows on the same line. -/
structure Opening where
  before : List (Line × LineBreak)
  last : Line
  tail : Text

namespace Opening

def lines (o : Opening) : List Line := o.before.map (·.1) ++ [o.last]

def text (o : Opening) : Text := Text.written o.before ++ (o.last ++ (o.tail ++ ['\n']))

/-- The lines are those of the preamble, character by character and up to case. -/
structure IsOf (o : Opening) (preamble : List Line) : Prop where
  lines : o.lines.map Text.folded = (soughtLines preamble).map Text.folded
  tail : '\n' ∉ o.tail

end Opening

/-- A preamble with the empty lines behind it and with what remains of the text. -/
structure Occurrence extends Opening where
  blank : List LineBreak
  rest : Text

namespace Occurrence

/-- What goes away. -/
def taken (o : Occurrence) : Text := o.toOpening.text ++ Text.written (o.blank.map ([], ·))

def text (o : Occurrence) : Text := o.taken ++ o.rest

/-- All empty lines are taken: the remainder begins with none. -/
structure IsOf (o : Occurrence) (preamble : List Line) : Prop where
  opening : o.toOpening.IsOf preamble
  rest : ¬ ['\n'] <+: o.rest ∧ ¬ ['\r', '\n'] <+: o.rest

end Occurrence

namespace Text

theorem afterBreak_text (b : LineBreak) (rest : Text) :
    afterBreak (b.text ++ rest) = some rest := by
  cases b <;> rfl

theorem exists_of_afterBreak_eq_some {t rest : Text} (h : afterBreak t = some rest) :
    ∃ b : LineBreak, t = b.text ++ rest := by
  rcases afterBreak_eq_some_iff.1 h with rfl | rfl
  · exact ⟨.feed, rfl⟩
  · exact ⟨.returnFeed, rfl⟩

theorem afterLines_written {preamble : List Line} {opening : List (Line × LineBreak)} {last : Line}
    (h : preamble.map folded = (opening.map (·.1) ++ [last]).map folded) (rest : Text) :
    afterLines preamble (written opening ++ (last ++ rest)) = some rest := by
  induction opening generalizing preamble with
  | nil =>
    obtain ⟨line, rfl, hline⟩ := List.map_eq_singleton_iff.1 h
    exact afterLine_eq_some_iff.2 ⟨last, hline.symm, rfl⟩
  | cons l opening ih =>
    obtain ⟨line, more, rfl, hline, hmore⟩ := List.map_eq_cons_iff.1 h
    obtain ⟨next, more, rfl⟩ : ∃ next behind, more = next :: behind := by
      refine List.exists_cons_of_ne_nil ?_
      rintro rfl
      simp at hmore
    have hfound : afterLine line (written (l :: opening) ++ (last ++ rest)) =
        some (l.2.text ++ (written opening ++ (last ++ rest))) :=
      afterLine_eq_some_iff.2 ⟨l.1, hline.symm, by simp [written_cons]⟩
    rw [afterLines_cons_cons, hfound, Option.bind_some, afterBreak_text, Option.bind_some,
      ih hmore]

/-- Where the lines of a preamble are found, they are written at the front of the text. -/
theorem exists_written_of_afterLines {preamble : List Line} {t rest : Text} (hne : preamble ≠ [])
    (h : afterLines preamble t = some rest) :
    ∃ before last, (before.map (·.1) ++ [last]).map folded = preamble.map folded ∧
      t = written before ++ (last ++ rest) := by
  induction preamble generalizing t with
  | nil => exact absurd rfl hne
  | cons line more ih =>
    cases more with
    | nil =>
      obtain ⟨last, hlast, rfl⟩ := afterLine_eq_some_iff.1 h
      exact ⟨[], last, congrArg (· :: []) hlast, rfl⟩
    | cons next more =>
      rw [afterLines_cons_cons, Option.bind_assoc] at h
      obtain ⟨middle, hline, hbehind⟩ := Option.bind_eq_some_iff.1 h
      obtain ⟨later, hbreak, hmore⟩ := Option.bind_eq_some_iff.1 hbehind
      obtain ⟨front, hfront, rfl⟩ := afterLine_eq_some_iff.1 hline
      obtain ⟨b, rfl⟩ := exists_of_afterBreak_eq_some hbreak
      obtain ⟨before, last, hlines, rfl⟩ := ih (List.cons_ne_nil next more) hmore
      refine ⟨(front, b) :: before, last, congrArg₂ List.cons hfront hlines, ?_⟩
      rw [written_cons, List.append_assoc, List.append_assoc]

/-- The reading of a preamble up to its last line feed, told by its parts. -/
theorem afterFeed_afterLines_iff {preamble : List Line} {t rest : Text} :
    (afterLines preamble t).bind afterFeed = some rest ↔
      ∃ o : Opening, o.IsOf preamble ∧ t = o.text ++ rest := by
  rw [← afterLines_soughtLines, Option.bind_eq_some_iff]
  refine ⟨fun h => ?_, fun h => ?_⟩
  · obtain ⟨behind, hlines, hfeed⟩ := h
    obtain ⟨before, last, heq, rfl⟩ :=
      exists_written_of_afterLines (soughtLines_ne_nil preamble) hlines
    obtain ⟨tail, htail, rfl⟩ := afterFeed_eq_some_iff.1 hfeed
    exact ⟨⟨before, last, tail⟩, ⟨heq, htail⟩, by simp [Opening.text]⟩
  · obtain ⟨o, ho, rfl⟩ := h
    refine ⟨o.tail ++ '\n' :: rest, ?_, afterFeed_append ho.tail rest⟩
    have htext : o.text ++ rest = written o.before ++ (o.last ++ (o.tail ++ '\n' :: rest)) := by
      simp [Opening.text]
    rw [htext, afterLines_written ho.lines.symm]

/-- Empty lines are taken away as long as there are any. -/
theorem dropEmptyLines_eq_iff {t rest : Text} :
    t.dropEmptyLines = rest ↔ ∃ blank : List LineBreak,
      t = written (blank.map ([], ·)) ++ rest ∧ ¬ ['\n'] <+: rest ∧ ¬ ['\r', '\n'] <+: rest := by
  refine ⟨fun h => ?_, fun h => ?_⟩
  · subst h
    induction t using feedInduction with
    | last raw hraw =>
      rw [dropEmptyLines_of_no_feed hraw]
      exact ⟨[], rfl, fun h => hraw (h.subset (by simp)), fun h => hraw (h.subset (by simp))⟩
    | line raw rest hraw ih =>
      obtain ⟨blank, hblank, hrest⟩ := ih
      rw [dropEmptyLines_append_feed hraw]
      split_ifs with hempty
      · rcases (chomped_eq_nil_iff raw).1 hempty with rfl | rfl
        · exact ⟨.feed :: blank, congrArg ('\n' :: ·) hblank, hrest⟩
        · exact ⟨.returnFeed :: blank, congrArg ('\r' :: '\n' :: ·) hblank, hrest⟩
      · obtain ⟨hne, hreturn⟩ := not_or.1 (mt (chomped_eq_nil_iff raw).2 hempty)
        obtain ⟨c, raw, rfl⟩ := List.exists_cons_of_ne_nil hne
        obtain ⟨hc, hmore⟩ := List.ne_and_not_mem_of_not_mem_cons hraw
        refine ⟨[], rfl, fun h => hc (List.cons_prefix_cons.1 h).1, fun h => ?_⟩
        obtain ⟨rfl, hnext⟩ := List.cons_prefix_cons.1 h
        cases raw with
        | nil => exact hreturn rfl
        | cons d raw => exact List.ne_of_not_mem_cons hmore (List.cons_prefix_cons.1 hnext).1
  · obtain ⟨blank, rfl, hfeed, hreturn⟩ := h
    induction blank with
    | nil =>
      refine dropEmptyLines.eq_3 rest (fun more heq => hfeed ?_) (fun more heq => hreturn ?_)
      · exact ⟨more, heq.symm⟩
      · exact ⟨more, heq.symm⟩
    | cons b blank ih =>
      cases b with
      | feed => exact ih
      | returnFeed => exact ih

/-- A preamble is found, and something remains, exactly where it occurs at the front. -/
theorem afterPreamble_eq_some_iff {preamble : List Line} {t rest : Text} :
    t.afterPreamble preamble = some rest ↔
      ∃ o : Occurrence, o.IsOf preamble ∧ o.text = t ∧ o.rest = rest := by
  rw [afterPreamble, Option.map_eq_some_iff]
  refine ⟨fun h => ?_, fun h => ?_⟩
  · obtain ⟨behind, hopening, hblank⟩ := h
    obtain ⟨o, ho, rfl⟩ := afterFeed_afterLines_iff.1 hopening
    obtain ⟨blank, rfl, hrest⟩ := dropEmptyLines_eq_iff.1 hblank
    exact ⟨⟨o, blank, rest⟩, ⟨ho, hrest⟩, List.append_assoc _ _ _, rfl⟩
  · obtain ⟨o, ho, rfl, rfl⟩ := h
    refine ⟨written (o.blank.map ([], ·)) ++ o.rest, ?_, ?_⟩
    · exact afterFeed_afterLines_iff.2 ⟨o.toOpening, ho.opening, List.append_assoc _ _ _⟩
    · exact dropEmptyLines_eq_iff.2 ⟨o.blank, rfl, ho.rest⟩

theorem getLast?_written_cons (l : Line × LineBreak) (ls : List (Line × LineBreak)) :
    (written (l :: ls)).getLast? = some '\n' := by
  induction ls generalizing l with
  | nil =>
    obtain ⟨line, b⟩ := l
    cases b <;> simp [written, LineBreak.text]
  | cons next ls ih =>
    rw [written_cons, List.getLast?_append, ih next, Option.some_or]

end Text

theorem Opening.getLast?_text (o : Opening) : o.text.getLast? = some '\n' := by
  simp [text]

theorem Occurrence.getLast?_taken (o : Occurrence) : o.taken.getLast? = some '\n' := by
  rw [taken]
  cases o.blank with
  | nil => simpa [Text.written] using o.toOpening.getLast?_text
  | cons b blank => rw [List.map_cons, List.getLast?_append, Text.getLast?_written_cons,
      Option.some_or]

/-- A text has at most one remainder behind the preamble. If it has one, that is what is left, and
the same goes away in front of any other text that begins with no empty line, be it the preamble
once more. If it has none, all of it is left, wherever else the preamble stands. So what is left
begins where the text does or behind a line feed. -/
theorem withoutPreamble_occurrence (preamble : List Line) (t : Text) :
    (∀ o o' : Occurrence, o.IsOf preamble → o'.IsOf preamble → o.text = t → o'.text = t →
      o.rest = o'.rest) ∧
    (∀ o : Occurrence, o.IsOf preamble → o.text = t →
      t.withoutPreamble preamble = o.rest ∧
        ∀ rest : Text, ¬ ['\n'] <+: rest ∧ ¬ ['\r', '\n'] <+: rest →
          (o.taken ++ rest).withoutPreamble preamble = rest) ∧
    ((¬ ∃ o : Occurrence, o.IsOf preamble ∧ o.text = t) → t.withoutPreamble preamble = t) ∧
    ∃ front, t = front ++ t.withoutPreamble preamble ∧
      (front = [] ∨ front.getLast? = some '\n') := by
  have hfound : ∀ o : Occurrence, o.IsOf preamble →
      o.text.withoutPreamble preamble = o.rest := by
    intro o ho
    rw [Text.withoutPreamble, Text.afterPreamble_eq_some_iff.2 ⟨o, ho, rfl, rfl⟩, Option.getD_some]
  have hnone : (¬ ∃ o : Occurrence, o.IsOf preamble ∧ o.text = t) →
      t.withoutPreamble preamble = t := by
    intro h
    have hafter : t.afterPreamble preamble = none := by
      rw [Option.eq_none_iff_forall_ne_some]
      intro rest hrest
      obtain ⟨o, ho, htext, -⟩ := Text.afterPreamble_eq_some_iff.1 hrest
      exact h ⟨o, ho, htext⟩
    rw [Text.withoutPreamble, hafter, Option.getD_none]
  refine ⟨fun o o' ho ho' htext htext' => ?_, fun o ho htext => ⟨?_, fun rest hrest => ?_⟩,
    hnone, ?_⟩
  · rw [← hfound o ho, ← hfound o' ho', htext, htext']
  · rw [← htext, hfound o ho]
  · exact hfound { o with rest } ⟨ho.opening, hrest⟩
  · by_cases h : ∃ o : Occurrence, o.IsOf preamble ∧ o.text = t
    · obtain ⟨o, ho, rfl⟩ := h
      exact ⟨o.taken, by rw [hfound o ho, Occurrence.text], Or.inr o.getLast?_taken⟩
    · exact ⟨[], by rw [hnone h, List.nil_append], Or.inl rfl⟩

/-- A last line that ends in a carriage return, letters in another case, breaks of both kinds, and
the preamble once more behind it. -/
def repeatedOpening : Occurrence where
  before := [("#!/bin/ſh".toList, .returnFeed)]
  last := "# (\u212A)\r".toList
  tail := " -e\r".toList
  blank := [.feed, .returnFeed]
  rest := "\r#!/bin/sh\n# (k)\r\n# H\n".toList

theorem withoutPreamble_repeatedOpening :
    let preamble := ["#!/BIN/sh".toList, "# (k)\r".toList]
    let t : Text := "#!/bin/ſh\r\n# (\u212A)\r -e\r\n\n\r\n\r#!/bin/sh\n# (k)\r\n# H\n".toList
    repeatedOpening.IsOf preamble ∧ repeatedOpening.text = t ∧
      t.withoutPreamble preamble = "\r#!/bin/sh\n# (k)\r\n# H\n".toList ∧
      Text.withoutPreamble preamble ('#' :: t) = '#' :: t := by
  intro preamble t
  have hof : repeatedOpening.IsOf preamble :=
    ⟨⟨by decide +kernel, by decide +kernel⟩, by decide +kernel⟩
  have htext : repeatedOpening.text = t := by decide +kernel
  have hnone : ¬ ∃ o : Occurrence, o.IsOf preamble ∧ o.text = '#' :: t := by
    intro h
    obtain ⟨o, ho, hother⟩ := h
    have hafter : Text.afterPreamble preamble ('#' :: t) = none := by decide +kernel
    rw [Text.afterPreamble_eq_some_iff.2 ⟨o, ho, hother, rfl⟩] at hafter
    cases hafter
  exact ⟨hof, htext, ((withoutPreamble_occurrence preamble t).2.1 repeatedOpening hof htext).1,
    (withoutPreamble_occurrence preamble ('#' :: t)).2.2.1 hnone⟩

end HeaderCheck
