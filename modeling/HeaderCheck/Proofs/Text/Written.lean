import HeaderCheck.Proofs.Text.Lines

/-! Texts as they are written: lines, and behind each of them a break of either kind. The breaks are
not seen in the lines of the text. A text starts with given lines exactly when it is written so as
far as they go, where the last of them may also stand at the end of the text without a break. -/

namespace HeaderCheck

inductive LineBreak where
  | feed
  | returnFeed
  deriving DecidableEq, Repr

def LineBreak.text : LineBreak → Text
  | feed => ['\n']
  | returnFeed => ['\r', '\n']

namespace Text

/-- The lines in their order, each with its break behind it. -/
def written (ls : List (Line × LineBreak)) : Text := ls.flatMap fun l => l.1 ++ l.2.text

theorem written_cons (l : Line × LineBreak) (ls : List (Line × LineBreak)) :
    written (l :: ls) = l.1 ++ l.2.text ++ written ls := rfl

theorem count_feed_text (b : LineBreak) : b.text.count '\n' = 1 := by
  cases b <;> rfl

theorem mem_written {c : Char} {ls : List (Line × LineBreak)} (h : c ∈ written ls) :
    c = '\r' ∨ c = '\n' ∨ ∃ l ∈ ls, c ∈ l.1 := by
  obtain ⟨l, hl, hc⟩ := List.mem_flatMap.1 h
  rcases List.mem_append.1 hc with hc | hc
  · exact Or.inr (Or.inr ⟨l, hl, hc⟩)
  · cases hbreak : l.2 <;> simp [hbreak, LineBreak.text] at hc <;> tauto

/-- Up to its first line feed every text is a line and a break. -/
theorem exists_break (raw rest : Text) :
    ∃ b : LineBreak, raw ++ '\n' :: rest = raw.chomped ++ b.text ++ rest := by
  rcases chomped_cases raw with heq | ⟨front, rfl, heq⟩
  · exact ⟨.feed, by simp [heq, LineBreak.text]⟩
  · exact ⟨.returnFeed, by simp [heq, LineBreak.text]⟩

theorem lines_append_break {line : Line} (hfeed : '\n' ∉ line)
    (hreturn : line.getLast? ≠ some '\r') (b : LineBreak) (rest : Text) :
    lines (line ++ b.text ++ rest) = line :: lines rest := by
  cases b with
  | feed =>
    have htext : line ++ LineBreak.feed.text ++ rest = line ++ '\n' :: rest := by
      simp [LineBreak.text]
    rw [htext, lines_append_feed hfeed, chomped_eq_self hreturn]
  | returnFeed =>
    have htext : line ++ LineBreak.returnFeed.text ++ rest = (line ++ ['\r']) ++ '\n' :: rest := by
      simp [LineBreak.text]
    have hraw : '\n' ∉ line ++ ['\r'] := by simpa using hfeed
    rw [htext, lines_append_feed hraw, chomped_append_return]

/-- What is written line by line is read line by line, whatever the breaks are. -/
theorem lines_written_append {ls : List (Line × LineBreak)}
    (h : ∀ line ∈ ls.map (·.1), '\n' ∉ line ∧ line.getLast? ≠ some '\r') (rest : Text) :
    lines (written ls ++ rest) = ls.map (·.1) ++ lines rest := by
  induction ls with
  | nil => rfl
  | cons l ls ih =>
    rw [List.map_cons, List.forall_mem_cons] at h
    rw [written_cons, List.append_assoc, lines_append_break h.1.1 h.1.2, ih h.2]
    rfl

/-- The text is written in the lines and goes on in some way, or it ends with the last of them. -/
def IsWrittenIn (reference : List Line) (t : Text) : Prop :=
  (∃ ls rest, ls.map (·.1) = reference ∧ t = written ls ++ rest) ∨
    ∃ ls last, last ≠ [] ∧ ls.map (·.1) ++ [last] = reference ∧ t = written ls ++ last

theorem isWrittenIn_of_prefix_lines {reference : List Line} {t : Text}
    (h : reference <+: t.lines) : IsWrittenIn reference t := by
  induction reference generalizing t with
  | nil => exact Or.inl ⟨[], t, rfl, rfl⟩
  | cons line reference ih =>
    by_cases hfeed : '\n' ∈ t
    · obtain ⟨raw, rest, rfl, hraw⟩ := List.eq_append_cons_of_mem hfeed
      rw [lines_append_feed hraw, List.cons_prefix_cons] at h
      obtain ⟨rfl, hmore⟩ := h
      obtain ⟨b, hb⟩ := exists_break raw rest
      rw [hb]
      rcases ih hmore with ⟨ls, behind, rfl, rfl⟩ | ⟨ls, last, hlast, rfl, rfl⟩
      · exact Or.inl ⟨(chomped raw, b) :: ls, behind, rfl, by simp [written_cons]⟩
      · exact Or.inr ⟨(chomped raw, b) :: ls, last, hlast, rfl, by simp [written_cons]⟩
    · -- without a line feed the text is one line, or none
      have hne : t ≠ [] := by
        rintro rfl
        exact absurd (List.prefix_nil.1 h) (List.cons_ne_nil _ _)
      rw [lines_of_no_feed hfeed hne, List.cons_prefix_cons, List.prefix_nil] at h
      obtain ⟨rfl, rfl⟩ := h
      exact Or.inr ⟨[], line, hne, rfl, rfl⟩

theorem prefix_lines_iff {reference : List Line} {t : Text}
    (hplain : ∀ line ∈ reference, '\n' ∉ line ∧ line.getLast? ≠ some '\r') :
    reference <+: t.lines ↔ IsWrittenIn reference t := by
  refine ⟨isWrittenIn_of_prefix_lines, fun h => ?_⟩
  rcases h with ⟨ls, rest, rfl, rfl⟩ | ⟨ls, last, hlast, rfl, rfl⟩
  · rw [lines_written_append hplain]
    exact List.prefix_append _ _
  · obtain ⟨hls, hplainLast⟩ := List.forall_mem_append.1 hplain
    have hlines : lines (written ls ++ last) = ls.map (·.1) ++ [last] := by
      rw [lines_written_append hls,
        lines_of_no_feed (hplainLast last (List.mem_singleton_self last)).1 hlast]
    exact hlines ▸ List.prefix_rfl

/-- The lines written out, the last of them without its break. -/
def unended (ls : List (Line × LineBreak)) : Text :=
  written ls.dropLast ++ ls.getLast?.elim [] (·.1)

theorem unended_concat (ls : List (Line × LineBreak)) (l : Line × LineBreak) :
    unended (ls ++ [l]) = written ls ++ l.1 := by
  simp [unended]

/-- Without its break an empty last line is not seen, and any other one is. -/
theorem lines_unended_iff {ls : List (Line × LineBreak)}
    (h : ∀ line ∈ ls.map (·.1), '\n' ∉ line ∧ line.getLast? ≠ some '\r') :
    (unended ls).lines = ls.map (·.1) ↔ ∀ l ∈ ls.getLast?, l.1 ≠ [] := by
  rcases List.eq_nil_or_concat' ls with rfl | ⟨front, l, rfl⟩
  · simp [unended, written]
  · rw [List.map_append, List.forall_mem_append] at h
    rw [unended_concat, lines_written_append h.1, List.map_append, List.append_cancel_left_eq,
      List.getLast?_concat]
    by_cases hl : l.1 = []
    · simp [hl]
    · simp [hl, lines_of_no_feed (h.2 l.1 (by simp)).1 hl]

/-- A text is its own lines written out, so nothing but the breaks is lost in its lines. -/
theorem exists_written (t : Text) :
    ∃ ls, ls.map (·.1) = t.lines ∧ (t = written ls ∨ t = unended ls) := by
  induction t using feedInduction with
  | last raw h =>
    by_cases hne : raw = []
    · exact ⟨[], by simp [hne], Or.inl hne⟩
    · exact ⟨[(raw, .feed)], by simp [lines_of_no_feed h hne], Or.inr (by simp [unended, written])⟩
  | line raw rest h ih =>
    obtain ⟨ls, hls, hrest⟩ := ih
    obtain ⟨b, hb⟩ := exists_break raw rest
    refine ⟨(raw.chomped, b) :: ls, by rw [List.map_cons, hls, lines_append_feed h], ?_⟩
    rw [hb]
    rcases hrest with rfl | rfl
    · exact Or.inl rfl
    · cases ls with
      | nil => exact Or.inl rfl
      | cons l ls => exact Or.inr (by simp [unended, written])

/-- Lines that are written out are read again; the last break may be missing if the last line is not
empty, or if there is none. Of two texts put together each has its lines for itself just when the
first ends with a line feed or one of them is empty, and every text is its own lines written out. -/
theorem lines_inverse_written :
    (∀ ls : List (Line × LineBreak),
      (∀ line ∈ ls.map (·.1), '\n' ∉ line ∧ line.getLast? ≠ some '\r') →
        (written ls).lines = ls.map (·.1) ∧
          ((unended ls).lines = ls.map (·.1) ↔ ∀ l ∈ ls.getLast?, l.1 ≠ [])) ∧
      (∀ a b : Text, (a ++ b).lines = a.lines ++ b.lines ↔
        a = [] ∨ a.getLast? = some '\n' ∨ b = []) ∧
      ∀ t : Text, (∀ line ∈ t.lines, '\n' ∉ line) ∧
        ∃ ls, ls.map (·.1) = t.lines ∧ (t = written ls ∨ t = unended ls) := by
  refine ⟨fun ls hplain => ⟨?_, lines_unended_iff hplain⟩, lines_append_iff,
    fun t => ⟨fun line => notMem_of_mem_lines, exists_written t⟩⟩
  simpa using lines_written_append hplain []

/-- Breaks of both kinds, a carriage return within a line, and an empty line, which is lost when it
comes last and has no break. -/
theorem lines_mixedBreaks :
    let ls : List (Line × LineBreak) :=
      [("a\rb".toList, .returnFeed), ([], .feed), (" ".toList, .returnFeed)]
    written ls = "a\rb\r\n\n \r\n".toList ∧
      (written ls).lines = ["a\rb".toList, [], " ".toList] ∧
      (unended ls).lines = ["a\rb".toList, [], " ".toList] ∧
      (unended ls.dropLast).lines ≠ ["a\rb".toList, []] ∧
      (written ls ++ "\n\r".toList).lines = (written ls).lines ++ [[], ['\r']] ∧
      (unended ls ++ "\n".toList).lines ≠ (unended ls).lines ++ [[]] := by
  intro ls
  obtain ⟨hread, happend, -⟩ := lines_inverse_written
  obtain ⟨hwritten, hunended⟩ := hread ls (by decide +kernel)
  obtain ⟨-, hempty⟩ := hread ls.dropLast (by decide +kernel)
  refine ⟨by decide +kernel, hwritten, hunended.2 (by decide +kernel), fun h => ?_,
    (happend (written ls) _).2 (Or.inr (Or.inl (by decide +kernel))), fun h => ?_⟩
  · exact hempty.1 h ([], .feed) rfl rfl
  · have hend := (happend (unended ls) ['\n']).1 h
    exact absurd hend (by decide +kernel)

end Text

end HeaderCheck
