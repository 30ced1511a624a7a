import HeaderCheck.Proofs.Header.Opening
import HeaderCheck.Proofs.Header.Year

/-! Files as they are put together from a preamble and a header. The pattern of the preamble takes
the blank lines behind it with it, as many as there are, so it never gets to a header whose first
line is not blank, and a header whose first line is blank loses that line. -/

namespace HeaderCheck

/-- A preamble with more text on its last line, blank lines, a header, and what follows. Each line
has a break of its own kind. -/
structure Assembly where
  opening : List (Line × LineBreak)
  last : Line
  tail : Text
  lastBreak : LineBreak
  blank : List LineBreak
  header : List (Line × LineBreak)
  rest : Text

namespace Assembly

def preamble (a : Assembly) : List Line := a.opening.map (·.1) ++ [a.last]

def reference (a : Assembly) : List Line := a.header.map (·.1)

/-- What stands behind the last line of the preamble. -/
def behind (a : Assembly) : Text :=
  Text.written (a.blank.map ([], ·)) ++ (Text.written a.header ++ a.rest)

def text (a : Assembly) : Text :=
  Text.written a.opening ++ (a.last ++ (a.tail ++ a.lastBreak.text ++ a.behind))

end Assembly

theorem linesAgree_self (anyYear : Bool) (line : Line) : linesAgree anyYear line line = true := by
  cases anyYear <;> simp [linesAgree]

theorem startWithLines_append_self (anyYear : Bool) (lines more : List Line) :
    startWithLines anyYear (lines ++ more) lines = true := by
  induction lines with
  | nil => simp [startWithLines]
  | cons line lines ih => rw [List.cons_append, startWithLines, linesAgree_self, ih, Bool.and_self]

/-- A mark is written in place of a year, so no line becomes empty. -/
theorem Text.maskYears_eq_nil_iff (t : Text) : t.maskYears = [] ↔ t = [] := by
  induction t using yearInduction with
  | nil => simp [maskYears]
  | year y rest hy _ =>
    have hne : y ≠ [] := List.length_pos_iff.1 (by simp [length_of_isYear hy])
    simp [maskYears_append hy, yearMark, hne]
  | other c rest hc _ => simp [maskYears_cons hc]

theorem linesAgree_nil_iff (anyYear : Bool) (line : Line) :
    linesAgree anyYear line [] = true ↔ line = [] := by
  have hnil : Text.maskYears [] = [] := by simp [Text.maskYears]
  cases anyYear <;> simp [linesAgree, hnil, Text.maskYears_eq_nil_iff]

/-- No blank line is left for a header that begins with one. -/
theorem not_startWithLines_blank (anyYear : Bool) (lines reference : List Line) :
    startWithLines anyYear (lines.dropWhile (· = [])) ([] :: reference) = false := by
  have hhead := List.head?_dropWhile_not (· = ([] : Line)) lines
  cases hlines : lines.dropWhile (· = []) with
  | nil => rfl
  | cons line more =>
    rw [hlines] at hhead
    have hline : linesAgree anyYear line [] = false :=
      Bool.eq_false_iff.2 fun h => by simp [(linesAgree_nil_iff anyYear line).1 h] at hhead
    rw [startWithLines, hline, Bool.false_and]

theorem startWithLines_dropWhile (anyYear : Bool) (reference more : List Line) :
    startWithLines anyYear ((reference ++ more).dropWhile (· = [])) reference =
      decide (reference.head? ≠ some []) := by
  cases reference with
  | nil => simp [startWithLines]
  | cons first reference =>
    by_cases hfirst : first = []
    · subst hfirst
      simp [not_startWithLines_blank]
    · have hhead : (first :: reference ++ more).dropWhile (· = []) =
          first :: reference ++ more := by simp [hfirst]
      rw [hhead, startWithLines_append_self]
      simp [hfirst]

namespace Text

theorem afterFeed_append_text {raw : Text} (h : '\n' ∉ raw) (b : LineBreak) (rest : Text) :
    afterFeed (raw ++ b.text ++ rest) = some rest := by
  refine afterFeed_eq_some_iff.2 ?_
  cases b with
  | feed => exact ⟨raw, h, by simp [LineBreak.text]⟩
  | returnFeed => exact ⟨raw ++ ['\r'], by simpa using h, by simp [LineBreak.text]⟩

end Text

theorem Assembly.lines_behind (a : Assembly)
    (h : ∀ line ∈ a.reference, '\n' ∉ line ∧ line.getLast? ≠ some '\r') :
    a.behind.dropEmptyLines.lines = (a.reference ++ a.rest.lines).dropWhile (· = []) := by
  have hblank : ∀ line ∈ (a.blank.map fun b => (([] : Line), b)).map (·.1), line = [] := by
    simp
  rw [Text.lines_dropEmptyLines, behind, Text.lines_written_append, Text.lines_written_append h,
    List.dropWhile_append_of_pos, reference]
  · exact fun line hline => decide_eq_true (hblank line hline)
  · intro line hline
    rw [hblank line hline]
    simp

/-- A file put together from a preamble, as it is up to case, and a header passes, unless the first
line of the header is blank. -/
theorem verdict_assembled {b : Boilerplate} {key : Key} {preamble : List Line} (a : Assembly)
    (anyYear : Bool) (href : b.references.get? key = some a.reference)
    (hpre : b.preambles.get? key = some preamble)
    (hfolded : preamble.map Text.folded = a.preamble.map Text.folded) (htail : '\n' ∉ a.tail)
    (hplain : ∀ line ∈ a.reference, '\n' ∉ line ∧ line.getLast? ≠ some '\r') :
    (b.matcher anyYear).verdict a.text key = .ok (decide (a.reference.head? ≠ some [])) := by
  have hbody : b.body key a.text = a.behind.dropEmptyLines := by
    rw [Boilerplate.body, hpre]
    show a.text.withoutPreamble preamble = _
    rw [Text.withoutPreamble, Text.afterPreamble, Assembly.text, Text.afterLines_written hfolded,
      Option.bind_some, Text.afterFeed_append_text htail, Option.map_some, Option.getD_some]
  rw [Boilerplate.verdict_of_reference href, hbody, Text.hasLeadingLines, a.lines_behind hplain,
    startWithLines_dropWhile]

/-- Breaks of both kinds, a preamble in other letters with more text behind it, three blank lines,
and a header with a blank line of its own. -/
def assembledScript : Assembly where
  opening := [("#!/BIN/BAſH".toList, .returnFeed), ([], .feed)]
  last := "# \u212A".toList
  tail := "=1\r".toList
  lastBreak := .returnFeed
  blank := [.feed, .returnFeed, .feed]
  header := [("# Copyright 2020".toList, .returnFeed), ([], .feed), ("# H".toList, .returnFeed)]
  rest := "\n\r\ntrue".toList

theorem verdict_assembledScript :
    let b : Boilerplate := ⟨⟨[("sh".toList, assembledScript.reference)]⟩,
      ⟨[("sh".toList, ["#!/bin/bash".toList, [], "# k".toList])]⟩⟩
    (b.matcher false).verdict assembledScript.text "sh".toList = .ok true ∧
      (b.matcher true).verdict assembledScript.text "sh".toList = .ok true := by
  intro b
  have hfolded : ["#!/bin/bash".toList, [], "# k".toList].map Text.folded =
      assembledScript.preamble.map Text.folded := by decide +kernel
  have hverdict (anyYear : Bool) :
      (b.matcher anyYear).verdict assembledScript.text "sh".toList = .ok true :=
    verdict_assembled assembledScript anyYear rfl rfl hfolded (by decide +kernel)
      (by decide +kernel)
  exact ⟨hverdict false, hverdict true⟩

/-- A preamble, one line break, and a header that begins with a blank line. -/
def assembledBlankFirst : Assembly where
  opening := []
  last := "#!/bin/sh".toList
  tail := []
  lastBreak := .feed
  blank := []
  header := [([], .feed), ("# H".toList, .feed)]
  rest := []

/-- The blank line of the header goes with the preamble. -/
theorem verdict_assembledBlankFirst :
    let b : Boilerplate := ⟨⟨[("sh".toList, [[], "# H".toList])]⟩,
      ⟨[("sh".toList, ["#!/bin/sh".toList])]⟩⟩
    assembledBlankFirst.text = "#!/bin/sh\n\n# H\n".toList ∧
      assembledBlankFirst.preamble = ["#!/bin/sh".toList] ∧
      assembledBlankFirst.reference = [[], "# H".toList] ∧
      (b.matcher false).verdict assembledBlankFirst.text "sh".toList = .ok false ∧
      (b.matcher true).verdict assembledBlankFirst.text "sh".toList = .ok false := by
  decide +kernel

end HeaderCheck
