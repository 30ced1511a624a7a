import HeaderCheck.Proofs.Header.Year
import HeaderCheck.Proofs.Text.Written
import Mathlib.Logic.Relation

/-! Where any year will do, it does not matter which years a file and its reference have. A year is
written with digits only, so another one in its place ends no line, and all lines look the same with
their years masked. What holds of one change holds of any number of changes, one after another. -/

namespace HeaderCheck

/-- The line ends here: a break stands behind it, or it is the last one and not empty. A carriage
return at its end is its own only if the break has another one. -/
inductive EndsBefore (line : Line) : Text → Prop
  | last (h : line ≠ []) : EndsBefore line []
  | feed (rest : Text) (h : line.getLast? ≠ some '\r') : EndsBefore line ('\n' :: rest)
  | returnFeed (rest : Text) : EndsBefore line ('\r' :: '\n' :: rest)

/-- `line` is a line of the text `front ++ line ++ back`. -/
structure IsLineBetween (front : Text) (line : Line) (back : Text) : Prop where
  begins : front = [] ∨ front.getLast? = some '\n'
  feed : '\n' ∉ line
  ends : EndsBefore line back

/-- A year that is found in the line gives way to another one. -/
inductive YearChange : Line → Line → Prop
  | change {before year behind other : Text} (found : FindsYear before year behind)
      (hother : isYear other = true) :
      YearChange (before ++ year ++ behind) (before ++ other ++ behind)

/-- A year gives way to another one in a line of the text or in a line of the reference. -/
inductive YearStep : Text × List Line → Text × List Line → Prop
  | inText {front back : Text} {line other : Line} {reference : List Line}
      (between : IsLineBetween front line back) (change : YearChange line other) :
      YearStep (front ++ line ++ back, reference) (front ++ other ++ back, reference)
  | inReference {t : Text} {before behind : List Line} {line other : Line}
      (change : YearChange line other) :
      YearStep (t, before ++ line :: behind) (t, before ++ other :: behind)

namespace Text

variable {front back : Text} {line : Line}

theorem lines_append_end (hfeed : '\n' ∉ line) (h : EndsBefore line back) :
    lines (line ++ back) = line :: back.lines.tail := by
  cases h with
  | last hne => rw [List.append_nil, lines_of_no_feed hfeed hne, lines_nil, List.tail_nil]
  | feed rest hreturn =>
    rw [lines_append_feed hfeed, chomped_eq_self hreturn, lines_feed, List.tail_cons]
  | returnFeed rest =>
    have hraw : '\n' ∉ line ++ ['\r'] := by simpa using hfeed
    rw [← List.singleton_append, ← List.append_assoc, lines_append_feed hraw,
      chomped_append_return, List.singleton_append, lines_return_feed, List.tail_cons]

theorem lines_between (h : IsLineBetween front line back) :
    lines (front ++ line ++ back) = front.lines ++ line :: back.lines.tail := by
  rw [List.append_assoc, (lines_append_iff front _).2 (h.begins.imp_right Or.inl),
    lines_append_end h.feed h.ends]

/-- Every line of a text stands between what comes before it and what comes behind. -/
theorem exists_between {t : Text} {i : ℕ} (h : t.lines[i]? = some line) :
    ∃ front back, t = front ++ line ++ back ∧ front.lines.length = i ∧
      IsLineBetween front line back := by
  induction t using feedInduction generalizing i with
  | last raw hraw =>
    have hne : raw ≠ [] := by
      rintro rfl
      cases h
    rw [lines_of_no_feed hraw hne] at h
    cases i with
    | zero =>
      cases h
      exact ⟨[], [], by simp, rfl, Or.inl rfl, hraw, .last hne⟩
    | succ i => cases h
  | line raw rest hraw ih =>
    rw [lines_append_feed hraw] at h
    cases i with
    | zero =>
      cases h
      by_cases hreturn : raw.getLast? = some '\r'
      · obtain ⟨body, rfl⟩ := List.getLast?_eq_some_iff.1 hreturn
        rw [chomped_append_return]
        exact ⟨[], '\r' :: '\n' :: rest, by simp, rfl, Or.inl rfl,
          fun hmem => hraw (List.mem_append_left _ hmem), .returnFeed rest⟩
      · rw [chomped_eq_self hreturn]
        exact ⟨[], '\n' :: rest, rfl, rfl, Or.inl rfl, hraw, .feed rest hreturn⟩
    | succ i =>
      obtain ⟨front, back, rfl, rfl, hbegins, hfeed, hends⟩ := ih h
      refine ⟨raw ++ '\n' :: front, back, by simp, ?_, Or.inr ?_, hfeed, hends⟩
      · rw [lines_append_feed hraw, List.length_cons]
      · rcases hbegins with rfl | hlast
        · simp
        · rw [List.getLast?_append_cons, List.getLast?_cons, hlast]
          rfl

end Text

theorem ne_of_isDecimalDigit {c d : Char} (hc : isDecimalDigit c = true)
    (hd : isDecimalDigit d = false) : c ≠ d := by
  rintro rfl
  rw [hc] at hd
  cases hd

namespace YearChange

variable {line other : Line}

theorem feed_notMem (h : YearChange line other) (hline : '\n' ∉ line) : '\n' ∉ other := by
  obtain ⟨found, hother⟩ := h
  obtain ⟨c, d, rfl, hc, hd⟩ := isYear_iff.1 hother
  have hnot : isDecimalDigit '\n' = false := by decide +kernel
  have hcne := ne_of_isDecimalDigit hc hnot
  have hdne := ne_of_isDecimalDigit hd hnot
  simp only [List.mem_append, not_or] at hline
  simp [hline.1.1, hline.2, hcne.symm, hdne.symm]

theorem endsBefore (h : YearChange line other) {back : Text} (hline : EndsBefore line back) :
    EndsBefore other back := by
  obtain @⟨before, year, behind, other, found, hother⟩ := h
  obtain ⟨c, d, rfl, hc, hd⟩ := isYear_iff.1 hother
  have hnot : isDecimalDigit '\r' = false := by decide +kernel
  have hdne := ne_of_isDecimalDigit hd hnot
  cases hline with
  | last hne => exact .last (by simp)
  | feed rest hreturn =>
    refine .feed rest ?_
    cases behind with
    | nil => simpa using hdne
    | cons e behind =>
      rwa [List.getLast?_append_of_ne_nil _ (List.cons_ne_nil e behind)] at hreturn ⊢
  | returnFeed rest => exact .returnFeed rest

theorem between (h : YearChange line other) {front back : Text}
    (hline : IsLineBetween front line back) : IsLineBetween front other back :=
  ⟨hline.begins, h.feed_notMem hline.feed, h.endsBefore hline.ends⟩

theorem maskYears_eq (h : YearChange line other) : other.maskYears = line.maskYears := by
  obtain ⟨found, hother⟩ := h
  obtain ⟨masked, -, hmask⟩ := found.exists_masked
  rw [hmask _ hother, hmask _ found.isYear]

end YearChange

theorem startWithLines_anyYear (lines reference : List Line) :
    startWithLines true lines reference =
      startWithLines false (lines.map Text.maskYears) (reference.map Text.maskYears) := by
  induction reference generalizing lines with
  | nil => simp [startWithLines]
  | cons expected reference ih =>
    cases lines with
    | nil => rfl
    | cons line lines =>
      rw [List.map_cons, List.map_cons, startWithLines, startWithLines, ih]
      rfl

/-- After one change all lines, of the text and of the reference, look as before with their years
masked. -/
theorem YearStep.maskYears_eq {s s' : Text × List Line} (h : YearStep s s') :
    s'.1.lines.map Text.maskYears = s.1.lines.map Text.maskYears ∧
      s'.2.map Text.maskYears = s.2.map Text.maskYears := by
  cases h with
  | inText between change =>
    refine ⟨?_, rfl⟩
    rw [Text.lines_between between, Text.lines_between (change.between between), List.map_append,
      List.map_append, List.map_cons, List.map_cons, change.maskYears_eq]
  | inReference change =>
    refine ⟨rfl, ?_⟩
    rw [List.map_append, List.map_append, List.map_cons, List.map_cons, change.maskYears_eq]

theorem YearStep.maskYears_eq_of_steps {s s' : Text × List Line}
    (h : Relation.ReflTransGen YearStep s s') :
    s'.1.lines.map Text.maskYears = s.1.lines.map Text.maskYears ∧
      s'.2.map Text.maskYears = s.2.map Text.maskYears := by
  induction h with
  | refl => exact ⟨rfl, rfl⟩
  | tail _ step ih => exact ⟨step.maskYears_eq.1.trans ih.1, step.maskYears_eq.2.trans ih.2⟩

/-- A year that is found in a line of the text, or in a line of the reference, can be changed where
it stands, and after any number of such changes the text starts with the reference, where any year
will do, exactly if it did before. -/
theorem hasLeadingLines_yearSteps (t : Text) (reference : List Line) :
    (∀ i before year behind other, FindsYear before year behind → isYear other = true →
      t.lines[i]? = some (before ++ year ++ behind) →
        ∃ front back, t = front ++ (before ++ year ++ behind) ++ back ∧ front.lines.length = i ∧
          YearStep (t, reference) (front ++ (before ++ other ++ behind) ++ back, reference)) ∧
    (∀ i before year behind other, FindsYear before year behind → isYear other = true →
      reference[i]? = some (before ++ year ++ behind) →
        YearStep (t, reference) (t, reference.set i (before ++ other ++ behind))) ∧
    ∀ t' reference', Relation.ReflTransGen YearStep (t, reference) (t', reference') →
      Text.hasLeadingLines t' reference' true = t.hasLeadingLines reference true := by
  refine ⟨?_, ?_, ?_⟩
  · intro i before year behind other hfound hother hline
    obtain ⟨front, back, rfl, hlength, hbetween⟩ := Text.exists_between hline
    exact ⟨front, back, rfl, hlength, .inText hbetween (.change hfound hother)⟩
  · intro i before year behind other hfound hother hline
    obtain ⟨hi, hget⟩ := List.getElem?_eq_some_iff.1 hline
    have hreference : reference =
        reference.take i ++ (before ++ year ++ behind) :: reference.drop (i + 1) := by
      rw [← hget, List.getElem_cons_drop, List.take_append_drop]
    rw [List.set_eq_take_append_cons_drop, if_pos hi]
    nth_rewrite 1 [hreference]
    exact .inReference (.change hfound hother)
  · intro t' reference' hsteps
    obtain ⟨hlines, hreference⟩ := YearStep.maskYears_eq_of_steps hsteps
    rw [Text.hasLeadingLines, Text.hasLeadingLines, startWithLines_anyYear, hlines, hreference,
      ← startWithLines_anyYear]

/-- In `202020` the first four digits are the year, whichever digits come behind. One of them is
changed in the text, and then the year of the reference. -/
theorem hasLeadingLines_twoChanges :
    let t : Text := "#\r\n# 202020\r\n".toList
    let t' : Text := "#\r\n# 20२४20\r\n".toList
    let reference : List Line := ["#".toList, "# 202020".toList]
    let reference' : List Line := ["#".toList, "# 209920".toList]
    Relation.ReflTransGen YearStep (t, reference) (t', reference') ∧
      t.hasLeadingLines reference true = true ∧ t'.hasLeadingLines reference' true = true := by
  intro t t' reference reference'
  have hfound : FindsYear ['#', ' '] ['2', '0', '2', '0'] ['2', '0'] :=
    .behindOther (by decide) (.behindOther (by decide) (.here (by decide +kernel)))
  have hbetween : IsLineBetween ['#', '\r', '\n']
      (['#', ' '] ++ ['2', '0', '2', '0'] ++ ['2', '0']) ['\r', '\n'] :=
    ⟨Or.inr rfl, by decide, .returnFeed []⟩
  have hchange : YearChange (['#', ' '] ++ ['2', '0', '2', '0'] ++ ['2', '0'])
      (['#', ' '] ++ ['2', '0', '२', '४'] ++ ['2', '0']) := .change hfound (by decide +kernel)
  have htext : YearStep (t, reference) (t', reference) := .inText hbetween hchange
  have hreference : YearStep (t', reference) (t', reference') :=
    (hasLeadingLines_yearSteps t' reference).2.1 1 _ _ _ "2099".toList hfound (by decide +kernel)
      rfl
  have hsteps : Relation.ReflTransGen YearStep (t, reference) (t', reference') :=
    .tail (.single htext) hreference
  have hleading : t.hasLeadingLines reference true = true := by decide +kernel
  exact ⟨hsteps, hleading,
    ((hasLeadingLines_yearSteps t reference).2.2 t' reference' hsteps).trans hleading⟩

end HeaderCheck
