import HeaderCheck.Header.Leading
import Mathlib.Data.List.Forall2

/-! What is forgiven where any year will do. A line and the one it is compared with have the same
literal pieces, and between them stand years on both sides, or a year on one side and on the other
the text that is written in place of a year. That text is the only one, other than a year, that is
taken for a year. -/

namespace HeaderCheck

/-- `20` and two decimal digits. -/
def isYear : Text → Bool
  | ['2', '0', c, d] => isDecimalDigit c && isDecimalDigit d
  | _ => false

theorem isYear_iff {y : Text} : isYear y = true ↔ ∃ c d, y = ['2', '0', c, d] ∧
    isDecimalDigit c = true ∧ isDecimalDigit d = true := by
  fun_cases isYear y with
  | case1 c d => simp
  | case2 _ hne =>
    refine iff_of_false (by simp) fun h => ?_
    obtain ⟨c, d, rfl, -⟩ := h
    exact hne c d rfl

theorem length_of_isYear {y : Text} (h : isYear y = true) : y.length = 4 := by
  obtain ⟨c, d, rfl, -⟩ := isYear_iff.1 h
  rfl

namespace Text

/-- A year stands at the front. -/
def startsWithYear (t : Text) : Bool := isYear (t.take 4)

theorem startsWithYear_iff {t : Text} :
    t.startsWithYear = true ↔ ∃ y rest, isYear y = true ∧ t = y ++ rest := by
  refine ⟨fun h => ⟨t.take 4, t.drop 4, h, (List.take_append_drop 4 t).symm⟩, fun h => ?_⟩
  obtain ⟨y, rest, hy, rfl⟩ := h
  rw [startsWithYear, List.take_left' (length_of_isYear hy), hy]

theorem maskYears_append {y : Text} (h : isYear y = true) (t : Text) :
    maskYears (y ++ t) = yearMark ++ maskYears t := by
  obtain ⟨c, d, rfl, hc, hd⟩ := isYear_iff.1 h
  simp [maskYears, hc, hd]

theorem maskYears_cons {c : Char} {t : Text} (h : startsWithYear (c :: t) = false) :
    maskYears (c :: t) = c :: maskYears t := by
  by_cases hyear : ∃ a b rest, c = '2' ∧ t = '0' :: a :: b :: rest
  · obtain ⟨a, b, rest, rfl, rfl⟩ := hyear
    rw [maskYears, if_neg]
    simpa [startsWithYear, isYear] using h
  · exact maskYears.eq_2 c t fun a b rest hc ht => hyear ⟨a, b, rest, hc, ht⟩

/-- A text is empty, or begins with a year, or with a character that begins no year. -/
@[elab_as_elim]
theorem yearInduction {motive : Text → Prop} (nil : motive [])
    (year : ∀ y rest, isYear y = true → motive rest → motive (y ++ rest))
    (other : ∀ c rest, startsWithYear (c :: rest) = false → motive rest → motive (c :: rest))
    (t : Text) : motive t := by
  induction t using maskYears.induct with
  | case1 c d rest hdigits ih => exact year ['2', '0', c, d] rest hdigits ih
  | case2 c d rest hdigits ih =>
    exact other '2' _ (by simpa [startsWithYear, isYear] using hdigits) ih
  | case3 c rest hne ih =>
    refine other c rest (Bool.eq_false_iff.2 fun h => ?_) ih
    obtain ⟨y, behind, hy, heq⟩ := startsWithYear_iff.1 h
    obtain ⟨a, b, rfl, -⟩ := isYear_iff.1 hy
    obtain ⟨hc, hrest⟩ := List.cons.inj heq
    exact hne a b behind hc hrest
  | case4 => exact nil

theorem maskYears_eq_cons {t u : Text} {c : Char} (h : t.maskYears = c :: u) (hc : c ≠ 'Y') :
    ∃ rest, t = c :: rest ∧ maskYears rest = u := by
  induction t using yearInduction with
  | nil => cases h
  | year y rest hy _ =>
    rw [maskYears_append hy] at h
    exact absurd (List.cons.inj h).1.symm hc
  | other d rest hd _ =>
    rw [maskYears_cons hd] at h
    obtain ⟨rfl, hu⟩ := List.cons.inj h
    exact ⟨rest, rfl, hu⟩

/-- Where the mark is written there was a year, or the mark itself. -/
theorem maskYears_eq_mark_append {t u : Text} (h : t.maskYears = yearMark ++ u) :
    ∃ y rest, t = y ++ rest ∧ (isYear y = true ∨ y = yearMark) ∧ maskYears rest = u := by
  induction t using yearInduction with
  | nil => cases h
  | year y rest hy _ =>
    rw [maskYears_append hy] at h
    exact ⟨y, rest, rfl, Or.inl hy, List.append_cancel_left h⟩
  | other c t hc _ =>
    rw [maskYears_cons hc] at h
    obtain ⟨rfl, hear⟩ := List.cons.inj h
    obtain ⟨t, rfl, har⟩ := maskYears_eq_cons hear (by decide)
    obtain ⟨t, rfl, hr⟩ := maskYears_eq_cons har (by decide)
    obtain ⟨t, rfl, hrest⟩ := maskYears_eq_cons hr (by decide)
    exact ⟨yearMark, t, rfl, Or.inr rfl, hrest⟩

/-- A mark stands at the place of a year, or of a mark, and at no other place: it does not overlap
with the mark of a year before it. -/
theorem year_or_mark_of_maskYears {t before behind : Text}
    (h : t.maskYears = before ++ yearMark ++ behind) :
    isYear ((t.drop before.length).take 4) = true ∨ (t.drop before.length).take 4 = yearMark := by
  induction t using yearInduction generalizing before with
  | nil => simp [maskYears, yearMark] at h
  | year y rest hy ih =>
    rw [maskYears_append hy] at h
    have hlength := length_of_isYear hy
    rcases before with _ | ⟨a, _ | ⟨b, _ | ⟨c, _ | ⟨d, before⟩⟩⟩⟩
    · exact Or.inl (by rw [List.length_nil, List.drop_zero, List.take_left' hlength, hy])
    · simp [yearMark] at h
    · simp [yearMark] at h
    · simp [yearMark] at h
    · obtain ⟨rfl, rfl, rfl, rfl, hrest⟩ : 'Y' = a ∧ 'E' = b ∧ 'A' = c ∧ 'R' = d ∧
          maskYears rest = before ++ yearMark ++ behind := by simpa [yearMark] using h
      have hplace : ('Y' :: 'E' :: 'A' :: 'R' :: before).length = y.length + before.length := by
        simp only [List.length_cons, hlength]
        omega
      rw [hplace, List.drop_length_add_append]
      exact ih hrest
  | other c rest hc ih =>
    cases before with
    | nil =>
      obtain ⟨y, behind, ht, hy, -⟩ := maskYears_eq_mark_append h
      have hlength : y.length = 4 := hy.elim length_of_isYear fun heq => by rw [heq]; rfl
      rw [ht, List.length_nil, List.drop_zero, List.take_left' hlength]
      exact hy
    | cons a before =>
      rw [maskYears_cons hc] at h
      exact ih (List.cons.inj h).2

end Text

/-- Literal pieces with the fillings between them, in turn. -/
def interleaved : List Text → List Text → Text
  | [], _ => []
  | piece :: _, [] => piece
  | piece :: pieces, filling :: fillings => piece ++ filling ++ interleaved pieces fillings

/-- The two texts have the same literal pieces, and what stands between these is related in turn. -/
def EqualBut (related : Text → Text → Prop) (s t : Text) : Prop :=
  ∃ pieces ys zs, pieces.length = ys.length + 1 ∧ List.Forall₂ related ys zs ∧
    s = interleaved pieces ys ∧ t = interleaved pieces zs

def BothYears (y z : Text) : Prop := isYear y = true ∧ isYear z = true

/-- One is a year, and the other is one too or is the mark of a year. -/
def YearOrMark (y z : Text) : Prop :=
  BothYears y z ∨ (isYear y = true ∧ z = yearMark) ∨ (y = yearMark ∧ isYear z = true)

namespace EqualBut

variable {related : Text → Text → Prop} {s t : Text}

theorem nil : EqualBut related [] [] := ⟨[[]], [], [], rfl, .nil, rfl, rfl⟩

theorem cons (c : Char) (h : EqualBut related s t) : EqualBut related (c :: s) (c :: t) := by
  obtain ⟨pieces, ys, zs, hlength, hrelated, rfl, rfl⟩ := h
  obtain ⟨piece, pieces, rfl⟩ := List.exists_cons_of_length_eq_add_one hlength
  refine ⟨(c :: piece) :: pieces, ys, zs, hlength, hrelated, ?_⟩
  cases hrelated with
  | nil => exact ⟨rfl, rfl⟩
  | cons _ _ => exact ⟨rfl, rfl⟩

theorem append {y z : Text} (hyz : related y z) (h : EqualBut related s t) :
    EqualBut related (y ++ s) (z ++ t) := by
  obtain ⟨pieces, ys, zs, hlength, hrelated, rfl, rfl⟩ := h
  exact ⟨[] :: pieces, y :: ys, z :: zs, by simp [hlength], .cons hyz hrelated, rfl, rfl⟩

end EqualBut

theorem infix_interleaved {pieces fillings : List Text} {filling : Text}
    (hlength : pieces.length = fillings.length + 1) (h : filling ∈ fillings) :
    filling <:+: interleaved pieces fillings := by
  induction fillings generalizing pieces with
  | nil => cases h
  | cons first fillings ih =>
    obtain ⟨piece, pieces, rfl⟩ := List.exists_cons_of_length_eq_add_one hlength
    rw [interleaved]
    rcases List.mem_cons.1 h with rfl | h
    · exact ⟨piece, interleaved pieces fillings, rfl⟩
    · exact (ih (by simpa using hlength) h).trans (List.suffix_append _ _).isInfix

/-- Where the mark stands on neither side, only years are forgiven. -/
theorem EqualBut.bothYears {s t : Text} (h : EqualBut YearOrMark s t) (hs : ¬ yearMark <:+: s)
    (ht : ¬ yearMark <:+: t) : EqualBut BothYears s t := by
  obtain ⟨pieces, ys, zs, hlength, hrelated, rfl, rfl⟩ := h
  refine ⟨pieces, ys, zs, hlength, ?_, rfl, rfl⟩
  rw [List.forall₂_iff_zip] at hrelated ⊢
  refine ⟨hrelated.1, fun {y z} hyz => ?_⟩
  rcases hrelated.2 hyz with hboth | ⟨-, rfl⟩ | ⟨rfl, -⟩
  · exact hboth
  · exact absurd (infix_interleaved (hrelated.1 ▸ hlength) (List.of_mem_zip hyz).2) ht
  · exact absurd (infix_interleaved hlength (List.of_mem_zip hyz).1) hs

/-- Lines that look the same with their years masked are equal but for years and marks. -/
theorem equalBut_of_maskYears_eq {s t : Text} (h : s.maskYears = t.maskYears) :
    EqualBut YearOrMark s t := by
  induction hn : s.length using Nat.strongRecOn generalizing s t with
  | _ n ih =>
    subst hn
    cases hs : s.startsWithYear with
    | true =>
      obtain ⟨y, s, hy, rfl⟩ := Text.startsWithYear_iff.1 hs
      have hlength := length_of_isYear hy
      rw [Text.maskYears_append hy] at h
      obtain ⟨z, t, rfl, hz, ht⟩ := Text.maskYears_eq_mark_append h.symm
      refine .append (hz.imp (⟨hy, ·⟩) fun hz => Or.inl ⟨hy, hz⟩) (ih s.length ?_ ht.symm rfl)
      rw [List.length_append]
      omega
    | false =>
      cases ht : t.startsWithYear with
      | true =>
        obtain ⟨z, t, hz, rfl⟩ := Text.startsWithYear_iff.1 ht
        rw [Text.maskYears_append hz] at h
        obtain ⟨y, s, rfl, hy, hmask⟩ := Text.maskYears_eq_mark_append h
        have hmark : y = yearMark := by
          refine hy.resolve_left fun hy => ?_
          rw [Text.startsWithYear_iff.2 ⟨y, s, hy, rfl⟩] at hs
          cases hs
        refine .append (Or.inr (Or.inr ⟨hmark, hz⟩)) (ih s.length ?_ hmask rfl)
        rw [hmark, List.length_append]
        simp [yearMark]
      | false =>
        cases s with
        | nil =>
          cases t with
          | nil => exact .nil
          | cons d t =>
            rw [Text.maskYears_cons ht] at h
            cases h
        | cons c s =>
          rw [Text.maskYears_cons hs] at h
          cases t with
          | nil => cases h
          | cons d t =>
            rw [Text.maskYears_cons ht] at h
            obtain ⟨rfl, hrest⟩ := List.cons.inj h
            exact .cons c (ih s.length (Nat.lt_succ_self _) hrest rfl)

/-- Reading `before ++ year ++ behind` from the left, and going on behind each year that is found,
one finds `year` between the two. -/
inductive FindsYear : Text → Text → Text → Prop
  | here {year behind : Text} (h : isYear year = true) : FindsYear [] year behind
  | behindYear {y before year behind : Text} (h : isYear y = true)
      (more : FindsYear before year behind) : FindsYear (y ++ before) year behind
  | behindOther {c : Char} {before year behind : Text}
      (h : Text.startsWithYear (c :: (before ++ year ++ behind)) = false)
      (more : FindsYear before year behind) : FindsYear (c :: before) year behind

/-- A year that begins behind a character decides as any other year whether one begins at it: only
the digits `20` of it can belong to that one. -/
theorem startsWithYear_replace {year other : Text} (hyear : isYear year = true)
    (hother : isYear other = true) (c : Char) (before behind : Text) :
    Text.startsWithYear (c :: (before ++ other ++ behind)) =
      Text.startsWithYear (c :: (before ++ year ++ behind)) := by
  obtain ⟨_, _, rfl, -⟩ := isYear_iff.1 hyear
  obtain ⟨_, _, rfl, -⟩ := isYear_iff.1 hother
  rcases before with _ | ⟨_, _ | ⟨_, _ | ⟨_, before⟩⟩⟩
  · simp [Text.startsWithYear, isYear]
  · simp [Text.startsWithYear]
  · simp [Text.startsWithYear]
  · simp [Text.startsWithYear]

namespace FindsYear

variable {before year behind : Text}

theorem isYear (h : FindsYear before year behind) : HeaderCheck.isYear year = true := by
  induction h with
  | here h => exact h
  | behindYear _ _ ih => exact ih
  | behindOther _ _ ih => exact ih

/-- A year that is found is masked where it stands, and nothing else depends on which year it is. -/
theorem exists_masked (h : FindsYear before year behind) :
    ∃ masked, masked.length = before.length ∧ ∀ other, HeaderCheck.isYear other = true →
      Text.maskYears (before ++ other ++ behind) = masked ++ yearMark ++ behind.maskYears := by
  induction h with
  | here _ => exact ⟨[], rfl, fun other hother => Text.maskYears_append hother _⟩
  | @behindYear y before year behind h _ ih =>
    obtain ⟨masked, hlength, hmask⟩ := ih
    refine ⟨yearMark ++ masked, ?_, fun other hother => ?_⟩
    · rw [List.length_append, List.length_append, hlength, length_of_isYear h]
      rfl
    · rw [List.append_assoc, List.append_assoc, Text.maskYears_append h, ← List.append_assoc before,
        hmask other hother]
      simp only [List.append_assoc]
  | @behindOther c before year behind h more ih =>
    obtain ⟨masked, hlength, hmask⟩ := ih
    refine ⟨c :: masked, congrArg (· + 1) hlength, fun other hother => ?_⟩
    have hfalse := (startsWithYear_replace more.isYear hother c before behind).trans h
    rw [List.cons_append, List.cons_append, Text.maskYears_cons hfalse, hmask other hother]
    rfl

theorem maskYears_eq (h : FindsYear before year behind) :
    ∃ masked, masked.length = before.length ∧
      Text.maskYears (before ++ year ++ behind) = masked ++ yearMark ++ behind.maskYears := by
  obtain ⟨masked, hlength, hmask⟩ := h.exists_masked
  exact ⟨masked, hlength, hmask year h.isYear⟩

end FindsYear

theorem exists_line_of_startWithLines {anyYear : Bool} {lines reference : List Line} {i : ℕ}
    {expected : Line} (h : startWithLines anyYear lines reference = true)
    (hi : reference[i]? = some expected) :
    ∃ line, lines[i]? = some line ∧ linesAgree anyYear line expected = true := by
  induction reference generalizing lines i with
  | nil => cases hi
  | cons first reference ih =>
    cases lines with
    | nil => cases h
    | cons line lines =>
      rw [startWithLines, Bool.and_eq_true] at h
      cases i with
      | zero =>
        cases hi
        exact ⟨line, rfl, h.1⟩
      | succ i =>
        obtain ⟨found, hfound, hagree⟩ := ih h.2 hi
        exact ⟨found, hfound, hagree⟩

/-- Where any year will do, each line of the header is the expected line but for years, or marks in
place of years; without the mark in either of the two it is so but for years alone. Where a year is
found in the expected line, the line has a year as well or the mark, and nothing else. -/
theorem equalBut_of_hasLeadingLines {t : Text} {reference : List Line}
    (h : t.hasLeadingLines reference true = true) {i : ℕ} {expected : Line}
    (hi : reference[i]? = some expected) :
    ∃ line, t.lines[i]? = some line ∧ EqualBut YearOrMark line expected ∧
      (¬ yearMark <:+: line → ¬ yearMark <:+: expected → EqualBut BothYears line expected) ∧
      ∀ before year behind, expected = before ++ year ++ behind → FindsYear before year behind →
        isYear ((line.drop before.length).take 4) = true ∨
          (line.drop before.length).take 4 = yearMark := by
  obtain ⟨line, hline, hagree⟩ := exists_line_of_startWithLines h hi
  have hmask : line.maskYears = expected.maskYears := by simpa [linesAgree] using hagree
  have hequal := equalBut_of_maskYears_eq hmask
  refine ⟨line, hline, hequal, hequal.bothYears, fun before year behind heq hfinds => ?_⟩
  obtain ⟨masked, hlength, hmasked⟩ := hfinds.maskYears_eq
  rw [← hlength]
  exact Text.year_or_mark_of_maskYears (hmask.trans (heq ▸ hmasked))

/-- Of the digits `202020` the first four are a year, in any script, and the other two have to stay
as they are. -/
theorem equalBut_digit_runs :
    let t : Text := "#\r\n# 20२४20 and 2020\nx".toList
    Text.hasLeadingLines t (["#", "# 202020 and 2099"].map String.toList) true = true ∧
      ∃ line, t.lines[1]? = some line ∧ EqualBut BothYears line "# 202020 and 2099".toList := by
  intro t
  have hlines : t.lines[1]? = some "# 20२४20 and 2020".toList := by decide +kernel
  have hleading :
      t.hasLeadingLines (["#", "# 202020 and 2099"].map String.toList) true = true := by
    decide +kernel
  obtain ⟨line, hline, -, hequal, -⟩ := equalBut_of_hasLeadingLines hleading (i := 1) rfl
  cases hlines.symm.trans hline
  exact ⟨hleading, _, hline, hequal (by decide +kernel) (by decide +kernel)⟩

/-- A header with the mark in place of a year passes, though it is not the header but for years. -/
theorem hasLeadingLines_of_yearMark :
    Text.hasLeadingLines "# Copyright YEAR The Authors\n".toList
      ["# Copyright 2020 The Authors".toList] true = true ∧
    Text.lines "# Copyright YEAR The Authors\n".toList = ["# Copyright YEAR The Authors".toList] ∧
    ¬ EqualBut BothYears "# Copyright YEAR The Authors".toList
      "# Copyright 2020 The Authors".toList := by
  refine ⟨by decide +kernel, by decide +kernel, fun h => ?_⟩
  obtain ⟨pieces, ys, zs, hlength, hyears, hline, hexpected⟩ := h
  cases hyears with
  | nil =>
    obtain ⟨piece, pieces, rfl⟩ := List.exists_cons_of_length_eq_add_one hlength
    exact absurd (hline.trans hexpected.symm) (by decide)
  | @cons y z ys zs hyz _ =>
    have hoccurs := infix_interleaved hlength List.mem_cons_self
    obtain ⟨c, d, rfl, -⟩ := isYear_iff.1 hyz.1
    rw [← hline] at hoccurs
    exact absurd (hoccurs.subset List.mem_cons_self) (by decide)

end HeaderCheck
