import HeaderCheck.Proofs.Header.Matcher
import Mathlib.Data.List.Forall2

/-! The verdict on a file, told in lines. The matcher reads characters: it looks for the preamble
at the front of the text, for line breaks between its lines, and for the rest of a line. Seen from
the lines of the text, it compares the first of them with the preamble and the next ones, past the
empty lines, with the reference. -/

namespace HeaderCheck

/-- The lines that are looked for in place of a preamble: one empty line for none. -/
def soughtLines (preamble : List Line) : List Line :=
  if preamble = [] then [[]] else preamble

/-- The first lines of the text are those of the preamble, up to case, but of the last one the
preamble has only the beginning. Each of them ends in a line feed. -/
structure StartsWithPreamble (preamble : List Line) (t : Text) : Prop where
  ended : preamble.length ≤ t.count '\n'
  equal : ∀ i < preamble.length - 1, t.lines[i]?.map Text.folded = preamble[i]?.map Text.folded
  begun : (preamble.getD (preamble.length - 1) []).folded <+:
    (t.lines.getD (preamble.length - 1) []).folded

theorem startsWithPreamble_iff (preamble : List Line) (t : Text) :
    StartsWithPreamble preamble t ↔ preamble.length ≤ t.count '\n' ∧
      (∀ i < preamble.length - 1,
        t.lines[i]?.map Text.folded = preamble[i]?.map Text.folded) ∧
      (preamble.getD (preamble.length - 1) []).folded <+:
        (t.lines.getD (preamble.length - 1) []).folded :=
  ⟨fun h => ⟨h.ended, h.equal, h.begun⟩, fun ⟨h₁, h₂, h₃⟩ => ⟨h₁, h₂, h₃⟩⟩

instance (preamble : List Line) (t : Text) : Decidable (StartsWithPreamble preamble t) :=
  decidable_of_iff' _ (startsWithPreamble_iff preamble t)

/-- The lines of the text that are compared with the reference: those behind the preamble and the
empty lines that follow it, or all if there is no preamble. -/
def headerLines (preamble? : Option (List Line)) (t : Text) : List Line :=
  match preamble? with
  | none => t.lines
  | some preamble =>
    if StartsWithPreamble (soughtLines preamble) t then
      (t.lines.drop (soughtLines preamble).length).dropWhile (· = [])
    else t.lines

/-- Two lines are equal, or equal after every year in them is replaced. -/
def LineAgrees (anyYear : Bool) (line expected : Line) : Prop :=
  if anyYear then line.maskYears = expected.maskYears else line = expected

instance (anyYear : Bool) (line expected : Line) : Decidable (LineAgrees anyYear line expected) :=
  inferInstanceAs (Decidable
    (if anyYear then line.maskYears = expected.maskYears else line = expected))

theorem linesAgree_iff (anyYear : Bool) (line expected : Line) :
    linesAgree anyYear line expected = true ↔ LineAgrees anyYear line expected := by
  cases anyYear <;> simp [linesAgree, LineAgrees]

theorem startWithLines_iff (anyYear : Bool) (lines reference : List Line) :
    startWithLines anyYear lines reference = true ↔ reference.length ≤ lines.length ∧
      List.Forall₂ (LineAgrees anyYear) (lines.take reference.length) reference := by
  induction reference generalizing lines with
  | nil => simp [startWithLines]
  | cons expected reference ih =>
    cases lines with
    | nil => simp [startWithLines]
    | cons line lines =>
      simp only [startWithLines, Bool.and_eq_true, linesAgree_iff, ih, List.length_cons,
        Nat.add_le_add_iff_right, List.take_succ_cons, List.forall₂_cons]
      tauto

section Preamble

open Text

theorem startsWithPreamble_singleton_iff {line : Line} {raw rest : Text} (h : '\n' ∉ raw) :
    StartsWithPreamble [line] (raw ++ '\n' :: rest) ↔ line.folded <+: raw.chomped.folded := by
  have hcount : 1 ≤ (raw ++ '\n' :: rest).count '\n' := List.count_pos_iff.2 (by simp)
  simp [startsWithPreamble_iff, lines_append_feed h, -List.count_append, hcount]

theorem startsWithPreamble_cons_iff {line next : Line} {more : List Line} {raw rest : Text}
    (h : '\n' ∉ raw) : StartsWithPreamble (line :: next :: more) (raw ++ '\n' :: rest) ↔
      raw.chomped.folded = line.folded ∧ StartsWithPreamble (next :: more) rest := by
  simp only [startsWithPreamble_iff, lines_append_feed h, List.count_append,
    List.count_eq_zero.2 h, List.count_cons_self, List.length_cons, Nat.add_sub_cancel,
    Nat.forall_lt_succ_left, List.getElem?_cons_zero, List.getElem?_cons_succ, Option.map_some,
    Option.some.injEq, List.getD_cons_succ]
  grind

theorem StartsWithPreamble.feed_mem {line : Line} {more : List Line} {t : Text}
    (h : StartsWithPreamble (line :: more) t) : '\n' ∈ t := by
  have := h.ended
  rw [List.length_cons] at this
  exact List.count_pos_iff.1 (by omega)

theorem afterLines_cons_cons (line next : Line) (more : List Line) (t : Text) :
    afterLines (line :: next :: more) t =
      ((afterLine line t).bind afterBreak).bind (afterLines (next :: more)) := rfl

/-- A text whose first lines are those of the preamble has the other lines left behind it. -/
theorem StartsWithPreamble.afterLines {preamble : List Line} {t : Text}
    (h : StartsWithPreamble preamble t) (hne : preamble ≠ [])
    (hplain : ∀ line ∈ preamble, line.IsPlain) :
    ∃ rest, (afterLines preamble t).bind afterFeed = some rest ∧
      rest.lines = t.lines.drop preamble.length := by
  induction preamble generalizing t with
  | nil => exact absurd rfl hne
  | cons line more ih =>
    obtain ⟨raw, rest, rfl, hraw⟩ := List.eq_append_cons_of_mem h.feed_mem
    have hline := hplain line List.mem_cons_self
    rw [lines_append_feed hraw]
    cases more with
    | nil =>
      rw [startsWithPreamble_singleton_iff hraw] at h
      exact ⟨rest, (afterFeed_afterLine_iff hline).2 ⟨raw, hraw, rfl, h⟩, rfl⟩
    | cons next more =>
      rw [startsWithPreamble_cons_iff hraw] at h
      obtain ⟨behind, hbehind, hlines⟩ := ih h.2 (List.cons_ne_nil next more)
        fun l hl => hplain l (List.mem_cons_of_mem line hl)
      have hbreak : (afterLine line (raw ++ '\n' :: rest)).bind afterBreak = some rest :=
        (afterBreak_afterLine_iff hline).2 ⟨raw, hraw, rfl, h.1⟩
      refine ⟨behind, ?_, hlines⟩
      rw [afterLines_cons_cons, hbreak, Option.bind_some, hbehind]

/-- A preamble is found in no other text. -/
theorem startsWithPreamble_of_afterLines {preamble : List Line} {t rest : Text}
    (h : (Text.afterLines preamble t).bind afterFeed = some rest) (hne : preamble ≠ [])
    (hplain : ∀ line ∈ preamble, line.IsPlain) : StartsWithPreamble preamble t := by
  induction preamble generalizing t with
  | nil => exact absurd rfl hne
  | cons line more ih =>
    have hline := hplain line List.mem_cons_self
    cases more with
    | nil =>
      obtain ⟨raw, hraw, rfl, hbegun⟩ := (afterFeed_afterLine_iff hline).1 h
      exact (startsWithPreamble_singleton_iff hraw).2 hbegun
    | cons next more =>
      rw [afterLines_cons_cons, Option.bind_assoc, Option.bind_eq_some_iff] at h
      obtain ⟨behind, hbreak, hbehind⟩ := h
      obtain ⟨raw, hraw, rfl, hequal⟩ := (afterBreak_afterLine_iff hline).1 hbreak
      exact (startsWithPreamble_cons_iff hraw).2 ⟨hequal, ih hbehind (List.cons_ne_nil next more)
        fun l hl => hplain l (List.mem_cons_of_mem line hl)⟩

theorem afterLines_soughtLines (preamble : List Line) (t : Text) :
    Text.afterLines (soughtLines preamble) t = Text.afterLines preamble t := by
  cases preamble with
  | nil => rfl
  | cons line more => rfl

theorem soughtLines_ne_nil (preamble : List Line) : soughtLines preamble ≠ [] := by
  cases preamble with
  | nil => simp [soughtLines]
  | cons line more => simp [soughtLines]

theorem eq_nil_or_mem_of_mem_soughtLines {preamble : List Line} {line : Line}
    (h : line ∈ soughtLines preamble) : line = [] ∨ line ∈ preamble := by
  cases preamble with
  | nil => exact Or.inl (List.mem_singleton.1 h)
  | cons first more => exact Or.inr h

theorem isPlain_of_mem_soughtLines {preamble : List Line}
    (hplain : ∀ line ∈ preamble, line.IsPlain) : ∀ line ∈ soughtLines preamble, line.IsPlain := by
  intro line hline
  rcases eq_nil_or_mem_of_mem_soughtLines hline with rfl | hmem
  · simp [IsPlain]
  · exact hplain line hmem

/-- The lines of a text without its preamble. -/
theorem lines_withoutPreamble {preamble : List Line}
    (hplain : ∀ line ∈ preamble, line.IsPlain) (t : Text) :
    (withoutPreamble preamble t).lines = headerLines (some preamble) t := by
  have hne := soughtLines_ne_nil preamble
  have hsought := isPlain_of_mem_soughtLines hplain
  rw [withoutPreamble, afterPreamble, ← afterLines_soughtLines, headerLines]
  split_ifs with h
  · obtain ⟨rest, hrest, hlines⟩ := h.afterLines hne hsought
    rw [hrest, Option.map_some, Option.getD_some, lines_dropEmptyLines, hlines]
  · have hnone : (Text.afterLines (soughtLines preamble) t).bind afterFeed = none :=
      Option.eq_none_iff_forall_ne_some.2 fun rest hrest =>
        h (startsWithPreamble_of_afterLines hrest hne hsought)
    rw [hnone, Option.map_none, Option.getD_none]

end Preamble

/-- The verdict is found by comparing the lines of the text with the preamble and the reference. -/
theorem verdict_eq_true_iff_lines (b : Boilerplate) (anyYear : Bool) (contents : Text) (key : Key)
    (reference : List Line) (href : b.references.get? key = some reference)
    (hplain : ∀ preamble, b.preambles.get? key = some preamble → ∀ line ∈ preamble,
      '\n' ∉ line ∧ line.getLast? ≠ some '\r') :
    (b.matcher anyYear).verdict contents key = .ok true ↔
      reference.length ≤ (headerLines (b.preambles.get? key) contents).length ∧
      List.Forall₂ (LineAgrees anyYear)
        ((headerLines (b.preambles.get? key) contents).take reference.length) reference := by
  rw [← startWithLines_iff, Boilerplate.verdict_of_reference href, Except.ok.injEq,
    Text.hasLeadingLines]
  have hlines : (b.body key contents).lines = headerLines (b.preambles.get? key) contents := by
    rw [Boilerplate.body]
    cases hpre : b.preambles.get? key with
    | none => rfl
    | some preamble => exact lines_withoutPreamble (hplain preamble hpre) contents
  rw [hlines]

/-- Both kinds of line ending, a letter whose folding is shorter in bytes, the rest of the last
line of the preamble, and empty lines: the header is found behind all of it. -/
theorem verdict_past_mixed_endings :
    let b : Boilerplate := ⟨⟨[("sh".toList, ["# Copyright 2020".toList, []])]⟩,
      ⟨[("sh".toList, ["#!/bin/bash".toList, "# k".toList])]⟩⟩
    let contents := "#!/BIN/BAſH\r\n# \u212A=1\r\n\n\r\n# Copyright 2021\n\r\ntrue".toList
    (b.matcher true).verdict contents "sh".toList = .ok true ∧
      headerLines (b.preambles.get? "sh".toList) contents =
        ["# Copyright 2021".toList, [], "true".toList] := by
  intro b contents
  have hlines : headerLines (b.preambles.get? "sh".toList) contents =
      ["# Copyright 2021".toList, [], "true".toList] := by decide +kernel
  have hplain : ∀ preamble, b.preambles.get? "sh".toList = some preamble → ∀ line ∈ preamble,
      '\n' ∉ line ∧ line.getLast? ≠ some '\r' := by
    intro preamble h
    cases h
    decide +kernel
  refine ⟨(verdict_eq_true_iff_lines b true contents _ ["# Copyright 2020".toList, []] rfl
    hplain).2 ?_, hlines⟩
  rw [hlines]
  exact ⟨by decide, .cons (by decide +kernel) (.cons rfl .nil)⟩

end HeaderCheck
