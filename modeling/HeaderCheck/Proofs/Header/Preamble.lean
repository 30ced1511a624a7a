import HeaderCheck.Header.Preamble
import HeaderCheck.Proofs.Text.CaseFolding
import HeaderCheck.Proofs.Text.Lines

/-! What is looked for at the front of a text, step by step, and what remains behind it. A line of
a preamble that holds no line ending is found exactly where it is a line of the text, up to case.
Nothing is lost by preparing a preamble. -/

namespace HeaderCheck

namespace Text

theorem afterLine_eq_some_iff {line : Line} {t rest : Text} :
    afterLine line t = some rest ↔ ∃ front, front.folded = line.folded ∧ t = front ++ rest := by
  induction line generalizing t with
  | nil => simp [afterLine, folded, eq_comm]
  | cons d line ih =>
    cases t with
    | nil =>
      simp only [afterLine, folded_cons, reduceCtorEq, false_iff]
      intro h
      obtain ⟨front, hfront, ht⟩ := h
      simp [(List.append_eq_nil_iff.1 ht.symm).1] at hfront
    | cons c t =>
      simp only [afterLine, sameFolded, beq_iff_eq]
      refine ⟨?_, ?_⟩
      · intro h
        split_ifs at h with hc
        obtain ⟨front, hfront, rfl⟩ := ih.1 h
        exact ⟨c :: front, by simp [hc, hfront], rfl⟩
      · intro h
        obtain ⟨front, hfront, ht⟩ := h
        cases front with
        | nil => simp at hfront
        | cons e front =>
          obtain ⟨rfl, rfl⟩ := List.cons.inj ht
          obtain ⟨hc, hfront⟩ := List.cons.inj hfront
          rw [if_pos hc]
          exact ih.2 ⟨front, hfront, rfl⟩

theorem afterBreak_eq_some_iff {t rest : Text} :
    afterBreak t = some rest ↔ t = '\n' :: rest ∨ t = '\r' :: '\n' :: rest := by
  fun_cases afterBreak t <;> grind

theorem afterFeed_append {raw : Text} (h : '\n' ∉ raw) (rest : Text) :
    afterFeed (raw ++ '\n' :: rest) = some rest := by
  induction raw with
  | nil => simp [afterFeed]
  | cons c raw ih =>
    obtain ⟨hc, hraw⟩ := List.ne_and_not_mem_of_not_mem_cons h
    rw [List.cons_append, afterFeed, if_neg hc.symm, ih hraw]

theorem afterFeed_eq_none {raw : Text} (h : '\n' ∉ raw) : afterFeed raw = none := by
  induction raw with
  | nil => rfl
  | cons c raw ih =>
    obtain ⟨hc, hraw⟩ := List.ne_and_not_mem_of_not_mem_cons h
    rw [afterFeed, if_neg hc.symm, ih hraw]

theorem afterFeed_eq_some_iff {t rest : Text} :
    afterFeed t = some rest ↔ ∃ raw, '\n' ∉ raw ∧ t = raw ++ '\n' :: rest := by
  refine ⟨?_, ?_⟩
  · intro h
    by_cases hmem : '\n' ∈ t
    · obtain ⟨raw, behind, rfl, hraw⟩ := List.eq_append_cons_of_mem hmem
      rw [afterFeed_append hraw, Option.some.injEq] at h
      exact ⟨raw, hraw, by rw [h]⟩
    · simp [afterFeed_eq_none hmem] at h
  · intro h
    obtain ⟨raw, hraw, rfl⟩ := h
    exact afterFeed_append hraw rest

/-- A line of a preamble that can be a line of a text: it holds no line feed, and no carriage
return stands at its end. -/
def IsPlain (line : Line) : Prop := '\n' ∉ line ∧ line.getLast? ≠ some '\r'

instance (line : Line) : Decidable line.IsPlain := inferInstanceAs (Decidable (_ ∧ _))

theorem IsPlain.of_folded_eq {front line : Line} (h : line.IsPlain)
    (heq : front.folded = line.folded) : front.IsPlain := by
  refine ⟨fun hmem => h.1 ?_, fun hlast => h.2 ?_⟩
  · rw [← mem_folded_iff (by decide), ← heq, mem_folded_iff (by decide)]
    exact hmem
  · rw [← getLast?_folded_iff (by decide), ← heq, getLast?_folded_iff (by decide)]
    exact hlast

/-- A line followed by a line break is the first line of the text. -/
theorem afterBreak_afterLine_iff {line : Line} (h : line.IsPlain) {t rest : Text} :
    (afterLine line t).bind afterBreak = some rest ↔
      ∃ raw, '\n' ∉ raw ∧ t = raw ++ '\n' :: rest ∧ raw.chomped.folded = line.folded := by
  simp only [Option.bind_eq_some_iff, afterLine_eq_some_iff, afterBreak_eq_some_iff]
  refine ⟨?_, ?_⟩
  · intro hafter
    obtain ⟨behind, ⟨front, hfront, rfl⟩, hbehind⟩ := hafter
    have hplain := h.of_folded_eq hfront
    rcases hbehind with rfl | rfl
    · exact ⟨front, hplain.1, rfl, by rw [chomped_eq_self hplain.2, hfront]⟩
    · exact ⟨front ++ ['\r'], by simpa using hplain.1, by simp,
        by rw [chomped_append_return, hfront]⟩
  · intro hlines
    obtain ⟨raw, -, rfl, hraw⟩ := hlines
    rcases chomped_cases raw with heq | ⟨front, rfl, heq⟩
    · exact ⟨'\n' :: rest, ⟨raw, by rw [← heq, hraw], rfl⟩, Or.inl rfl⟩
    · exact ⟨'\r' :: '\n' :: rest, ⟨front, by rw [← heq, hraw], by simp⟩, Or.inr rfl⟩

/-- A line followed by anything up to a line feed begins the first line of the text. -/
theorem afterFeed_afterLine_iff {line : Line} (h : line.IsPlain) {t rest : Text} :
    (afterLine line t).bind afterFeed = some rest ↔
      ∃ raw, '\n' ∉ raw ∧ t = raw ++ '\n' :: rest ∧ line.folded <+: raw.chomped.folded := by
  simp only [Option.bind_eq_some_iff, afterLine_eq_some_iff, afterFeed_eq_some_iff]
  refine ⟨?_, ?_⟩
  · intro hafter
    obtain ⟨behind, ⟨front, hfront, rfl⟩, tail, htail, rfl⟩ := hafter
    have hplain := h.of_folded_eq hfront
    refine ⟨front ++ tail, by simp [hplain.1, htail], by simp, ?_⟩
    have hprefix : front <+: (front ++ tail).chomped := by
      rcases chomped_cases (front ++ tail) with heq | ⟨body, hbody, heq⟩
      · rw [heq]
        exact List.prefix_append front tail
      · -- `front` is not all of it, since no carriage return stands at its end
        have hconcat : front <+: body ++ ['\r'] := hbody ▸ List.prefix_append front tail
        rcases List.prefix_concat_iff.1 hconcat with rfl | hshort
        · exact absurd (by simp) hplain.2
        · exact heq ▸ hshort
    exact hfront ▸ hprefix.map foldCase
  · intro hlines
    obtain ⟨raw, hmem, rfl, more, hmore⟩ := hlines
    obtain ⟨front, back, hsplit, hfront, -⟩ := List.map_eq_append_iff.1 hmore.symm
    rcases chomped_cases raw with heq | ⟨body, rfl, heq⟩
    · rw [heq] at hsplit
      subst hsplit
      exact ⟨back ++ '\n' :: rest, ⟨front, hfront, by simp⟩, back,
        fun h => hmem (List.mem_append_right _ h), rfl⟩
    · rw [heq] at hsplit
      subst hsplit
      exact ⟨back ++ '\r' :: '\n' :: rest, ⟨front, hfront, by simp⟩, back ++ ['\r'],
        fun h => hmem (by simpa using Or.inr (by simpa using h)), by simp⟩

theorem dropEmptyLines_of_no_feed {raw : Text} (h : '\n' ∉ raw) : dropEmptyLines raw = raw := by
  refine dropEmptyLines.eq_3 raw (fun rest heq => h ?_) (fun rest heq => h ?_)
  · simp [heq]
  · simp [heq]

theorem dropEmptyLines_append_feed {raw : Text} (h : '\n' ∉ raw) (rest : Text) :
    dropEmptyLines (raw ++ '\n' :: rest) =
      if raw.chomped = [] then dropEmptyLines rest else raw ++ '\n' :: rest := by
  split_ifs with hempty
  · rcases (chomped_eq_nil_iff raw).1 hempty with rfl | rfl
    · rfl
    · rfl
  · have hraw := not_or.1 (mt (chomped_eq_nil_iff raw).2 hempty)
    obtain ⟨c, more, rfl⟩ := List.exists_cons_of_ne_nil hraw.1
    refine dropEmptyLines.eq_3 _ (fun behind heq => h ?_) (fun behind heq => ?_)
    · simp [(List.cons.inj heq).1]
    · obtain ⟨rfl, hmore⟩ := List.cons.inj heq
      cases more with
      | nil => exact hraw.2 rfl
      | cons d more => exact h (by simp [(List.cons.inj hmore).1])

/-- The lines behind the empty lines at the front of a text. -/
theorem lines_dropEmptyLines (t : Text) :
    t.dropEmptyLines.lines = t.lines.dropWhile (· = []) := by
  induction t using feedInduction with
  | last raw h =>
    rw [dropEmptyLines_of_no_feed h]
    cases raw with
    | nil => rfl
    | cons c raw => simp [lines_of_no_feed h (List.cons_ne_nil c raw)]
  | line raw rest h ih =>
    rw [dropEmptyLines_append_feed h, lines_append_feed h]
    split_ifs with hempty
    · simp [hempty, ih]
    · simp [hempty, lines_append_feed h]

end Text

namespace PreparedPreamble

theorem afterFoldedLine_folded (line : Line) (t : Text) :
    afterFoldedLine line.folded t = Text.afterLine line t := by
  induction line generalizing t with
  | nil => rfl
  | cons d line ih =>
    cases t with
    | nil => rfl
    | cons c t => simp [afterFoldedLine, Text.afterLine, sameFolded, ih]

theorem afterFoldedLines_folded (preamble : List Line) (t : Text) :
    afterFoldedLines (preamble.map Text.folded) t = Text.afterLines preamble t := by
  induction preamble generalizing t with
  | nil => rfl
  | cons line more ih =>
    cases more with
    | nil => exact afterFoldedLine_folded line t
    | cons next more =>
      simp only [List.map_cons, afterFoldedLines, Text.afterLines, afterFoldedLine_folded] at ih ⊢
      rw [funext ih]

/-- A preamble goes away in the same way whether it is prepared or not. -/
theorem strip_ofLines (preamble : List Line) (t : Text) :
    (ofLines preamble).strip t = Text.withoutPreamble preamble t := by
  show (((afterFoldedLines (preamble.map Text.folded) t).bind Text.afterFeed).map
    Text.dropEmptyLines).getD t = _
  rw [afterFoldedLines_folded]
  rfl

end PreparedPreamble

end HeaderCheck
