import HeaderCheck.Proofs.Header.Opening

/-! How much of a file decides its verdict. The lines of a preamble are told by as many line feeds
as there are lines, and those of a header by as many line feeds behind it. What is added to a file
behind these neither completes a preamble nor goes away with one, and it makes no line longer. -/

namespace HeaderCheck

namespace Text

variable {t : Text}

theorem count_feed_written {ls : List (Line × LineBreak)} (h : ∀ l ∈ ls, '\n' ∉ l.1) :
    (written ls).count '\n' = ls.length := by
  induction ls with
  | nil => rfl
  | cons l ls ih =>
    obtain ⟨hl, hls⟩ := List.forall_mem_cons.1 h
    rw [written_cons, List.count_append, List.count_append, List.count_eq_zero.2 hl,
      count_feed_text, ih hls, List.length_cons]
    omega

/-- A front that ends with a line feed of the text is a front of that text alone. -/
theorem prefix_of_prefix_append {front more : Text} (h : front <+: t ++ more)
    (hlast : front.getLast? = some '\n') (hcount : front.count '\n' ≤ t.count '\n') :
    front <+: t := by
  rcases List.prefix_or_prefix_of_prefix h (List.prefix_append t more) with hshort | hlong
  · exact hshort
  · obtain ⟨rest, rfl⟩ := hlong
    have hnone : '\n' ∉ rest := by
      rw [List.count_append] at hcount
      exact List.count_eq_zero.1 (by omega)
    cases rest with
    | nil => exact ⟨[], by simp⟩
    | cons c rest =>
      rw [List.getLast?_append_of_ne_nil _ (List.cons_ne_nil c rest)] at hlast
      exact absurd (List.mem_of_getLast? hlast) hnone

/-- Where a line is left behind the empty lines, what follows it does not go away with them. -/
theorem dropEmptyLines_append (h : '\n' ∈ t.dropEmptyLines) (more : Text) :
    (t ++ more).dropEmptyLines = t.dropEmptyLines ++ more := by
  obtain ⟨blank, ht, hfeed, hreturn⟩ := dropEmptyLines_eq_iff.1 (rfl : t.dropEmptyLines = _)
  have hcount : 1 ≤ t.dropEmptyLines.count '\n' := List.count_pos_iff.2 h
  refine dropEmptyLines_eq_iff.2 ⟨blank, ?_, fun hprefix => hfeed ?_, fun hprefix => hreturn ?_⟩
  · rw [← List.append_assoc, ← ht]
  · exact prefix_of_prefix_append hprefix rfl hcount
  · exact prefix_of_prefix_append hprefix rfl hcount

/-- The first lines of a text are those that end in its first line feeds. -/
theorem take_lines_append {n : ℕ} (h : n ≤ t.count '\n') (more : Text) :
    (t ++ more).lines.take n = t.lines.take n := by
  induction t using feedInduction generalizing n with
  | last raw hraw =>
    rw [List.count_eq_zero.2 hraw] at h
    rw [Nat.le_zero.1 h, List.take_zero, List.take_zero]
  | line raw rest hraw ih =>
    rw [List.append_assoc, List.cons_append, lines_append_feed hraw, lines_append_feed hraw]
    cases n with
    | zero => rfl
    | succ n =>
      have hrest : n ≤ rest.count '\n' := by
        rw [List.count_append, List.count_eq_zero.2 hraw, List.count_cons_self] at h
        omega
      rw [List.take_succ_cons, List.take_succ_cons, ih hrest]

end Text

/-- Lines beyond those of the reference do not matter. -/
theorem startWithLines_take (anyYear : Bool) (lines reference : List Line) :
    startWithLines anyYear (lines.take reference.length) reference =
      startWithLines anyYear lines reference := by
  induction reference generalizing lines with
  | nil => simp [startWithLines]
  | cons expected reference ih =>
    cases lines with
    | nil => rfl
    | cons line lines =>
      rw [List.length_cons, List.take_succ_cons, startWithLines, startWithLines, ih]

theorem Text.hasLeadingLines_append {t : Text} {reference : List Line}
    (h : reference.length ≤ t.count '\n') (anyYear : Bool) (more : Text) :
    (t ++ more).hasLeadingLines reference anyYear = t.hasLeadingLines reference anyYear := by
  rw [hasLeadingLines, hasLeadingLines, ← startWithLines_take, take_lines_append h,
    startWithLines_take]

section Preamble

variable {preamble : List Line} {t : Text}

theorem length_soughtLines (preamble : List Line) :
    (soughtLines preamble).length = max 1 preamble.length := by
  cases preamble with
  | nil => rfl
  | cons line more => simp [soughtLines]

/-- A preamble of lines stands in as many lines, each with its line feed. -/
theorem Opening.IsOf.count_feed {o : Opening} (ho : o.IsOf preamble)
    (h : ∀ line ∈ preamble, '\n' ∉ line) : o.text.count '\n' = max 1 preamble.length := by
  have hlines : ∀ line ∈ o.lines, '\n' ∉ line := by
    intro line hline
    obtain ⟨sought, hsought, heq⟩ := List.mem_map.1 (ho.lines ▸ List.mem_map_of_mem hline)
    rw [← Text.mem_folded_iff (by decide), ← heq, Text.mem_folded_iff (by decide)]
    rcases eq_nil_or_mem_of_mem_soughtLines hsought with rfl | hmem
    · exact List.not_mem_nil
    · exact h sought hmem
  have hlength : o.before.length + 1 = max 1 preamble.length := by
    have heq := congrArg List.length ho.lines
    rwa [List.length_map, List.length_map, Opening.lines, List.length_append, List.length_map,
      List.length_singleton, length_soughtLines] at heq
  obtain ⟨hbefore, hlast⟩ := List.forall_mem_append.1 hlines
  rw [Opening.text, List.count_append, List.count_append, List.count_append,
    Text.count_feed_written fun l hl => hbefore l.1 (List.mem_map_of_mem hl),
    List.count_eq_zero.2 (hlast o.last (List.mem_singleton_self _)), List.count_eq_zero.2 ho.tail,
    List.count_singleton_self, ← hlength]

/-- Behind the line feeds of a preamble, and one line more, a text keeps all that is added to it. -/
theorem withoutPreamble_append (h : ∀ line ∈ preamble, '\n' ∉ line)
    (hcount : max 1 preamble.length ≤ t.count '\n') (hmem : '\n' ∈ t.withoutPreamble preamble)
    (more : Text) :
    (t ++ more).withoutPreamble preamble = t.withoutPreamble preamble ++ more := by
  unfold Text.withoutPreamble Text.afterPreamble at hmem ⊢
  cases hfound : (Text.afterLines preamble t).bind Text.afterFeed with
  | some rest =>
    obtain ⟨o, ho, rfl⟩ := Text.afterFeed_afterLines_iff.1 hfound
    rw [hfound, Option.map_some, Option.getD_some] at hmem
    rw [Text.afterFeed_afterLines_iff.2 ⟨o, ho, List.append_assoc o.text rest more⟩]
    exact Text.dropEmptyLines_append hmem more
  | none =>
    have hnone : (Text.afterLines preamble (t ++ more)).bind Text.afterFeed = none := by
      rw [Option.eq_none_iff_forall_ne_some]
      intro rest hrest
      obtain ⟨o, ho, htext⟩ := Text.afterFeed_afterLines_iff.1 hrest
      have hprefix : o.text <+: t :=
        Text.prefix_of_prefix_append ⟨rest, htext.symm⟩ o.getLast?_text (ho.count_feed h ▸ hcount)
      obtain ⟨behind, hbehind⟩ := hprefix
      rw [Text.afterFeed_afterLines_iff.2 ⟨o, ho, hbehind.symm⟩] at hfound
      cases hfound
    rw [hnone]
    rfl

end Preamble

/-- The verdict on a file with a line feed for each line of the preamble, one at least, and behind
the preamble one for each line of the reference, does not change with anything added to the file. -/
theorem verdict_append {b : Boilerplate} {key : Key} {reference : List Line} {contents : Text}
    (anyYear : Bool) (href : b.references.get? key = some reference)
    (hpre : ∀ preamble, b.preambles.get? key = some preamble →
      (∀ line ∈ preamble, '\n' ∉ line) ∧ max 1 preamble.length ≤ contents.count '\n')
    (hbody : reference.length ≤ (b.body key contents).count '\n') (more : Text) :
    (b.matcher anyYear).verdict (contents ++ more) key =
      (b.matcher anyYear).verdict contents key := by
  rw [Boilerplate.verdict_of_reference href, Boilerplate.verdict_of_reference href]
  cases reference with
  | nil => simp [Text.hasLeadingLines, startWithLines]
  | cons expected reference =>
    have hmem : '\n' ∈ b.body key contents :=
      List.count_pos_iff.1 (Nat.lt_of_lt_of_le (Nat.succ_pos _) hbody)
    have happend : b.body key (contents ++ more) = b.body key contents ++ more := by
      unfold Boilerplate.body at hmem ⊢
      cases hkey : b.preambles.get? key with
      | none => rfl
      | some preamble =>
        rw [hkey] at hmem
        exact withoutPreamble_append (hpre preamble hkey).1 (hpre preamble hkey).2 hmem more
    rw [happend, Text.hasLeadingLines_append hbody]

/-- Behind the preamble and a header of two lines there may follow empty lines, the preamble again,
and half a line ending. -/
theorem verdict_longerScript :
    let b : Boilerplate := ⟨⟨[("sh".toList, ["# 2020".toList, []])]⟩,
      ⟨[("sh".toList, ["#!/bin/sh".toList, "# k\r".toList])]⟩⟩
    let contents := "#!/BIN/sh\r\n# k\r=1\n\r\n# 2021\r\n\n".toList
    let more := "\n\r\n#!/bin/sh\n# k\r\n\r".toList
    contents.count '\n' = 5 ∧ (b.body "sh".toList contents).count '\n' = 2 ∧
      (b.matcher true).verdict contents "sh".toList = .ok true ∧
      (b.matcher true).verdict (contents ++ more) "sh".toList = .ok true := by
  intro b contents more
  have hverdict : (b.matcher true).verdict contents "sh".toList = .ok true := by decide +kernel
  have hpre : ∀ preamble, b.preambles.get? "sh".toList = some preamble →
      (∀ line ∈ preamble, '\n' ∉ line) ∧ max 1 preamble.length ≤ contents.count '\n' := by
    intro preamble h
    cases h
    decide +kernel
  have hbody : (b.body "sh".toList contents).count '\n' = 2 := by decide +kernel
  have href : b.references.get? "sh".toList = some ["# 2020".toList, []] := rfl
  have hlength : ["# 2020".toList, []].length ≤ (b.body "sh".toList contents).count '\n' := by
    rw [hbody]
    decide
  refine ⟨by decide +kernel, hbody, hverdict, ?_⟩
  rw [← hverdict]
  exact verdict_append true href hpre hlength more

end HeaderCheck
