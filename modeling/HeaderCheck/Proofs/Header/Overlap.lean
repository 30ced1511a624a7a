import HeaderCheck.Proofs.Header.Opening

/-! When a preamble is optional. A file that starts directly with its header passes with a preamble
registered as long as no header is taken for the preamble, and no longer: the lines that the
preamble takes away are then missing from some file. Whether that can happen is told by the lines
of the two, the first with the first. -/

namespace HeaderCheck

/-- Some text starts with the header and is found to start with the preamble too. -/
def Overlap (preamble reference : List Line) : Prop :=
  ∃ t rest : Text, t.hasLeadingLines reference false = true ∧ t.afterPreamble preamble = some rest

namespace Text

theorem hasLeadingLines_iff_prefix {t : Text} {reference : List Line} :
    t.hasLeadingLines reference false = true ↔ reference <+: t.lines := by
  rw [hasLeadingLines]
  generalize t.lines = lines
  induction reference generalizing lines with
  | nil => simp [startWithLines]
  | cons expected reference ih =>
    cases lines with
    | nil => simp [startWithLines]
    | cons line lines =>
      have hagree : linesAgree false line expected = true ↔ expected = line := by
        rw [linesAgree, if_neg Bool.false_ne_true, beq_iff_eq, eq_comm]
      rw [startWithLines, Bool.and_eq_true, hagree, ih, List.cons_prefix_cons]

/-- A preamble takes away lines that end in a line feed, and the empty lines behind them. -/
theorem afterPreamble_eq_some {preamble : List Line} {t rest : Text}
    (h : t.afterPreamble preamble = some rest) :
    ∃ raw more, t = raw ++ '\n' :: more ∧
      ∀ behind, afterPreamble preamble (raw ++ '\n' :: behind) = some (dropEmptyLines behind) := by
  obtain ⟨more, hmore, -⟩ := Option.map_eq_some_iff.1 h
  obtain ⟨o, ho, rfl⟩ := afterFeed_afterLines_iff.1 hmore
  obtain ⟨raw, hraw⟩ := List.getLast?_eq_some_iff.1 o.getLast?_text
  refine ⟨raw, more, by rw [hraw, List.append_assoc, List.singleton_append], fun behind => ?_⟩
  have htaken : raw ++ '\n' :: behind = o.text ++ behind := by
    rw [hraw, List.append_assoc, List.singleton_append]
  rw [afterPreamble, afterFeed_afterLines_iff.2 ⟨o, ho, htaken⟩, Option.map_some]

end Text

/-- The rest of the header can be put in place of what stands behind some of its lines. -/
theorem prefix_append_drop {reference taken more : List Line} (h : reference <+: taken ++ more) :
    reference <+: taken ++ reference.drop taken.length := by
  rcases Nat.le_total reference.length taken.length with hle | hle
  · exact (List.prefix_of_prefix_length_le h (List.prefix_append _ _) hle).trans
      (List.prefix_append _ _)
  · obtain ⟨rest, rfl⟩ := List.prefix_of_prefix_length_le (List.prefix_append taken more) h hle
    exact ⟨[], by rw [List.append_nil, List.drop_left]⟩

/-- Where the header is taken for the preamble, some file that starts with it does not pass: one
that ends with the header, or with the preamble where that is longer. -/
theorem exists_not_hasLeadingLines {preamble reference : List Line} (hne : reference ≠ [])
    (h : Overlap preamble reference) :
    ∃ t : Text, t.hasLeadingLines reference false = true ∧
      (t.withoutPreamble preamble).hasLeadingLines reference false = false := by
  obtain ⟨t, rest, hleading, hpreamble⟩ := h
  obtain ⟨raw, more, rfl, hafter⟩ := Text.afterPreamble_eq_some hpreamble
  rw [Text.hasLeadingLines_iff_prefix, Text.lines_append_of_feed] at hleading
  have hmem : ∀ line ∈ reference, '\n' ∉ line := fun line hline =>
    Text.notMem_of_mem_lines (t := raw ++ '\n' :: more)
      (Text.lines_append_of_feed raw more ▸ hleading.subset hline)
  have htail : (Text.ofLines (reference.drop (Text.lines (raw ++ ['\n'])).length)).lines =
      reference.drop (Text.lines (raw ++ ['\n'])).length :=
    Text.lines_ofLines fun line hline => hmem line (List.mem_of_mem_drop hline)
  refine ⟨raw ++ '\n' :: Text.ofLines (reference.drop (Text.lines (raw ++ ['\n'])).length), ?_, ?_⟩
  · rw [Text.hasLeadingLines_iff_prefix, Text.lines_append_of_feed, htail]
    exact prefix_append_drop hleading
  · rw [← Bool.not_eq_true, Text.hasLeadingLines_iff_prefix, Text.withoutPreamble, hafter,
      Option.getD_some, Text.lines_dropEmptyLines, htail]
    intro hprefix
    have hfeed : 1 ≤ (Text.lines (raw ++ ['\n'])).length :=
      Nat.le_trans (List.count_pos_iff.2 (by simp)) (Text.count_feed_le_length_lines _)
    have hshort := Nat.le_trans hprefix.length_le (List.dropWhile_sublist _).length_le
    rw [List.length_drop] at hshort
    have := List.length_pos_iff.2 hne
    omega

/-- The lines of the preamble are those of the header, up to case, as far as both go; of its last
line the preamble has only the beginning. -/
def meets : List Line → List Line → Bool
  | [], _ => true
  | _ :: _, [] => true
  | [line], expected :: _ => line.folded.isPrefixOf expected.folded
  | line :: next :: more, expected :: reference =>
    expected.folded == line.folded && meets (next :: more) reference

theorem meets_of_startsWithPreamble {preamble reference : List Line} {t : Text}
    (h : StartsWithPreamble preamble t) (hleading : reference <+: t.lines) :
    meets preamble reference = true := by
  induction preamble generalizing reference t with
  | nil => rfl
  | cons line more ih =>
    cases reference with
    | nil => rfl
    | cons expected reference =>
      obtain ⟨raw, rest, rfl, hraw⟩ := List.eq_append_cons_of_mem h.feed_mem
      rw [Text.lines_append_feed hraw, List.cons_prefix_cons] at hleading
      obtain ⟨rfl, hreference⟩ := hleading
      cases more with
      | nil => exact List.isPrefixOf_iff_prefix.2 ((startsWithPreamble_singleton_iff hraw).1 h)
      | cons next more =>
        rw [startsWithPreamble_cons_iff hraw] at h
        rw [meets, Bool.and_eq_true, beq_iff_eq]
        exact ⟨h.1, ih h.2 hreference⟩

/-- A file of the header and of the lines by which the preamble is longer starts with both. -/
theorem startsWithPreamble_of_meets {preamble reference : List Line} (hne : preamble ≠ [])
    (hpreamble : ∀ line ∈ preamble, '\n' ∉ line) (hreference : ∀ line ∈ reference, '\n' ∉ line)
    (h : meets preamble reference = true) :
    StartsWithPreamble preamble
      (Text.ofLines (reference ++ preamble.drop reference.length)) := by
  induction preamble generalizing reference with
  | nil => exact absurd rfl hne
  | cons line more ih =>
    have hmore : ∀ l ∈ more, '\n' ∉ l := fun l hl => hpreamble l (List.mem_cons_of_mem line hl)
    cases reference with
    | nil =>
      have hraw : '\n' ∉ line ++ ['\r'] := by simpa using hpreamble line List.mem_cons_self
      rw [List.nil_append, List.length_nil, List.drop_zero, Text.ofLines_cons]
      cases more with
      | nil =>
        refine (startsWithPreamble_singleton_iff hraw).2 ⟨[], ?_⟩
        rw [List.append_nil, Text.chomped_append_return]
      | cons next more =>
        rw [startsWithPreamble_cons_iff hraw, Text.chomped_append_return]
        have hnil : ∀ l ∈ ([] : List Line), '\n' ∉ l := List.forall_mem_nil _
        have hrest := ih (List.cons_ne_nil next more) hmore hnil rfl
        exact ⟨rfl, hrest⟩
    | cons expected reference =>
      have hraw : '\n' ∉ expected ++ ['\r'] := by simpa using hreference expected List.mem_cons_self
      rw [List.cons_append, List.length_cons, List.drop_succ_cons, Text.ofLines_cons]
      cases more with
      | nil =>
        rw [startsWithPreamble_singleton_iff hraw, Text.chomped_append_return]
        exact List.isPrefixOf_iff_prefix.1 h
      | cons next more =>
        rw [meets, Bool.and_eq_true, beq_iff_eq] at h
        rw [startsWithPreamble_cons_iff hraw, Text.chomped_append_return]
        exact ⟨h.1, ih (List.cons_ne_nil next more) hmore
          (fun l hl => hreference l (List.mem_cons_of_mem expected hl)) h.2⟩

/-- For lines as a file has them it can be seen whether the header is taken for the preamble. -/
theorem overlap_iff_meets {preamble reference : List Line}
    (hpreamble : ∀ line ∈ preamble, line.IsPlain) (hreference : ∀ line ∈ reference, '\n' ∉ line) :
    Overlap preamble reference ↔ meets (soughtLines preamble) reference = true := by
  have hne := soughtLines_ne_nil preamble
  have hplain := isPlain_of_mem_soughtLines hpreamble
  refine ⟨fun h => ?_, fun h => ?_⟩
  · obtain ⟨t, rest, hleading, hafter⟩ := h
    obtain ⟨more, hmore, -⟩ := Option.map_eq_some_iff.1 hafter
    rw [← afterLines_soughtLines] at hmore
    exact meets_of_startsWithPreamble (startsWithPreamble_of_afterLines hmore hne hplain)
      (Text.hasLeadingLines_iff_prefix.1 hleading)
  · have hstarts := startsWithPreamble_of_meets hne (fun l hl => (hplain l hl).1) hreference h
    obtain ⟨rest, hrest, -⟩ := hstarts.afterLines hne hplain
    refine ⟨Text.ofLines (reference ++ (soughtLines preamble).drop reference.length),
      rest.dropEmptyLines, ?_, ?_⟩
    · rw [Text.hasLeadingLines_iff_prefix, Text.lines_ofLines]
      · exact List.prefix_append _ _
      · intro line hline
        rcases List.mem_append.1 hline with hline | hline
        · exact hreference line hline
        · exact (hplain line (List.mem_of_mem_drop hline)).1
    · rw [Text.afterPreamble, ← afterLines_soughtLines, hrest, Option.map_some]

section Verdict

variable {contents : Text} {key : Key} {reference preamble : List Line}

theorem hasValidHeader_without_preamble :
    hasValidHeader contents key (.ofList [(key, reference)]) .empty = .ok true ↔
      contents.hasLeadingLines reference false = true := by
  simp [hasValidHeader, Catalogue.ofList, Catalogue.get?_insert, Catalogue.get?_empty]

theorem hasValidHeader_with_preamble :
    hasValidHeader contents key (.ofList [(key, reference)]) (.ofList [(key, preamble)]) =
        .ok true ↔
      (contents.withoutPreamble preamble).hasLeadingLines reference false = true := by
  simp [hasValidHeader, Catalogue.ofList, Catalogue.get?_insert]

end Verdict

/-- A preamble leaves every file valid that starts directly with its header if, and only if, the
header is empty or is never taken for the preamble. Lines as files have them say when it is: when
the first lines of the two are the same up to case, as far as both go, and the last line of the
preamble begins its counterpart. -/
theorem preamble_optional_iff (key : Key) (reference preamble : List Line) :
    ((∀ contents,
        hasValidHeader contents key (.ofList [(key, reference)]) .empty = .ok true →
        hasValidHeader contents key (.ofList [(key, reference)]) (.ofList [(key, preamble)]) =
          .ok true) ↔
      reference = [] ∨ ¬ Overlap preamble reference) ∧
    ((∀ line ∈ preamble, '\n' ∉ line ∧ line.getLast? ≠ some '\r') →
      (∀ line ∈ reference, '\n' ∉ line) →
        (Overlap preamble reference ↔ meets (soughtLines preamble) reference = true)) := by
  refine ⟨?_, overlap_iff_meets⟩
  simp only [hasValidHeader_without_preamble, hasValidHeader_with_preamble]
  refine ⟨fun h => ?_, fun h contents hleading => ?_⟩
  · by_contra hboth
    obtain ⟨hne, hoverlap⟩ := not_or.1 hboth
    obtain ⟨t, hleading, hnot⟩ := exists_not_hasLeadingLines hne (not_not.1 hoverlap)
    rw [h t hleading] at hnot
    cases hnot
  · rcases h with rfl | hnone
    · rw [Text.hasLeadingLines_iff_prefix]
      exact List.nil_prefix
    · have hpreamble : contents.afterPreamble preamble = none :=
        Option.eq_none_iff_forall_ne_some.2 fun rest hrest =>
          hnone ⟨contents, rest, hleading, hrest⟩
      rwa [Text.withoutPreamble, hpreamble]

/-- The line that names an interpreter is optional before a header that is a comment. -/
theorem shebang_optional :
    let reference := ["# Copyright 2020".toList, []]
    let preamble := ["#!/usr/bin/env bash".toList, "# -*-".toList]
    let contents := "# Copyright 2020\r\n\n#!/usr/bin/env bash\n".toList
    ¬ Overlap preamble reference ∧
      hasValidHeader contents "sh".toList (.ofList [("sh".toList, reference)]) .empty = .ok true ∧
      hasValidHeader contents "sh".toList (.ofList [("sh".toList, reference)])
        (.ofList [("sh".toList, preamble)]) = .ok true := by
  intro reference preamble contents
  obtain ⟨hoptional, hmeets⟩ := preamble_optional_iff "sh".toList reference preamble
  have hnot : ¬ Overlap preamble reference := by
    rw [hmeets (by decide +kernel) (by decide +kernel)]
    decide +kernel
  have hvalid : hasValidHeader contents "sh".toList (.ofList [("sh".toList, reference)]) .empty =
      .ok true := by decide +kernel
  exact ⟨hnot, hvalid, hoptional.2 (Or.inr hnot) contents hvalid⟩

/-- A preamble that begins the header takes the first line of the header away. -/
theorem hasValidHeader_behind_begun_header :
    hasValidHeader "# Copyright 2020\n".toList "py".toList
      (.ofList [("py".toList, ["# Copyright 2020".toList])]) .empty = .ok true ∧
    hasValidHeader "# Copyright 2020\n".toList "py".toList
      (.ofList [("py".toList, ["# Copyright 2020".toList])])
      (.ofList [("py".toList, ["#".toList])]) = .ok false := by
  decide +kernel

end HeaderCheck
