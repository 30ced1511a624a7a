import HeaderCheck.Proofs.Header.ByLines
import HeaderCheck.Proofs.Text.Written

/-! Which kind of line break a file uses never matters, be it the file under check, a reference or a
preamble. What a text of plain line feeds says to the matcher is its lines and the number of its
line feeds, and a carriage return before a line feed changes neither. -/

namespace HeaderCheck

namespace Text

/-- The text with each of its line feeds written as the break that is chosen for it, and those for
which no choice is left as they are. -/
def withBreaks : List LineBreak → Text → Text
  | _, [] => []
  | breaks, c :: t =>
    if c = '\n' then (breaks.headD .feed).text ++ withBreaks breaks.tail t
    else c :: withBreaks breaks t

theorem withBreaks_feed (breaks : List LineBreak) (t : Text) :
    withBreaks breaks ('\n' :: t) = (breaks.headD .feed).text ++ withBreaks breaks.tail t := by
  simp [withBreaks]

theorem withBreaks_cons {c : Char} (h : c ≠ '\n') (breaks : List LineBreak) (t : Text) :
    withBreaks breaks (c :: t) = c :: withBreaks breaks t := by
  simp [withBreaks, h]

theorem count_feed_withBreaks (breaks : List LineBreak) (t : Text) :
    (t.withBreaks breaks).count '\n' = t.count '\n' := by
  induction t generalizing breaks with
  | nil => rfl
  | cons c t ih =>
    by_cases hc : c = '\n'
    · rw [hc, withBreaks_feed, List.count_append, count_feed_text, ih, List.count_cons_self,
        Nat.add_comm]
    · rw [withBreaks_cons hc, List.count_cons_of_ne hc, List.count_cons_of_ne hc, ih]

theorem lines_withBreaks {t : Text} (ht : '\r' ∉ t) (breaks : List LineBreak) :
    (t.withBreaks breaks).lines = t.lines := by
  induction t generalizing breaks with
  | nil => rfl
  | cons c t ih =>
    obtain ⟨hc, ht⟩ := List.ne_and_not_mem_of_not_mem_cons ht
    by_cases hfeed : c = '\n'
    · rw [hfeed, withBreaks_feed, ← List.nil_append (LineBreak.text _),
        lines_append_break (by simp) (by simp), lines_feed, ih ht]
    · have hreturn (rest : Text) : c = '\r' → rest.head? ≠ some '\n' := fun h => absurd h hc.symm
      rw [withBreaks_cons hfeed, lines_cons hfeed (hreturn _), lines_cons hfeed (hreturn t), ih ht]

/-- A line holds characters of its text only. -/
theorem mem_of_mem_lines {t : Text} {line : Line} {c : Char} (hline : line ∈ t.lines)
    (hc : c ∈ line) : c ∈ t := by
  have hchomped : ∀ {raw : Text}, c ∈ raw.chomped → c ∈ raw := by
    intro raw hraw
    rcases chomped_cases raw with heq | ⟨front, rfl, heq⟩
    · rwa [heq] at hraw
    · exact List.mem_append_left _ (heq ▸ hraw)
  induction t using feedInduction with
  | last raw hraw =>
    by_cases hne : raw = []
    · subst hne
      cases hline
    · rw [lines_of_no_feed hraw hne, List.mem_singleton] at hline
      exact hline ▸ hc
  | line raw rest hraw ih =>
    rw [lines_append_feed hraw] at hline
    rcases List.mem_cons.1 hline with rfl | hline
    · exact List.mem_append_left _ (hchomped hc)
    · exact List.mem_append_right _ (List.mem_cons_of_mem _ (ih hline))

theorem isPlain_of_mem_lines {t : Text} (ht : '\r' ∉ t) {line : Line} (h : line ∈ t.lines) :
    line.IsPlain :=
  ⟨notMem_of_mem_lines h, fun hlast => ht (mem_of_mem_lines h (List.mem_of_getLast? hlast))⟩

end Text

/-- The lines that are compared with the reference are found by the lines of a text and the number
of its line feeds. -/
theorem headerLines_congr {t t' : Text} (hlines : t'.lines = t.lines)
    (hcount : t'.count '\n' = t.count '\n') (preamble? : Option (List Line)) :
    headerLines preamble? t' = headerLines preamble? t := by
  cases preamble? with
  | none => exact hlines
  | some preamble => simp only [headerLines, startsWithPreamble_iff, hlines, hcount]

theorem lines_withoutPreamble_withBreaks {preamble : List Line} {t : Text} (ht : '\r' ∉ t)
    (hplain : ∀ line ∈ preamble, line.IsPlain) (breaks : List LineBreak) :
    ((t.withBreaks breaks).withoutPreamble preamble).lines =
      (t.withoutPreamble preamble).lines := by
  rw [lines_withoutPreamble hplain, lines_withoutPreamble hplain]
  exact headerLines_congr (Text.lines_withBreaks ht breaks) (Text.count_feed_withBreaks breaks t) _

section Verdict

variable {reference preamble contents : Text}

/-- A reference, a preamble and a file give the same verdict however their lines end, with the
preamble or without it. -/
theorem verdict_withBreaks (hreference : '\r' ∉ reference) (hpreamble : '\r' ∉ preamble)
    (hcontents : '\r' ∉ contents) (inReference inPreamble inContents : List LineBreak) :
    (reference.withBreaks inReference).lines = reference.lines ∧
      (preamble.withBreaks inPreamble).lines = preamble.lines ∧
      ∀ (b b' : Boilerplate) (key : Key) (anyYear : Bool),
        b.references.get? key = some reference.lines →
        b'.references.get? key = some (reference.withBreaks inReference).lines →
        (b.preambles.get? key = none ∧ b'.preambles.get? key = none ∨
          b.preambles.get? key = some preamble.lines ∧
            b'.preambles.get? key = some (preamble.withBreaks inPreamble).lines) →
        (b'.matcher anyYear).verdict (contents.withBreaks inContents) key =
          (b.matcher anyYear).verdict contents key := by
  have hreflines := Text.lines_withBreaks hreference inReference
  have hprelines := Text.lines_withBreaks hpreamble inPreamble
  refine ⟨hreflines, hprelines, fun b b' key anyYear href href' hpre => ?_⟩
  have hbody : (b'.body key (contents.withBreaks inContents)).lines =
      (b.body key contents).lines := by
    rcases hpre with ⟨hnone, hnone'⟩ | ⟨hsome, hsome'⟩
    · rw [Boilerplate.body, Boilerplate.body, hnone, hnone']
      exact Text.lines_withBreaks hcontents inContents
    · rw [Boilerplate.body, Boilerplate.body, hsome, hsome', hprelines]
      exact lines_withoutPreamble_withBreaks hcontents
        (fun line => Text.isPlain_of_mem_lines hpreamble) inContents
  rw [Boilerplate.verdict_of_reference href, Boilerplate.verdict_of_reference href', hreflines,
    Text.hasLeadingLines, Text.hasLeadingLines, hbody]

/-- Returns in all three texts, after the first line of the preamble and between the blank lines
behind it among others. -/
theorem verdict_returns_mixed :
    let reference : Text := "# 2020\n\n# H".toList
    let preamble : Text := "#!a\n#b\n".toList
    let contents : Text := "#!A\n#bc\n\n\n# 2021\n\n# H".toList
    let contents' : Text := "#!A\r\n#bc\n\n\r\n# 2021\n\r\n# H".toList
    let b : Boilerplate := ⟨⟨[("sh".toList, reference.lines)]⟩, ⟨[("sh".toList, preamble.lines)]⟩⟩
    let b' : Boilerplate := ⟨⟨[("sh".toList, Text.lines "# 2020\r\n\n# H".toList)]⟩,
      ⟨[("sh".toList, Text.lines "#!a\n#b\r\n".toList)]⟩⟩
    (b.matcher true).verdict contents "sh".toList = .ok true ∧
      (b'.matcher true).verdict contents' "sh".toList = .ok true := by
  intro reference preamble contents contents' b b'
  have hreference : reference.withBreaks [.returnFeed] = "# 2020\r\n\n# H".toList := by
    decide +kernel
  have hpreamble : preamble.withBreaks [.feed, .returnFeed] = "#!a\n#b\r\n".toList := by
    decide +kernel
  have hcontents : contents.withBreaks
      [.returnFeed, .feed, .feed, .returnFeed, .feed, .returnFeed] = contents' := by decide +kernel
  have hverdict : (b.matcher true).verdict contents "sh".toList = .ok true := by decide +kernel
  have hr : '\r' ∉ reference := by decide +kernel
  have hp : '\r' ∉ preamble := by decide +kernel
  have hc : '\r' ∉ contents := by decide +kernel
  obtain ⟨-, -, hsame⟩ := verdict_withBreaks hr hp hc [.returnFeed] [.feed, .returnFeed]
    [.returnFeed, .feed, .feed, .returnFeed, .feed, .returnFeed]
  rw [hreference, hpreamble, hcontents] at hsame
  exact ⟨hverdict, (hsame b b' "sh".toList true rfl rfl (Or.inr ⟨rfl, rfl⟩)).trans hverdict⟩

end Verdict

end HeaderCheck
