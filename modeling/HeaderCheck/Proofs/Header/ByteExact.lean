import HeaderCheck.Proofs.Header.Overlap
import HeaderCheck.Proofs.Text.Utf8
import HeaderCheck.Proofs.Text.Written
import HeaderCheck.Proofs.Verification.Stages

/-! The check of a file in its bytes. Bytes that are no character are read as U+FFFD, so what is
compared with the reference is not the file itself. All the same no file passes but one that begins
with the bytes of the reference: U+FFFD is not in it, and no byte of a broken character is taken for
part of another one. -/

namespace HeaderCheck

theorem isWrittenIn_decodeLossy_iff {reference : List Line} {bytes : Bytes}
    (h : ∀ line ∈ reference, '\uFFFD' ∉ line) :
    Text.IsWrittenIn reference (Utf8.decodeLossy bytes) ↔
      (∃ ls rest, ls.map (·.1) = reference ∧ bytes = Utf8.encode (Text.written ls) ++ rest) ∨
        ∃ ls last, last ≠ [] ∧ ls.map (·.1) ++ [last] = reference ∧
          bytes = Utf8.encode (Text.written ls ++ last) := by
  have hwritten {ls : List (Line × LineBreak)} (hls : ∀ line ∈ ls.map (·.1), '\uFFFD' ∉ line) :
      '\uFFFD' ∉ Text.written ls := by
    intro hmem
    rcases Text.mem_written hmem with hreturn | hfeed | ⟨l, hl, hmem⟩
    · exact absurd hreturn (by decide)
    · exact absurd hfeed (by decide)
    · exact hls l.1 (List.mem_map_of_mem hl) hmem
  refine or_congr ⟨?_, ?_⟩ ⟨?_, ?_⟩
  · rintro ⟨ls, behind, rfl, htext⟩
    obtain ⟨rest, hbytes, -⟩ := (Utf8.decodeLossy_eq_append_iff (hwritten h)).1 htext
    exact ⟨ls, rest, rfl, hbytes⟩
  · rintro ⟨ls, rest, rfl, rfl⟩
    exact ⟨ls, _, rfl, Utf8.decodeLossy_encode_append _ rest⟩
  · rintro ⟨ls, last, hne, rfl, htext⟩
    obtain ⟨hls, hlast⟩ := List.forall_mem_append.1 h
    have hnot : '\uFFFD' ∉ Text.written ls ++ last := by
      simpa [hwritten hls] using hlast
    exact ⟨ls, last, hne, rfl, (Utf8.decodeLossy_eq_iff hnot).1 htext⟩
  · rintro ⟨ls, last, hne, rfl, rfl⟩
    exact ⟨ls, last, hne, rfl, Utf8.decodeLossy_encode _⟩

variable {w : World} {p : Path} {bytes : Bytes} {b : Boilerplate} {key : Key}
variable {reference : List Line}

/-- With exact years and no preamble a file passes if its bytes are those of the header, each line
with a break of either kind, and anything behind them, or end right behind a last line that is not
empty. No other bytes pass. -/
theorem verdict_eq_true_iff_bytes (hfile : w.stat p = .ok (.file bytes))
    (href : b.references.get? key = some reference) (hpre : b.preambles.get? key = none)
    (hplain : ∀ line ∈ reference, '\n' ∉ line ∧ '\uFFFD' ∉ line ∧ line.getLast? ≠ some '\r') :
    ∃ contents, w.readSource p = .ok contents ∧
      ((b.matcher false).verdict contents key = .ok true ↔
        (∃ ls rest, ls.map (·.1) = reference ∧ bytes = Utf8.encode (Text.written ls) ++ rest) ∨
          ∃ ls last, last ≠ [] ∧ ls.map (·.1) ++ [last] = reference ∧
            bytes = Utf8.encode (Text.written ls ++ last)) := by
  have hbody : b.body key (Utf8.decodeLossy bytes) = Utf8.decodeLossy bytes := by
    rw [Boilerplate.body, hpre]
  refine ⟨_, World.readSource_eq_ok_iff.2 ⟨bytes, hfile, rfl⟩, ?_⟩
  rw [Boilerplate.verdict_of_reference href, hbody, Except.ok.injEq,
    Text.hasLeadingLines_iff_prefix,
    Text.prefix_lines_iff fun line hline => ⟨(hplain line hline).1, (hplain line hline).2.2⟩,
    isWrittenIn_decodeLossy_iff fun line hline => (hplain line hline).2.1]

/-- Behind the header stand the first two bytes of a character of three. -/
def brokenTail : World where
  disk := {
    root := .file "x.py".toList [35, 32, 0xC3, 0xA9, 13, 10, 0xE2, 0x82, 10] .empty
    wellFormed := by decide +kernel }
  cwd := .on []
  git := none

theorem verdict_brokenTail :
    let b : Boilerplate := ⟨⟨[("py".toList, ["# é".toList])]⟩, ⟨[]⟩⟩
    ∃ contents, brokenTail.readSource ⟨"/x.py".toList⟩ = .ok contents ∧
      (b.matcher false).verdict contents "py".toList = .ok true := by
  intro b
  have hfile : brokenTail.stat ⟨"/x.py".toList⟩ =
      .ok (.file [35, 32, 0xC3, 0xA9, 13, 10, 0xE2, 0x82, 10]) := by decide +kernel
  have href : b.references.get? "py".toList = some ["# é".toList] := rfl
  have hpre : b.preambles.get? "py".toList = none := rfl
  obtain ⟨contents, hread, hverdict⟩ :=
    verdict_eq_true_iff_bytes hfile href hpre (by decide +kernel)
  refine ⟨contents, hread, hverdict.2 (Or.inl ?_)⟩
  exact ⟨[("# é".toList, .returnFeed)], [0xE2, 0x82, 10], rfl, by decide +kernel⟩

end HeaderCheck
