import HeaderCheck.Text.Lines
import Mathlib.Data.List.Basic

/-! A text is cut at its line feeds from the front: what stands before the first of them is the
first line, but for a carriage return at its end, and the lines of the rest come behind it. Facts
about the lines of a text follow by induction over its line feeds. -/

namespace HeaderCheck.Text

/-- The text without a carriage return at its end. -/
def chomped : Text → Line
  | [] => []
  | c :: rest => if c = '\r' ∧ rest = [] then [] else c :: chomped rest

theorem chomped_append_return (raw : Text) : (raw ++ ['\r']).chomped = raw := by
  induction raw with
  | nil => rfl
  | cons c raw ih => simp [chomped, ih]

theorem chomped_eq_self {raw : Text} (h : raw.getLast? ≠ some '\r') : raw.chomped = raw := by
  induction raw with
  | nil => rfl
  | cons c raw ih =>
    cases raw with
    | nil => simp_all [chomped]
    | cons d raw =>
      rw [List.getLast?_cons_cons] at h
      rw [chomped, if_neg (by simp), ih h]

/-- At most a carriage return goes away. -/
theorem chomped_cases (raw : Text) :
    raw.chomped = raw ∨ ∃ front, raw = front ++ ['\r'] ∧ raw.chomped = front := by
  by_cases h : raw.getLast? = some '\r'
  · obtain ⟨front, rfl⟩ := List.getLast?_eq_some_iff.1 h
    exact Or.inr ⟨front, rfl, chomped_append_return front⟩
  · exact Or.inl (chomped_eq_self h)

theorem chomped_eq_nil_iff (raw : Text) : raw.chomped = [] ↔ raw = [] ∨ raw = ['\r'] := by
  cases raw with
  | nil => simp [chomped]
  | cons c raw => by_cases h : c = '\r' ∧ raw = [] <;> simp [chomped, h]

/-- A character that is no line feed and begins no line ending stands at the front of a line. -/
theorem lines_cons {c : Char} {rest : Text} (hfeed : c ≠ '\n')
    (hreturn : c = '\r' → rest.head? ≠ some '\n') :
    lines (c :: rest) = match lines rest with
      | [] => [[c]]
      | line :: more => (c :: line) :: more := by
  refine (lines.eq_4 _ _ hfeed fun more hc hrest => hreturn hc (by rw [hrest]; rfl)).trans ?_
  cases lines rest <;> rfl

/-- The text up to the first line feed is the first line. -/
theorem lines_append_feed {raw : Text} (h : '\n' ∉ raw) (rest : Text) :
    lines (raw ++ '\n' :: rest) = raw.chomped :: lines rest := by
  induction raw with
  | nil => exact lines_feed rest
  | cons c raw ih =>
    obtain ⟨hc, hraw⟩ := List.ne_and_not_mem_of_not_mem_cons h
    by_cases hr : c = '\r' ∧ raw = []
    · obtain ⟨rfl, rfl⟩ := hr
      exact lines_return_feed rest
    · have hreturn : c = '\r' → (raw ++ '\n' :: rest).head? ≠ some '\n' := by
        rintro rfl
        cases raw with
        | nil => exact absurd ⟨rfl, rfl⟩ hr
        | cons d raw => simpa using (List.ne_of_not_mem_cons hraw).symm
      rw [List.cons_append, lines_cons hc.symm hreturn, ih hraw, chomped, if_neg hr]

/-- A text without a line feed is one line, and keeps a carriage return at its end. -/
theorem lines_of_no_feed {raw : Text} (h : '\n' ∉ raw) (hne : raw ≠ []) : lines raw = [raw] := by
  induction raw with
  | nil => exact absurd rfl hne
  | cons c raw ih =>
    obtain ⟨hc, hraw⟩ := List.ne_and_not_mem_of_not_mem_cons h
    have hreturn : c = '\r' → raw.head? ≠ some '\n' := fun _ hn =>
      hraw (List.mem_of_mem_head? hn)
    rw [lines_cons hc.symm hreturn]
    cases raw with
    | nil => rfl
    | cons d raw => rw [ih hraw (List.cons_ne_nil d raw)]

/-- What holds of texts without a line feed, and of a text whenever it holds of what stands behind
the first line feed, holds of all texts. -/
@[elab_as_elim]
theorem feedInduction {motive : Text → Prop} (last : ∀ raw, '\n' ∉ raw → motive raw)
    (line : ∀ raw rest, '\n' ∉ raw → motive rest → motive (raw ++ '\n' :: rest)) (t : Text) :
    motive t := by
  induction h : t.count '\n' generalizing t with
  | zero => exact last t (List.count_eq_zero.1 h)
  | succ n ih =>
    have hmem : '\n' ∈ t := List.count_pos_iff.1 (by omega)
    obtain ⟨raw, rest, rfl, hraw⟩ := List.eq_append_cons_of_mem hmem
    rw [List.count_append, List.count_eq_zero.2 hraw, List.count_cons_self] at h
    exact line raw rest hraw (ih rest (by omega))

/-- Every line feed ends a line, and what stands behind the last one is a line if it is not empty. -/
theorem length_lines (t : Text) :
    t.lines.length = t.count '\n' + if t = [] ∨ t.getLast? = some '\n' then 0 else 1 := by
  induction t using feedInduction with
  | last raw h =>
    cases raw with
    | nil => rfl
    | cons c raw =>
      have hlast : (c :: raw).getLast? ≠ some '\n' := fun hl => h (List.mem_of_getLast? hl)
      simp [lines_of_no_feed h (List.cons_ne_nil c raw), List.count_eq_zero.2 h, hlast]
  | line raw rest h ih =>
    have hends : (raw ++ '\n' :: rest = [] ∨ (raw ++ '\n' :: rest).getLast? = some '\n') ↔
        rest = [] ∨ rest.getLast? = some '\n' := by
      cases rest <;> simp
    rw [lines_append_feed h, List.length_cons, ih, List.count_append, List.count_eq_zero.2 h,
      List.count_cons_self]
    simp only [hends]
    omega

theorem count_feed_le_length_lines (t : Text) : t.count '\n' ≤ t.lines.length := by
  rw [length_lines]
  exact Nat.le_add_right _ _

/-- What stands behind a line feed has its lines for itself. -/
theorem lines_append_of_feed (raw rest : Text) :
    lines (raw ++ '\n' :: rest) = lines (raw ++ ['\n']) ++ lines rest := by
  induction raw using feedInduction with
  | last raw h => rw [lines_append_feed h, lines_append_feed h, lines_nil, List.singleton_append]
  | line raw more h ih =>
    rw [List.append_assoc, List.append_assoc, List.cons_append, List.cons_append,
      lines_append_feed h, lines_append_feed h, ih, List.cons_append]

/-- Of two texts that are put together each has its lines for itself, unless the last line of the
first goes on in the second. -/
theorem lines_append_iff (a b : Text) :
    lines (a ++ b) = a.lines ++ b.lines ↔ a = [] ∨ a.getLast? = some '\n' ∨ b = [] := by
  refine ⟨fun h => ?_, ?_⟩
  · by_contra hnot
    obtain ⟨ha, hlast, hb⟩ : a ≠ [] ∧ a.getLast? ≠ some '\n' ∧ b ≠ [] := by simpa using hnot
    have hends : (a ++ b = [] ∨ (a ++ b).getLast? = some '\n') ↔
        b = [] ∨ b.getLast? = some '\n' := by
      rw [List.getLast?_append_of_ne_nil _ hb, List.append_eq_nil_iff]
      simp [hb]
    -- the line that goes on is counted once on the left and twice on the right
    have hlength := congrArg List.length h
    simp only [List.length_append, length_lines, List.count_append, hends, ha, hlast, or_self,
      if_false] at hlength
    omega
  · rintro (rfl | hlast | rfl)
    · rfl
    · obtain ⟨front, rfl⟩ := List.getLast?_eq_some_iff.1 hlast
      rw [List.append_assoc, List.singleton_append, lines_append_of_feed]
    · rw [List.append_nil, lines_nil, List.append_nil]

/-- The lines written out, each with an ending that leaves a carriage return before it alone. -/
def ofLines (ls : List Line) : Text := ls.flatMap (· ++ ['\r', '\n'])

@[simp] theorem ofLines_nil : ofLines [] = [] := rfl

theorem ofLines_cons (line : Line) (more : List Line) :
    ofLines (line :: more) = (line ++ ['\r']) ++ '\n' :: ofLines more := by
  simp [ofLines]

theorem lines_ofLines {ls : List Line} (h : ∀ line ∈ ls, '\n' ∉ line) :
    (ofLines ls).lines = ls := by
  induction ls with
  | nil => rfl
  | cons line more ih =>
    have hraw : '\n' ∉ line ++ ['\r'] := by simpa using h line List.mem_cons_self
    rw [ofLines_cons, lines_append_feed hraw, chomped_append_return,
      ih fun l hl => h l (List.mem_cons_of_mem line hl)]

theorem notMem_of_mem_lines {t : Text} {line : Line} (h : line ∈ t.lines) : '\n' ∉ line := by
  have hchomped : ∀ {raw : Text}, '\n' ∉ raw → '\n' ∉ raw.chomped := by
    intro raw hraw
    rcases chomped_cases raw with heq | ⟨front, rfl, heq⟩
    · rwa [heq]
    · rw [heq]
      exact fun hmem => hraw (List.mem_append_left _ hmem)
  induction t using feedInduction with
  | last raw hraw =>
    cases raw with
    | nil => cases h
    | cons c raw =>
      rw [lines_of_no_feed hraw (List.cons_ne_nil c raw), List.mem_singleton] at h
      exact h ▸ hraw
  | line raw rest hraw ih =>
    rw [lines_append_feed hraw] at h
    rcases List.mem_cons.1 h with rfl | h
    · exact hchomped hraw
    · exact ih h

end HeaderCheck.Text
