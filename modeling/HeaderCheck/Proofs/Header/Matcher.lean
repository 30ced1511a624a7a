import HeaderCheck.Header.Matcher
import HeaderCheck.Proofs.Header.Preamble

/-! The verdict of a matcher, whose preambles are prepared for a whole run, in terms of the
boilerplate it was made from. It is the verdict on one text as it is found without preparation. -/

namespace HeaderCheck

/-- The text without the preamble of the key, if the key has one. -/
def Boilerplate.body (b : Boilerplate) (key : Key) (contents : Text) : Text :=
  match b.preambles.get? key with
  | some preamble => Text.withoutPreamble preamble contents
  | none => contents

theorem Boilerplate.verdict_matcher (b : Boilerplate) (anyYear : Bool) (contents : Text)
    (key : Key) : (b.matcher anyYear).verdict contents key =
      match b.references.get? key with
      | none => .error (.unknownKey key)
      | some reference => .ok ((b.body key contents).hasLeadingLines reference anyYear) := by
  simp only [Matcher.verdict, matcher, Catalogue.get?_map, body]
  cases b.references.get? key with
  | none => rfl
  | some reference =>
    cases b.preambles.get? key with
    | none => rfl
    | some preamble => simp only [Option.map_some, PreparedPreamble.strip_ofLines]

/-- A key with a reference gives a verdict on every text. -/
theorem Boilerplate.verdict_of_reference {b : Boilerplate} {key : Key} {reference : List Line}
    (h : b.references.get? key = some reference) (anyYear : Bool) (contents : Text) :
    (b.matcher anyYear).verdict contents key =
      .ok ((b.body key contents).hasLeadingLines reference anyYear) := by
  rw [verdict_matcher, h]

/-- A key without a reference gives none, and there is no other failure. -/
theorem Boilerplate.verdict_eq_error_iff {b : Boilerplate} {anyYear : Bool} {contents : Text}
    {key : Key} {failure : Failure} : (b.matcher anyYear).verdict contents key = .error failure ↔
      failure = .unknownKey key ∧ b.references.get? key = none := by
  rw [verdict_matcher]
  cases b.references.get? key with
  | none => simp [eq_comm]
  | some reference => simp

/-- Preparing the preambles of all keys changes no verdict, and a key without a reference is
unknown in both ways, whether or not it has a preamble. -/
theorem verdict_eq_hasValidHeader (references preambles : Catalogue (List Line)) (contents : Text)
    (key : Key) :
    (Boilerplate.matcher ⟨references, preambles⟩ false).verdict contents key =
      hasValidHeader contents key references preambles ∧
    ∀ failure, hasValidHeader contents key references preambles = .error failure ↔
      failure = .unknownKey key ∧ references.get? key = none := by
  have hverdict : (Boilerplate.matcher ⟨references, preambles⟩ false).verdict contents key =
      hasValidHeader contents key references preambles := by
    rw [Boilerplate.verdict_matcher]
    rfl
  refine ⟨hverdict, fun failure => ?_⟩
  rw [← hverdict]
  exact Boilerplate.verdict_eq_error_iff

end HeaderCheck
