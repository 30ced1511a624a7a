import HeaderCheck.Boilerplate.Basic
import HeaderCheck.Failure
import HeaderCheck.Header.Leading
import HeaderCheck.Header.Preamble

/-! The verdict on a file: whether its text, without the preamble of its key, starts with the
reference of its key. A matcher has the preambles prepared for a whole run. -/

namespace HeaderCheck

structure Matcher where
  references : Catalogue (List Line)
  preambles : Catalogue PreparedPreamble
  anyYear : Bool

def Boilerplate.matcher (b : Boilerplate) (anyYear : Bool) : Matcher :=
  ⟨b.references, b.preambles.map PreparedPreamble.ofLines, anyYear⟩

def Matcher.verdict (m : Matcher) (contents : Text) (key : Key) : Except Failure Bool :=
  match m.references.get? key with
  | none => .error (.unknownKey key)
  | some reference =>
    let body := match m.preambles.get? key with
      | some preamble => preamble.strip contents
      | none => contents
    .ok (Text.hasLeadingLines body reference m.anyYear)

/-- The verdict on one text, with exact years. -/
def hasValidHeader (contents : Text) (key : Key) (references preambles : Catalogue (List Line)) :
    Except Failure Bool :=
  match references.get? key with
  | none => .error (.unknownKey key)
  | some reference =>
    let body := match preambles.get? key with
      | some preamble => Text.withoutPreamble preamble contents
      | none => contents
    .ok (Text.hasLeadingLines body reference false)

end HeaderCheck
