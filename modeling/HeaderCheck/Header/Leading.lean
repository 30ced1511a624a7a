import HeaderCheck.Header.Year
import HeaderCheck.Text.Lines

/-! The header proper: the first lines of a text against the lines it has to start with. -/

namespace HeaderCheck

/-- Two lines agree if they are equal, or equal up to the years in them where any year will do. -/
def linesAgree (anyYear : Bool) (line expected : Line) : Bool :=
  if anyYear then line.maskYears == expected.maskYears else line == expected

/-- Each expected line has a line that agrees with it; lines beyond those do not matter. -/
def startWithLines (anyYear : Bool) : List Line → List Line → Bool
  | _, [] => true
  | [], _ :: _ => false
  | line :: lines, expected :: more =>
    linesAgree anyYear line expected && startWithLines anyYear lines more

/-- Whether the text starts with the reference, line by line. -/
def Text.hasLeadingLines (t : Text) (reference : List Line) (anyYear : Bool) : Bool :=
  startWithLines anyYear t.lines reference

end HeaderCheck
