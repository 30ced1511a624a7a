import HeaderCheck.Text.CaseFolding
import HeaderCheck.Text.Lines

/-! A preamble is what may stand before the header, such as the line that names an interpreter. It
is recognised at the very start of a file only, without regard to case, and goes away with the rest
of its last line and the empty lines behind it. -/

namespace HeaderCheck

/-- The text behind a line break at its front. -/
def Text.afterBreak : Text → Option Text
  | '\n' :: rest => some rest
  | '\r' :: '\n' :: rest => some rest
  | _ => none

/-- The text behind its first line feed. -/
def Text.afterFeed : Text → Option Text
  | [] => none
  | c :: rest => if c = '\n' then some rest else afterFeed rest

/-- The text behind the empty lines at its front. -/
def Text.dropEmptyLines : Text → Text
  | '\n' :: rest => dropEmptyLines rest
  | '\r' :: '\n' :: rest => dropEmptyLines rest
  | t => t

/-- The text behind `line` at its front, up to case. -/
def Text.afterLine : Line → Text → Option Text
  | [], t => some t
  | _ :: _, [] => none
  | d :: line, c :: rest => if sameFolded c d then afterLine line rest else none

/-- The text behind the lines at its front, up to case, with a line break between any two. -/
def Text.afterLines : List Line → Text → Option Text
  | [], t => some t
  | [line], t => afterLine line t
  | line :: more, t => ((afterLine line t).bind afterBreak).bind (afterLines more)

/-- What remains behind a preamble at the front of the text, if there is one. A preamble without
lines is found in front of every text that has a line feed. -/
def Text.afterPreamble (preamble : List Line) (t : Text) : Option Text :=
  ((afterLines preamble t).bind afterFeed).map dropEmptyLines

def Text.withoutPreamble (preamble : List Line) (t : Text) : Text :=
  (afterPreamble preamble t).getD t

/-- A preamble prepared for many files: its lines hold the folding of each character. -/
structure PreparedPreamble where
  folded : List Line

namespace PreparedPreamble

def ofLines (preamble : List Line) : PreparedPreamble := ⟨preamble.map (·.map foldCase)⟩

def afterFoldedLine : Line → Text → Option Text
  | [], t => some t
  | _ :: _, [] => none
  | d :: line, c :: rest => if foldCase c = d then afterFoldedLine line rest else none

def afterFoldedLines : List Line → Text → Option Text
  | [], t => some t
  | [line], t => afterFoldedLine line t
  | line :: more, t => ((afterFoldedLine line t).bind Text.afterBreak).bind (afterFoldedLines more)

/-- The text without the preamble. -/
def strip (p : PreparedPreamble) (t : Text) : Text :=
  (((afterFoldedLines p.folded t).bind Text.afterFeed).map Text.dropEmptyLines).getD t

end PreparedPreamble

end HeaderCheck
