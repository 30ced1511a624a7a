import HeaderCheck.Text.Basic

/-! Lines of a text. A line ends at a line feed, and one carriage return right before the line feed
belongs to the ending. What stands after the last line feed is a line of its own unless it is
empty; it has no ending, so it keeps a final carriage return. -/

namespace HeaderCheck

/-- A line without its ending. -/
abbrev Line := Text

namespace Text

def lines : Text → List Line
  | [] => []
  | '\n' :: rest => [] :: lines rest
  | '\r' :: '\n' :: rest => [] :: lines rest
  | c :: rest =>
    match lines rest with
    | [] => [[c]]
    | line :: more => (c :: line) :: more

@[simp] theorem lines_nil : lines [] = [] := rfl

@[simp] theorem lines_feed (rest : Text) : lines ('\n' :: rest) = [] :: lines rest := by
  simp [lines]

@[simp] theorem lines_return_feed (rest : Text) :
    lines ('\r' :: '\n' :: rest) = [] :: lines rest := by
  simp [lines]

end Text

end HeaderCheck
