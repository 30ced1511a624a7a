import HeaderCheck.Text.CharSet

/-! Blanks: the characters with the property White_Space, and the cutting of them from both ends of
a text. -/

namespace HeaderCheck

def blanks : CharSet where
  ranges := [
   (0x9, 0xD), (0x20, 0x20), (0x85, 0x85), (0xA0, 0xA0), (0x1680, 0x1680), (0x2000, 0x200A),
   (0x2028, 0x2029), (0x202F, 0x202F), (0x205F, 0x205F), (0x3000, 0x3000)]

def isBlank (c : Char) : Bool := blanks.contains c

/-- The text without the blanks at its two ends. -/
def Text.trimmed (t : Text) : Text :=
  ((t.dropWhile isBlank).reverse.dropWhile isBlank).reverse

end HeaderCheck
