import HeaderCheck.Path.Basic
import HeaderCheck.Text.Lowercase

/-! The key under which a file is checked: the extension of its name in lower case, or its whole
name when the name has no extension. A dot in front of the name makes no extension, and neither
does a dot at its end. -/

namespace HeaderCheck

abbrev Key := Text

/-- The two sides of the last dot. -/
def Text.splitLastDot : Text → Option (Text × Text)
  | [] => none
  | c :: rest =>
    match splitLastDot rest with
    | some (before, after) => some (c :: before, after)
    | none => if c = '.' then some ([], rest) else none

namespace Path

/-- What follows the last dot of the name, if that dot is not the first character. -/
def extension? (p : Path) : Option Text :=
  match p.fileName?.bind Text.splitLastDot with
  | some (_ :: _, after) => some after
  | _ => none

def fileKey (p : Path) : Key :=
  match p.extension? with
  | some (c :: rest) => Text.lowercase (c :: rest)
  | _ => p.fileName?.getD []

/-- A forced key takes the place of every file's own. -/
def keyUnder (p : Path) (forced : Option Key) : Key := forced.getD p.fileKey

end Path

end HeaderCheck
