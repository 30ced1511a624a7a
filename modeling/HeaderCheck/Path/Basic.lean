import HeaderCheck.Text.Basic

/-! Paths as they are spelled, and the components that a spelling stands for. Repeated separators,
separators at the end and a `.` after the start are spelling only: they make no component. -/

namespace HeaderCheck

structure Path where
  text : Text
  deriving DecidableEq, Repr

inductive Component where
  | root
  | here
  | up
  | name (n : Text)
  deriving DecidableEq, Repr

/-- The component that a piece between separators makes. -/
def Component.ofPiece (piece : Text) : Component :=
  if piece = ['.', '.'] then .up else .name piece

namespace Path

/-- A piece between separators that makes no component. -/
def isBlankPiece (piece : Text) : Bool := piece == [] || piece == ['.']

def isAbsolute (p : Path) : Bool := p.text.head? == some '/'

/-- The component at the start that the pieces do not show, and the pieces after it. -/
def opened (p : Path) : Option Component × List Text :=
  if p.isAbsolute then (some .root, Text.pieces '/' p.text.tail)
  else match Text.pieces '/' p.text with
    | ['.'] :: more => (some .here, more)
    | pieces => (none, pieces)

def components (p : Path) : List Component :=
  p.opened.1.toList ++ (p.opened.2.filter (!isBlankPiece ·)).map Component.ofPiece

/-- The last component, if it is a name. -/
def fileName? (p : Path) : Option Text :=
  match p.components.getLast? with
  | some (.name n) => some n
  | _ => none

/-- An absolute second path stands for itself; a relative one goes behind the first. -/
def join (p q : Path) : Path :=
  if q.isAbsolute then q
  else if p.text = [] ∨ p.text.getLast? = some '/' then ⟨p.text ++ q.text⟩
  else ⟨p.text ++ '/' :: q.text⟩

/-- The path of an entry of the directory. -/
def entry (p : Path) (name : Text) : Path := p.join ⟨name⟩

end Path

end HeaderCheck
