import HeaderCheck.Path.Basic

/-! A path as seen from a root. The root goes away component by component, whatever the two
spellings are; what is left keeps its own spelling between its first and its last component. -/

namespace HeaderCheck.Path

def trimPiecesRight (pieces : List Text) : List Text :=
  (pieces.reverse.dropWhile isBlankPiece).reverse

/-- The pieces behind the first `n` components. -/
def piecesBehind : Nat → List Text → List Text
  | 0, pieces => pieces
  | n + 1, pieces => piecesBehind n (pieces.dropWhile isBlankPiece).tail

/-- The path without what is blank at its end. -/
def trimmedRight (p : Path) : Path :=
  let body := Text.joined '/' (trimPiecesRight p.opened.2)
  match p.opened with
  | (some .root, _) => ⟨'/' :: body⟩
  | (some _, pieces) => ⟨Text.joined '/' (['.'] :: trimPiecesRight pieces)⟩
  | (none, _) => ⟨body⟩

/-- What is left of the path behind the first `n` components. -/
def behind (p : Path) : Nat → Path
  | 0 => p.trimmedRight
  | n + 1 =>
    let left := piecesBehind (n + 1 - p.opened.1.toList.length) p.opened.2
    ⟨Text.joined '/' (trimPiecesRight (left.dropWhile isBlankPiece))⟩

/-- The path relative to the root, or the path itself when it does not lie below the root. -/
def relativeTo (p root : Path) : Path :=
  if root.components.isPrefixOf p.components then p.behind root.components.length else p

end HeaderCheck.Path
