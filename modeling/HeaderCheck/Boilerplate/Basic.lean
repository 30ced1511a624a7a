import HeaderCheck.Catalogue
import HeaderCheck.Text.Lines

/-! The boilerplate of a repository: for each key the lines with which a file of that key has to
start, and for some keys a preamble that may stand before them. -/

namespace HeaderCheck

structure Boilerplate where
  references : Catalogue (List Line)
  preambles : Catalogue (List Line)
  deriving DecidableEq, Repr

end HeaderCheck
