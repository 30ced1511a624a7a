import HeaderCheck.FileKey
import HeaderCheck.Path.Order
import HeaderCheck.Path.Relative
import HeaderCheck.Sort

/-! The outcome of a run: one result for each checked file, and the lines that tell of it. -/

namespace HeaderCheck

structure FileResult where
  path : Path
  key : Key
  passed : Bool
  deriving DecidableEq, Repr

structure Report where
  root : Path
  results : List FileResult
  deriving DecidableEq, Repr

namespace Report

def succeeded (r : Report) : Bool := r.results.all (·.passed)

/-- The files that failed, relative to the root, in the order of paths. -/
def nonconforming (r : Report) : List Path :=
  sortBy Path.le ((r.results.filter (!·.passed)).map fun result => result.path.relativeTo r.root)

def successLine : Text := "All files examined have correct boilerplate.".toList

def failureLine (p : Path) : Text :=
  "FAIL: Boilerplate header is wrong for: ".toList ++ p.text

def lines (r : Report) : List Text :=
  if r.succeeded then [successLine] else r.nonconforming.map failureLine

end Report

end HeaderCheck
