import HeaderCheck.Selection.Skip
import HeaderCheck.Selection.Walk

/-! The files that a run checks: the named ones, or all files below the root. Skipped paths go, and
so do paths whose key is not known, unless a key is forced. -/

namespace HeaderCheck

/-- Whether the path, already resolved against the root, is to be checked. -/
def Path.isWanted (p : Path) (fragments : List Text) (known : Key → Bool) (forced : Option Key) :
    Bool :=
  !p.isSkipped fragments && (forced.isSome || known p.fileKey)

/-- Every path is resolved against the root, the ones that the walk found as well. -/
def wantedPaths (root : Path) (fragments : List Text) (known : Key → Bool) (forced : Option Key)
    (candidates : List Path) : List Path :=
  (candidates.map root.join).filter fun p => p.isWanted fragments known forced

/-- Named files are not looked for on the disk. Directories with the name of a fragment are not
walked, since all that is in them would be skipped. -/
def World.selectFiles (w : World) (root : Path) (named : List Path) (fragments : List Text)
    (known : Key → Bool) (forced : Option Key) : Except Failure (List Path) :=
  if named = [] then
    (w.filesBelow (fragments.contains ·) root).map (wantedPaths root fragments known forced)
  else .ok (wantedPaths root fragments known forced named)

end HeaderCheck
