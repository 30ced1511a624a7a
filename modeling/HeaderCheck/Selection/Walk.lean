import HeaderCheck.Failure
import HeaderCheck.World

/-! The files at and below a root, in the order of the listings. A link to a file counts as a file,
a link to a directory is not entered unless it is the root itself, and directories with a pruned
name are left out with all that is in them. -/

namespace HeaderCheck

namespace World

def filesIn (w : World) (pruned : Text → Bool) (dir : Path) :
    Listing → Except Failure (List Path)
  | .empty => .ok []
  | .file name _ rest => (filesIn w pruned dir rest).map (dir.entry name :: ·)
  | .link name _ rest =>
    (filesIn w pruned dir rest).map fun after =>
      if w.isFile (dir.entry name) then dir.entry name :: after else after
  | .dir name inside rest =>
    if pruned name then filesIn w pruned dir rest
    else if Disk.pathLimit ≤ Utf8.size (dir.entry name).text then
      .error (.walk (dir.entry name) .nameTooLong)
    else (filesIn w pruned (dir.entry name) inside).bind fun below =>
      (filesIn w pruned dir rest).map (below ++ ·)

/-- The root is entered whatever its name is. -/
def filesBelow (w : World) (pruned : Text → Bool) (root : Path) : Except Failure (List Path) :=
  match w.linkStat root with
  | .error fault => .error (.walk root fault)
  | .ok (.file _) => .ok [root]
  | .ok (.dir inside) => w.filesIn pruned root inside
  | .ok (.link _) =>
    match w.stat root with
    | .error fault => .error (.walk root fault)
    | .ok (.dir inside) => w.filesIn pruned root inside
    | .ok _ => .ok [root]

end World

end HeaderCheck
