import HeaderCheck.Disk.Edit
import HeaderCheck.Disk.Resolve

/-! What a run can observe: a disk, the directory it is started in, and the answer of git to the
question for the root of the repository. -/

namespace HeaderCheck

/-- What git prints, and whether it succeeds. -/
structure GitAnswer where
  output : Bytes
  succeeded : Bool
  deriving DecidableEq, Repr

/-- Without git there is no answer. -/
structure World where
  disk : Disk
  cwd : Standpoint
  git : Option GitAnswer

namespace World

/-- The node that the path names, with every link followed. -/
def stat (w : World) (p : Path) : Except Fault Node :=
  (w.disk.resolve true w.cwd p).bind fun place =>
    match w.disk.nodeAt? place with
    | some node => .ok node
    | none => .error .missing

/-- The node that the path names, where a link at the end stands for itself. -/
def linkStat (w : World) (p : Path) : Except Fault Node :=
  (w.disk.resolve false w.cwd p).bind fun place =>
    match w.disk.nodeAt? place with
    | some node => .ok node
    | none => .error .missing

def isFile (w : World) (p : Path) : Bool :=
  match w.stat p with
  | .ok (.file _) => true
  | _ => false

def readBytes (w : World) (p : Path) : Except Fault Bytes :=
  (w.stat p).bind fun node =>
    match node with
    | .file bytes => .ok bytes
    | .dir _ => .error .isDirectory
    | .link _ => .error .linkLoop

/-- The text of a file that has to be UTF-8. -/
def readText (w : World) (p : Path) : Except Fault Text :=
  (w.readBytes p).bind fun bytes =>
    match Utf8.decode? bytes with
    | some t => .ok t
    | none => .error .notUtf8

def readDir (w : World) (p : Path) : Except Fault Listing :=
  (w.stat p).bind fun node =>
    match node with
    | .dir inside => .ok inside
    | _ => .error .notDirectory

end World

end HeaderCheck
