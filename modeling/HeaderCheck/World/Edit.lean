import HeaderCheck.World

/-! Building up a world by paths: files, links and directories are put where their paths lead, with
the missing directories on the way. What cannot be put leaves the world as it is. -/

namespace HeaderCheck.World

def withDisk (w : World) (disk : Disk) : World := { w with disk }

/-- Puts the node where the path leads, unless a directory stands there. -/
def put (w : World) (last : Bool) (node : Node) (hnode : node.WellFormed) (p : Path) : World :=
  match w.disk.resolve last w.cwd p with
  | .error _ => w
  | .ok place =>
    match w.disk.nodeAt? place with
    | some (.dir _) => w
    | _ => w.withDisk (w.disk.put node hnode place.base)

/-- Makes one directory, unless something stands there. -/
def makeDir (w : World) (p : Path) : World :=
  match w.disk.resolve true w.cwd p with
  | .error _ => w
  | .ok place =>
    match w.disk.nodeAt? place with
    | some _ => w
    | none => w.withDisk (w.disk.put (.dir .empty) trivial place.base)

/-- The paths that the path passes through, from the shortest on, the path itself left out. -/
def stations (p : Path) : List Path :=
  let pieces := Text.pieces '/' p.text
  (List.range (pieces.length - 1)).map fun n => ⟨Text.joined '/' (pieces.take (n + 1))⟩

def makeParents (w : World) (p : Path) : World := (stations p).foldl makeDir w

def makeDirs (w : World) (p : Path) : World := (w.makeParents p).makeDir p

def writeFile (w : World) (p : Path) (bytes : Bytes) : World :=
  (w.makeParents p).put true (.file bytes) trivial p

def addLink (w : World) (p target : Path) : World :=
  (w.makeParents p).put false (.link target) trivial p

/-- Takes away the entry that the path names, a link and not what it points to. It may be a
directory that the run stands in. -/
def remove (w : World) (p : Path) : World :=
  match w.disk.resolve false w.cwd p with
  | .error _ => w
  | .ok place =>
    match place.location? with
    | some loc => { w with disk := w.disk.remove loc, cwd := w.cwd.without loc }
    | none => w

end HeaderCheck.World
