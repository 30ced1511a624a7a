import HeaderCheck.CommandLine.Run
import HeaderCheck.World.Edit

/-! The program. It takes a picture of the places that a command line speaks of and lets the run
work on that picture: first the settings file of the root, then what the settings name. -/

namespace HeaderCheck.Picture

/-- The path on the real disk. Where no current directory is left, a relative path leads nowhere in
the picture, whatever it leads to here. -/
def real (p : Path) := (do
  let here ← try IO.currentDir catch _ => IO.appDir
  return here / String.ofList p.text : IO _)

/-- Takes up what stands at the path itself. A link is taken up with the place it leads to; one that
leads nowhere points to a name that no entry can have. -/
def addPlace (w : World) (p : Path) : IO World := do
  let place ← real p
  try
    match (← place.symlinkMetadata).type with
    | .dir => return w.makeDirs p
    | .symlink =>
      try
        let found ← IO.FS.realPath place
        let target : Path := ⟨found.toString.toList⟩
        let linked := w.addLink p target
        match (← found.metadata).type with
        | .dir => return linked.makeDirs target
        | _ => return linked.writeFile target (← IO.FS.readBinFile found).toList
      catch _ => return w.addLink p ⟨['\x00']⟩
    | _ => return w.writeFile p (← IO.FS.readBinFile place).toList
  catch _ => return w

/-- Takes up the path with the places on the way to it. -/
def addPath (w : World) (p : Path) : IO World := do
  let mut w := w
  for station in World.stations p do
    unless station.text.isEmpty do
      w ← addPlace w station
  addPlace w p

/-- Takes up all that is below a directory. -/
partial def addBelow (w : World) (p : Path) : IO World := do
  let place ← real p
  try
    let mut w := w
    for found in ← place.readDir do
      let inside := p.entry found.fileName.toList
      w ← addPlace w inside
      if (← found.path.symlinkMetadata).type == .dir then
        w ← addBelow w inside
    return w
  catch _ => return w

def addTree (w : World) (p : Path) : IO World := do
  addBelow (← addPath w p) p

/-- The root that git would report: the nearest directory, from the current one upwards, that holds
an entry named for it. -/
def askGit (here : Location) : IO GitAnswer := do
  for n in (List.range (here.length + 1)).reverse do
    let dir := Location.path (here.take n)
    if ← (← real (dir.entry ".git".toList)).pathExists then
      return ⟨Utf8.encode dir.text, true⟩
  return ⟨[], false⟩

def start : IO World := do
  try
    let here := (Text.pieces '/' (← IO.currentDir).toString.toList).filter (· != [])
    let blank : World := ⟨.blank, .on [], some (← askGit here)⟩
    return { blank.makeDirs (Location.path here) with cwd := .on here }
  catch _ => return ⟨.blank, ⟨[], 1⟩, some ⟨[], false⟩⟩

/-- What a run with the arguments can observe. -/
def ofArguments (w : World) (a : Arguments) : IO World := do
  match resolveRoot w a.root with
  | .error _ => return w
  | .ok root =>
    let w ← addPath w (root.join settingsFileName)
    match a.settings w with
    | .error _ => return w
    | .ok settings =>
      let w ← addTree w settings.boilerplateDir
      if settings.files.isEmpty then addTree w settings.root
      else settings.files.foldlM (fun w p => addPath w (settings.root.join p)) w

end HeaderCheck.Picture

open HeaderCheck in
def main (commandLine : List String) : IO UInt32 := do
  let words := commandLine.map String.toList
  let start ← Picture.start
  let w ← match Arguments.ofCommandLine words with
    | .ok arguments => Picture.ofArguments start arguments
    | .error _ => pure start
  let ending := w.execute words
  IO.print (String.ofList ending.printed)
  (← IO.getStdout).flush
  for line in w.complaint words do
    IO.eprintln (String.ofList line)
  return ending.code.toUInt32
