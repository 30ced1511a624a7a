import HeaderCheck.Boilerplate.Basic
import HeaderCheck.Failure
import HeaderCheck.World

/-! Loading boilerplate from a directory. References stand in files `boilerplate.<key>.txt`,
preambles in files `boilerplate.<key>.preamble`. The key is what stands between the first two dots
of the name, so several files can give lines to one key; the one with the greatest name wins. -/

namespace HeaderCheck

inductive Category where
  | reference
  | preamble
  deriving DecidableEq, Repr

namespace Category

def suffix : Category → Text
  | reference => ".txt".toList
  | preamble => ".preamble".toList

end Category

def boilerplateStem : Text := "boilerplate.".toList

/-- Whether the name is one of the category's: the stem, anything, and the suffix behind it. -/
def Category.hasName (category : Category) (name : Text) : Bool :=
  boilerplateStem.isPrefixOf name &&
    category.suffix.isSuffixOf (name.drop boilerplateStem.length)

/-- What stands between the first two dots of the name, unless it is empty. -/
def keyOfName (name : Text) : Option Key :=
  match Text.pieces '.' name with
  | _ :: key :: _ => if key = [] then none else some key
  | _ => none

/-- The directory as it is spelled in the paths of the files found in it: a `.` at the start is
left out, and separators are not repeated. There is no such spelling when nothing but a `.` stands
before a repeated separator, and then no file is found. -/
def scanned? (dir : Path) : Option Path :=
  let start : Path := if dir.isAbsolute then ⟨['/']⟩ else ⟨['.']⟩
  let pieces := Text.pieces '/' (if dir.isAbsolute then dir.text.tail else dir.text)
  pieces.foldlM (fun seen piece =>
    if seen.text = ['.'] then (if piece = [] then none else some ⟨piece⟩)
    else some (seen.entry piece)) start

/-- The path of an entry of the scanned directory. -/
def scannedEntry (dir : Path) (name : Text) : Path :=
  if dir.text = ['.'] then ⟨name⟩ else dir.entry name

namespace Category

/-- The keys that files of the category give lines to, with the paths of the files, in ascending
order of the names. -/
def sources (category : Category) (dir : Path) (found : Listing) : List (Key × Path) :=
  let names := sortBy Text.le (found.names.filter category.hasName)
  names.filterMap fun name => (keyOfName name).map fun key => (key, scannedEntry dir name)

def found (category : Category) (w : World) (dir : Path) : List (Key × Path) :=
  match scanned? dir with
  | none => []
  | some spelled =>
    match w.readDir spelled with
    | .ok listing => category.sources spelled listing
    | .error _ => []

end Category

/-- Reads the sources in order; a later one takes the place of an earlier one of its key. -/
def readSources (w : World) : List (Key × Path) → Catalogue (List Line) →
    Except Failure (Catalogue (List Line))
  | [], read => .ok read
  | (key, path) :: more, read =>
    match w.readText path with
    | .error fault => .error (.onDisk .readBoilerplate path fault)
    | .ok t => readSources w more (read.insert key (Text.lines t))

def loadCategory (w : World) (category : Category) (dir : Path) :
    Except Failure (Catalogue (List Line)) :=
  match w.readDir dir with
  | .error fault => .error (.onDisk .readBoilerplateDir dir fault)
  | .ok _ => readSources w (category.found w dir) .empty

/-- References come first: without any there is no boilerplate, whatever the preambles are. -/
def loadBoilerplate (w : World) (dir : Path) : Except Failure Boilerplate :=
  (loadCategory w .reference dir).bind fun references =>
    if references.isEmpty then .error (.noReferences dir)
    else (loadCategory w .preamble dir).map fun preambles => ⟨references, preambles⟩

end HeaderCheck
