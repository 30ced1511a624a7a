import HeaderCheck.FileKey
import HeaderCheck.Path.Basic

/-! What a run is told to do. The settings of a root start from defaults and are changed step by
step, by the settings file of the repository and by the caller. -/

namespace HeaderCheck

/-- No files means all files below the root. -/
structure Settings where
  root : Path
  boilerplateDir : Path
  forcedKey : Option Key
  files : List Path
  anyYear : Bool
  deriving DecidableEq, Repr

/-- What a settings file says; it may leave everything open. -/
structure FileSettings where
  boilerplateDir : Option Path
  forcedKey : Option Key
  anyYear : Option Bool
  deriving DecidableEq, Repr

def FileSettings.silent : FileSettings := ⟨none, none, none⟩

def defaultBoilerplateDir : Path := ⟨"hack/boilerplate".toList⟩

/-- An empty key forces nothing. -/
def nonEmptyKey (key : Option Key) : Option Key := key.filter (· != [])

inductive Change where
  | file (said : FileSettings)
  | boilerplateDir (dir : Path)
  | forcedKey (key : Option Key)
  | files (paths : List Path)
  | anyYear (value : Bool)
  deriving DecidableEq, Repr

namespace Settings

def ofRoot (root : Path) : Settings where
  root
  boilerplateDir := root.join defaultBoilerplateDir
  forcedKey := none
  files := []
  anyYear := false

/-- A settings file changes what it speaks of. It names the boilerplate directory relative to the
root, while a caller's directory is taken as it is. -/
def apply (s : Settings) : Change → Settings
  | .file said =>
    { s with
      boilerplateDir := (said.boilerplateDir.map s.root.join).getD s.boilerplateDir
      forcedKey := match said.forcedKey with
        | some key => nonEmptyKey (some key)
        | none => s.forcedKey
      anyYear := said.anyYear.getD s.anyYear }
  | .boilerplateDir dir => { s with boilerplateDir := dir }
  | .forcedKey key => { s with forcedKey := nonEmptyKey key }
  | .files paths => { s with files := paths }
  | .anyYear value => { s with anyYear := value }

/-- The settings after the changes, made one after another. -/
def after (root : Path) (changes : List Change) : Settings := changes.foldl apply (ofRoot root)

end Settings

end HeaderCheck
