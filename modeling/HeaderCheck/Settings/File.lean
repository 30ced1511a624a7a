import HeaderCheck.Failure
import HeaderCheck.Settings.Basic
import HeaderCheck.Settings.Toml
import HeaderCheck.World

/-! The settings file of a repository. It may set each of three keys once, to a value of the right
kind; any other key makes the file invalid. -/

namespace HeaderCheck

namespace FileSettings

/-- What the pair adds to what was said before it. -/
def add (said : FileSettings) : Text × Toml.Value → Option FileSettings
  | (key, .string t) =>
    if key = "boilerplate_dir".toList ∧ said.boilerplateDir = none then
      some { said with boilerplateDir := some ⟨t⟩ }
    else if key = "force_extension".toList ∧ said.forcedKey = none then
      some { said with forcedKey := some t }
    else none
  | (key, .boolean b) =>
    if key = "any_year".toList ∧ said.anyYear = none then some { said with anyYear := some b }
    else none

def ofDocument? (document : Text) : Option FileSettings :=
  (Toml.pairs? document).bind fun pairs => pairs.foldlM add silent

end FileSettings

def settingsFileName : Path := ⟨".boilerplate.toml".toList⟩

/-- What the settings file of the root says, which is nothing if there is no such file. -/
def loadSettings (w : World) (root : Path) : Except Failure FileSettings :=
  let path := root.join settingsFileName
  if w.isFile path then
    match w.readText path with
    | .error fault => .error (.onDisk .readSettings path fault)
    | .ok document =>
      match FileSettings.ofDocument? document with
      | some said => .ok said
      | none => .error (.invalidSettings path)
  else .ok .silent

end HeaderCheck
