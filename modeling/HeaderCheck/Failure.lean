import HeaderCheck.Disk.Fault
import HeaderCheck.FileKey

/-! What ends a run before there is a report. A header that does not match is no failure. -/

namespace HeaderCheck

/-- What was to be done with a path when the disk failed. -/
inductive Task where
  | readWorkingDir
  | readBoilerplateDir
  | readBoilerplate
  | readFile
  | readSettings
  deriving DecidableEq, Repr

/-- Why git does not tell the root of the repository. -/
inductive RootFault where
  | notRepository
  | noAnswer
  deriving DecidableEq, Repr

inductive Failure where
  | rootUnknown (fault : RootFault)
  | gitUnavailable (fault : Fault)
  | onDisk (task : Task) (path : Path) (fault : Fault)
  | noReferences (dir : Path)
  | unknownKey (key : Key)
  | invalidSettings (path : Path)
  | walk (path : Path) (fault : Fault)
  deriving DecidableEq, Repr

def Task.wording : Task → Text
  | .readWorkingDir => "read current directory".toList
  | .readBoilerplateDir => "read boilerplate directory".toList
  | .readBoilerplate => "read boilerplate".toList
  | .readFile => "read file".toList
  | .readSettings => "read config file".toList

def RootFault.wording : RootFault → Text
  | .notRepository =>
    "No root specified and directory does not seem to be a git repository".toList
  | .noAnswer => "git did not report a repository root".toList

namespace Failure

def message : Failure → Text
  | rootUnknown fault => "Configuration error: ".toList ++ fault.wording
  | gitUnavailable _ => "No root specified and git could not be run to discover one".toList
  | onDisk task path _ => "Failed to ".toList ++ task.wording ++ ": ".toList ++ path.text
  | noReferences dir => "Unable to find any boilerplate references in ".toList ++ dir.text
  | unknownKey key => "No boilerplate reference for key '".toList ++ key ++ "'".toList
  | invalidSettings path => "Invalid config file: ".toList ++ path.text
  | walk path fault =>
    "IO error for operation on ".toList ++ path.text ++ ": ".toList ++ fault.message

/-- The fault of the operating system behind the failure. -/
def cause? : Failure → Option Fault
  | gitUnavailable fault => some fault
  | onDisk _ _ fault => some fault
  | walk _ fault => some fault
  | _ => none

end Failure

end HeaderCheck
