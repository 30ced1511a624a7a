import HeaderCheck.CommandLine.Arguments
import HeaderCheck.CommandLine.Help
import HeaderCheck.Root
import HeaderCheck.Settings.File
import HeaderCheck.Verification

/-! From a command line to an exit code and what is printed. A flag wins over the settings file, and
the settings file over the defaults. -/

namespace HeaderCheck

/-- What the program was about when it failed. -/
inductive Stage where
  | findingRoot
  | loadingSettings (root : Path)
  | verifying (root : Path)
  deriving DecidableEq, Repr

def Stage.message : Stage → Text
  | .findingRoot => "Failed to determine the repository root".toList
  | .loadingSettings root => "Failed to load config in: ".toList ++ root.text
  | .verifying root => "Failed to verify boilerplate in: ".toList ++ root.text

structure StagedFailure where
  stage : Stage
  failure : Failure
  deriving DecidableEq, Repr

/-- The messages from the stage down to the fault of the operating system. -/
def StagedFailure.chain (f : StagedFailure) : List Text :=
  [f.stage.message, f.failure.message] ++ (f.failure.cause?.map Fault.message).toList

namespace Arguments

/-- What the arguments change behind the settings file. An empty key and a flag that is not set
leave in place what the file says. -/
def changes (a : Arguments) : List Change :=
  [.files a.files] ++ (a.boilerplateDir.map Change.boilerplateDir).toList ++
    ((nonEmptyKey a.forcedKey).map fun key => Change.forcedKey (some key)).toList ++
    (if a.anyYear then [.anyYear true] else [])

def settings (w : World) (a : Arguments) : Except StagedFailure Settings :=
  match resolveRoot w a.root with
  | .error failure => .error ⟨.findingRoot, failure⟩
  | .ok root =>
    match loadSettings w root with
    | .error failure => .error ⟨.loadingSettings root, failure⟩
    | .ok said => .ok (Settings.after root (.file said :: a.changes))

end Arguments

def World.run (w : World) (a : Arguments) : Except StagedFailure Report :=
  (a.settings w).bind fun settings =>
    match w.verify settings with
    | .error failure => .error ⟨.verifying settings.root, failure⟩
    | .ok report => .ok report

/-- How the program ends and what it has printed by then. -/
structure Ending where
  code : Nat
  printed : Text
  deriving DecidableEq, Repr

def Report.ending (r : Report) : Ending :=
  ⟨if r.succeeded then 0 else 1, r.lines.flatMap (· ++ ['\n'])⟩

/-- A failure leaves the output empty; what it was is told by `complaint`. -/
def World.execute (w : World) (commandLine : List Text) : Ending :=
  match Arguments.ofCommandLine commandLine with
  | .error .help => ⟨0, helpText⟩
  | .error .version => ⟨0, versionText⟩
  | .error (.refused _) => ⟨2, []⟩
  | .ok arguments =>
    match w.run arguments with
    | .error _ => ⟨1, []⟩
    | .ok report => report.ending

/-- What is told beside the output of a program that does not come to a report. -/
def World.complaint (w : World) (commandLine : List Text) : List Text :=
  match Arguments.ofCommandLine commandLine with
  | .error (.refused r) => ["error: ".toList ++ r.wording]
  | .error _ => []
  | .ok arguments =>
    match w.run arguments with
    | .error f => ["Error: ".toList ++ Text.joined '\n' f.chain]
    | .ok _ => []

end HeaderCheck
