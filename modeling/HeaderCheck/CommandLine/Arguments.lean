import HeaderCheck.FileKey
import HeaderCheck.Path.Basic

/-! The arguments of a run and how a command line is read. An option takes its value from the same
argument or from the next one. A value from a next argument and the names of files wait until an
option, a flag or the end of the line shows that they are complete; only then are they looked at,
so of two mistakes the one that is found first in this sense is reported. -/

namespace HeaderCheck

structure Arguments where
  files : List Path
  forcedKey : Option Key
  root : Option Path
  boilerplateDir : Option Path
  anyYear : Bool
  verbose : Bool
  deriving DecidableEq, Repr

inductive Refusal where
  | unknownArgument
  | missingValue
  | repeated
  | needlessValue
  deriving DecidableEq, Repr

def Refusal.wording : Refusal → Text
  | .unknownArgument => "unexpected argument".toList
  | .missingValue => "a value is required".toList
  | .repeated => "an option cannot be used multiple times".toList
  | .needlessValue => "a flag takes no value".toList

/-- Why a command line does not lead to a run. -/
inductive Stop where
  | help
  | version
  | refused (r : Refusal)
  deriving DecidableEq, Repr

inductive ValueOption where
  | forcedKey
  | root
  | boilerplateDir
  deriving DecidableEq, Repr

inductive Flag where
  | anyYear
  | verbose
  | help
  | version
  deriving DecidableEq, Repr

inductive OptionName where
  | value (o : ValueOption)
  | flag (f : Flag)
  deriving DecidableEq, Repr

def longOption? (name : Text) : Option OptionName :=
  ([("force-extension".toList, .value .forcedKey), ("rootdir".toList, .value .root),
    ("boilerplate-dir".toList, .value .boilerplateDir), ("any-year".toList, .flag .anyYear),
    ("verbose".toList, .flag .verbose), ("help".toList, .flag .help),
    ("version".toList, .flag .version)] : List (Text × OptionName)).lookup name

def shortOption? (letter : Char) : Option OptionName :=
  ([('f', .value .forcedKey), ('r', .value .root), ('b', .value .boilerplateDir),
    ('v', .flag .verbose), ('h', .flag .help), ('V', .flag .version)] :
      List (Char × OptionName)).lookup letter

/-- What is read and waits to be looked at. -/
inductive Waiting where
  | nothing
  | option (o : ValueOption) (value : Option Text)
  | files (names : List Text)
  deriving DecidableEq, Repr

structure Reading where
  arguments : Arguments
  waiting : Waiting
  deriving DecidableEq, Repr

namespace Arguments

def bare : Arguments := ⟨[], none, none, none, false, false⟩

/-- A path is not empty, while an empty key is a value like any other. -/
def give (a : Arguments) (o : ValueOption) (value : Text) : Except Stop Arguments :=
  match o with
  | .forcedKey =>
    if a.forcedKey.isSome then .error (.refused .repeated)
    else .ok { a with forcedKey := some value }
  | .root =>
    if a.root.isSome then .error (.refused .repeated)
    else if value = [] then .error (.refused .missingValue)
    else .ok { a with root := some ⟨value⟩ }
  | .boilerplateDir =>
    if a.boilerplateDir.isSome then .error (.refused .repeated)
    else if value = [] then .error (.refused .missingValue)
    else .ok { a with boilerplateDir := some ⟨value⟩ }

def raise (a : Arguments) : Flag → Except Stop Arguments
  | .anyYear =>
    if a.anyYear then .error (.refused .repeated) else .ok { a with anyYear := true }
  | .verbose =>
    if a.verbose then .error (.refused .repeated) else .ok { a with verbose := true }
  | .help => .error .help
  | .version => .error .version

def addFiles (a : Arguments) (names : List Text) : Except Stop Arguments :=
  if names.contains [] then .error (.refused .missingValue)
  else .ok { a with files := a.files ++ names.map Path.mk }

end Arguments

namespace Reading

/-- Looks at what waits. -/
def settle (r : Reading) : Except Stop Arguments :=
  match r.waiting with
  | .nothing => .ok r.arguments
  | .option _ none => .error (.refused .missingValue)
  | .option o (some value) => r.arguments.give o value
  | .files names => r.arguments.addFiles names

def give (r : Reading) (o : ValueOption) (value : Text) : Except Stop Reading :=
  (r.settle.bind (·.give o value)).map fun a => ⟨a, .nothing⟩

def raise (r : Reading) (f : Flag) : Except Stop Reading :=
  (r.settle.bind (·.raise f)).map fun a => ⟨a, .nothing⟩

/-- The value of the option is the next argument. -/
def await (r : Reading) (o : ValueOption) : Except Stop Reading :=
  r.settle.map fun a => ⟨a, .option o none⟩

def addFile (r : Reading) (name : Text) : Except Stop Reading :=
  match r.waiting with
  | .files names => .ok ⟨r.arguments, .files (names ++ [name])⟩
  | _ => r.settle.map fun a => ⟨a, .files [name]⟩

/-- An argument with two dashes, without them. A value stands behind the first equals sign. -/
def long (r : Reading) (argument : Text) : Except Stop Reading :=
  let name := argument.takeWhile (· != '=')
  let value := (argument.dropWhile (· != '=')).tail?
  match longOption? name, value with
  | none, _ => .error (.refused .unknownArgument)
  | some (.flag f), none => r.raise f
  | some (.flag _), some _ => .error (.refused .needlessValue)
  | some (.value o), none => r.await o
  | some (.value o), some value => r.give o value

/-- The letters behind one dash. The first that takes a value takes all that follow it, without an
equals sign in front. -/
def short (r : Reading) : Text → Except Stop Reading
  | [] => .ok r
  | letter :: more =>
    match shortOption? letter, more with
    | none, _ => .error (.refused .unknownArgument)
    | some (.flag f), _ => (r.raise f).bind fun r => short r more
    | some (.value o), [] => r.await o
    | some (.value o), '=' :: value => r.give o value
    | some (.value o), value => r.give o value

/-- Behind `--` every argument is a file. A single dash is a value or a file. -/
def read (r : Reading) : List Text → Except Stop Reading
  | [] => .ok r
  | argument :: more =>
    match argument, r.waiting with
    | ['-', '-'], _ => more.foldlM addFile r
    | '-' :: '-' :: name, _ => (r.long name).bind fun r => read r more
    | '-' :: c :: letters, _ => (r.short (c :: letters)).bind fun r => read r more
    | _, .option o none => read ⟨r.arguments, .option o (some argument)⟩ more
    | _, _ => (r.addFile argument).bind fun r => read r more

end Reading

/-- Reads a command line without the name of the program. -/
def Arguments.ofCommandLine (arguments : List Text) : Except Stop Arguments :=
  (Reading.read ⟨.bare, .nothing⟩ arguments).bind Reading.settle

end HeaderCheck
