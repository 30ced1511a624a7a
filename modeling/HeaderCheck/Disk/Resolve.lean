import HeaderCheck.Disk.Standpoint

/-! From a path to a place on the disk. The steps of the path are taken one after another; a step
into a link continues with the steps of its target from the directory that holds the link. At most
forty links are followed. The last name of a path need not exist: then the location is where it
would be. -/

namespace HeaderCheck

/-- The steps of a path: names, `.` and `..`. A separator at the end asks for a directory, as a
final `.` does. -/
def Path.steps (p : Path) : List Text :=
  let names := (Text.pieces '/' p.text).filter (· != [])
  if p.text.getLast? = some '/' ∧ names ≠ [] then names ++ [['.']] else names

/-- Where the steps of a link's target start: at the root, or in the directory of the link. -/
def Path.origin (target : Path) (here : Location) : Location :=
  if target.isAbsolute then [] else here

namespace Disk

/-- Takes the steps up to a link that has to be followed, and leaves that link to `follow`. With
`last` false a link at the end of the path stands for itself. -/
def walkSteps (d : Disk) (last : Bool)
    (follow : Location → Path → List Text → Except Fault Location) :
    Location → List Text → Except Fault Location
  | here, [] => .ok here
  | here, step :: more =>
    match d.node? here with
    | none => .error .missing
    | some (.dir inside) =>
      if step = ['.'] then walkSteps d last follow here more
      else if step = ['.', '.'] then walkSteps d last follow here.dropLast more
      else if 255 < Utf8.size step then .error .nameTooLong
      else match inside.find? step with
        | none => if more = [] then .ok (here ++ [step]) else .error .missing
        | some (.link target) =>
          if more = [] ∧ last = false then .ok (here ++ [step]) else follow here target more
        | some _ => walkSteps d last follow (here ++ [step]) more
    | some _ => .error .notDirectory

/-- Takes the steps with at most so many links on the way. -/
def resolveWithin (d : Disk) (last : Bool) : Nat → Location → List Text → Except Fault Location
  | 0 => d.walkSteps last fun _ _ _ => .error .linkLoop
  | links + 1 => d.walkSteps last fun here target more =>
    resolveWithin d last links (target.origin here) (target.steps ++ more)

def maxLinks : Nat := 40

/-- The number of bytes from which on a path is too long to be used. -/
def pathLimit : Nat := 4096

/-- The place of the path for one who stands at `here`. -/
def resolve (d : Disk) (last : Bool) (here : Standpoint) (p : Path) : Except Fault Standpoint :=
  if p.text.contains '\x00' then .error .nulInPath
  else if p.text = [] then .error .missing
  else if pathLimit ≤ Utf8.size p.text then .error .nameTooLong
  else
    let start := if p.isAbsolute then .on [] else here
    (start.climb p.steps).bind fun (reached, more) =>
      match reached.location? with
      | some loc => (d.resolveWithin last maxLinks loc more).map .on
      | none => .ok reached

end Disk

end HeaderCheck
