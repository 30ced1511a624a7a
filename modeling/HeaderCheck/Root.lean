import HeaderCheck.Failure
import HeaderCheck.Text.Blank
import HeaderCheck.World

/-! The root of the repository: the directory that the caller names, made absolute, or else the one
that git reports. -/

namespace HeaderCheck

/-- The root that git prints, without the blanks around it. -/
def discoverRoot (w : World) : Except Failure Path :=
  match w.git with
  | none => .error (.gitUnavailable .missing)
  | some answer =>
    if answer.succeeded = false then .error (.rootUnknown .notRepository)
    else
      let root := Text.trimmed (Utf8.decodeLossy answer.output)
      if root = [] then .error (.rootUnknown .noAnswer) else .ok ⟨root⟩

/-- A relative directory is taken from the one in which the run stands, which has to be there. -/
def resolveRoot (w : World) (named : Option Path) : Except Failure Path :=
  match named with
  | none => discoverRoot w
  | some dir =>
    if dir.isAbsolute then .ok dir
    else match w.cwd.location? with
      | some here => .ok ((Location.path here).join dir)
      | none => .error (.onDisk .readWorkingDir ⟨['.']⟩ .missing)

end HeaderCheck
