import HeaderCheck.Disk.Basic
import HeaderCheck.Disk.Fault

/-! Where a run stands. The directory may be removed while the run stands in it. Then it has no
location any more, is empty and leads nowhere but up, and a new directory of the same name is
another one. -/

namespace HeaderCheck

/-- The directory at `base`, or the innermost of `lost` directories that were nested in it and have
been removed. -/
structure Standpoint where
  base : Location
  lost : Nat
  deriving DecidableEq, Repr

namespace Standpoint

/-- In a directory of the disk. -/
def on (loc : Location) : Standpoint := ⟨loc, 0⟩

def location? (s : Standpoint) : Option Location := if s.lost = 0 then some s.base else none

@[simp] theorem location?_on (loc : Location) : (on loc).location? = some loc := rfl

/-- Takes the steps up and out of removed directories. What is left of the steps starts on the disk,
unless they end in a removed directory. -/
def climb : Standpoint → List Text → Except Fault (Standpoint × List Text)
  | ⟨base, 0⟩, steps => .ok (⟨base, 0⟩, steps)
  | ⟨base, lost + 1⟩, [] => .ok (⟨base, lost + 1⟩, [])
  | ⟨base, lost + 1⟩, step :: more =>
    if step = ['.'] then climb ⟨base, lost + 1⟩ more
    else if step = ['.', '.'] then climb ⟨base, lost⟩ more
    else .error .missing

/-- A directory that is there is not left by climbing. -/
@[simp] theorem climb_on (loc : Location) (steps : List Text) :
    (on loc).climb steps = .ok (on loc, steps) := by
  simp [on, climb]

/-- Where one stands when what is at the location has been removed. -/
def without (s : Standpoint) (gone : Location) : Standpoint :=
  if gone ≠ [] ∧ gone.isPrefixOf s.base then
    ⟨gone.dropLast, s.lost + (s.base.length - gone.dropLast.length)⟩
  else s

end Standpoint

/-- What is at the standpoint. A removed directory is empty. -/
def Disk.nodeAt? (d : Disk) (s : Standpoint) : Option Node :=
  match s.location? with
  | some loc => d.node? loc
  | none => some (.dir .empty)

end HeaderCheck
