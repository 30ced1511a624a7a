import HeaderCheck.Disk.Listing

/-! A disk is the listing of its root directory. A location names a place on it without links, by
the names on the way from the root. -/

namespace HeaderCheck

abbrev Location := List Text

/-- What stands at the location, seen from the node. -/
def Node.at? : Node → Location → Option Node
  | node, [] => some node
  | .dir inside, name :: more => (inside.find? name).bind fun node => node.at? more
  | _, _ :: _ => none

theorem Node.at?_append (node : Node) (here more : Location) :
    node.at? (here ++ more) = (node.at? here).bind fun found => found.at? more := by
  induction here generalizing node with
  | nil => simp [Node.at?]
  | cons name here ih =>
    cases node with
    | dir inside =>
      simp only [List.cons_append, Node.at?]
      cases inside.find? name with
      | none => rfl
      | some found => exact ih found
    | file bytes => simp [Node.at?]
    | link target => simp [Node.at?]

structure Disk where
  root : Listing
  wellFormed : root.WellFormed

namespace Disk

def blank : Disk := ⟨.empty, trivial⟩

def node? (d : Disk) (loc : Location) : Option Node := (Node.dir d.root).at? loc

end Disk

/-- The path that spells a location. -/
def Location.path (loc : Location) : Path :=
  ⟨'/' :: Text.joined '/' loc⟩

end HeaderCheck
