import HeaderCheck.Proofs.Outcome
import HeaderCheck.Selection.Walk

/-! A disk with all its files emptied. Entries, their kinds, the targets of links and the order of
the listings are left, and that is all that finding something on the disk needs: paths lead to the
same places, and a walk lists the same files. -/

namespace HeaderCheck

/-- The listing with every file in it emptied, at any depth. -/
def Listing.blanked : Listing → Listing
  | .empty => .empty
  | .file name _ rest => .file name [] rest.blanked
  | .link name target rest => .link name target rest.blanked
  | .dir name inside rest => .dir name inside.blanked rest.blanked

def Node.blanked : Node → Node
  | .file _ => .file []
  | .link target => .link target
  | .dir inside => .dir inside.blanked

namespace Listing

@[simp] theorem entries_blanked (l : Listing) :
    l.blanked.entries = l.entries.map fun e => (e.1, e.2.blanked) := by
  induction l with
  | empty => rfl
  | file name bytes rest ih => simp [blanked, entries, ih, Node.blanked]
  | link name target rest ih => simp [blanked, entries, ih, Node.blanked]
  | dir name inside rest _ ih => simp [blanked, entries, ih, Node.blanked]

@[simp] theorem names_blanked (l : Listing) : l.blanked.names = l.names := by
  simp [names]

@[simp] theorem find?_blanked (l : Listing) (name : Text) :
    l.blanked.find? name = (l.find? name).map Node.blanked := by
  unfold find?
  rw [entries_blanked]
  induction l.entries with
  | nil => rfl
  | cons e es ih =>
    rw [List.map_cons, List.lookup_cons, List.lookup_cons, ih]
    cases name == e.1 <;> rfl

theorem WellFormed.blanked {l : Listing} (h : l.WellFormed) : l.blanked.WellFormed := by
  induction l with
  | empty => trivial
  | file name bytes rest ih =>
    obtain ⟨hname, hfresh, hrest⟩ := h
    exact ⟨hname, by simpa using hfresh, ih hrest⟩
  | link name target rest ih =>
    obtain ⟨hname, hfresh, hrest⟩ := h
    exact ⟨hname, by simpa using hfresh, ih hrest⟩
  | dir name inside rest ihInside ihRest =>
    obtain ⟨hname, hfresh, hinside, hrest⟩ := h
    exact ⟨hname, by simpa using hfresh, ihInside hinside, ihRest hrest⟩

end Listing

@[simp] theorem Node.at?_blanked (node : Node) (loc : Location) :
    node.blanked.at? loc = (node.at? loc).map blanked := by
  induction loc generalizing node with
  | nil => simp [at?]
  | cons name more ih =>
    cases node with
    | file bytes => rfl
    | link target => rfl
    | dir inside =>
      simp only [blanked, at?, Listing.find?_blanked]
      cases inside.find? name with
      | none => rfl
      | some found => exact ih found

namespace Disk

def blanked (d : Disk) : Disk := ⟨d.root.blanked, d.wellFormed.blanked⟩

variable (d : Disk) (last : Bool)

@[simp] theorem node?_blanked (loc : Location) :
    d.blanked.node? loc = (d.node? loc).map Node.blanked :=
  Node.at?_blanked (.dir d.root) loc

@[simp] theorem nodeAt?_blanked (place : Standpoint) :
    d.blanked.nodeAt? place = (d.nodeAt? place).map Node.blanked := by
  unfold nodeAt?
  cases place.location? with
  | none => rfl
  | some loc => exact node?_blanked d loc

/-- Steps are taken by names and links alone. -/
theorem walkSteps_blanked (follow : Location → Path → List Text → Except Fault Location)
    (here : Location) (steps : List Text) :
    d.blanked.walkSteps last follow here steps = d.walkSteps last follow here steps := by
  induction steps generalizing here with
  | nil => rfl
  | cons step more ih =>
    unfold walkSteps
    rw [node?_blanked]
    rcases d.node? here with _ | (bytes | target | inside)
    · rfl
    · rfl
    · rfl
    · simp only [Option.map_some, Node.blanked, Listing.find?_blanked, ih]
      rcases inside.find? step with _ | (bytes | target | sub) <;> rfl

theorem resolveWithin_blanked (links : Nat) (here : Location) (steps : List Text) :
    d.blanked.resolveWithin last links here steps = d.resolveWithin last links here steps := by
  induction links generalizing here steps with
  | zero => exact walkSteps_blanked d last _ here steps
  | succ links ih =>
    unfold resolveWithin
    rw [walkSteps_blanked]
    simp only [ih]

@[simp] theorem resolve_blanked (here : Standpoint) (p : Path) :
    d.blanked.resolve last here p = d.resolve last here p := by
  simp only [resolve, resolveWithin_blanked]

end Disk

namespace World

def blanked (w : World) : World := { w with disk := w.disk.blanked }

variable (w : World)

@[simp] theorem stat_blanked (p : Path) : w.blanked.stat p = (w.stat p).map Node.blanked := by
  unfold stat blanked
  rw [Disk.resolve_blanked]
  cases w.disk.resolve true w.cwd p with
  | error fault => rfl
  | ok place =>
    simp only [Except.bind, Disk.nodeAt?_blanked]
    cases w.disk.nodeAt? place <;> rfl

@[simp] theorem linkStat_blanked (p : Path) :
    w.blanked.linkStat p = (w.linkStat p).map Node.blanked := by
  unfold linkStat blanked
  rw [Disk.resolve_blanked]
  cases w.disk.resolve false w.cwd p with
  | error fault => rfl
  | ok place =>
    simp only [Except.bind, Disk.nodeAt?_blanked]
    cases w.disk.nodeAt? place <;> rfl

@[simp] theorem isFile_blanked (p : Path) : w.blanked.isFile p = w.isFile p := by
  unfold isFile
  rw [stat_blanked]
  rcases w.stat p with fault | (bytes | target | inside) <;> rfl

theorem readDir_blanked (p : Path) : w.blanked.readDir p = (w.readDir p).map Listing.blanked := by
  unfold readDir
  rw [stat_blanked]
  rcases w.stat p with fault | (bytes | target | inside) <;> rfl

theorem filesIn_blanked (pruned : Text → Bool) (dir : Path) (l : Listing) :
    w.blanked.filesIn pruned dir l.blanked = w.filesIn pruned dir l := by
  induction l generalizing dir with
  | empty => rfl
  | file name bytes rest ih => rw [Listing.blanked, filesIn, filesIn, ih]
  | link name target rest ih =>
    rw [Listing.blanked, filesIn, filesIn, ih]
    simp only [isFile_blanked]
  | dir name inside rest ihInside ihRest =>
    rw [Listing.blanked, filesIn, filesIn, ihInside, ihRest]

/-- A walk does not look into files. -/
theorem filesBelow_blanked (pruned : Text → Bool) (root : Path) :
    w.blanked.filesBelow pruned root = w.filesBelow pruned root := by
  unfold filesBelow
  rw [linkStat_blanked, stat_blanked]
  rcases w.linkStat root with fault | (bytes | target | inside)
  · rfl
  · rfl
  · rcases w.stat root with fault | (bytes | target | inside)
    · rfl
    · rfl
    · rfl
    · exact filesIn_blanked w pruned root inside
  · exact filesIn_blanked w pruned root inside

end World

end HeaderCheck
