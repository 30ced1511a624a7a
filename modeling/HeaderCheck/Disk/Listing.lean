import HeaderCheck.Path.Basic
import HeaderCheck.Text.Utf8

/-! What a directory holds: files with their bytes, symbolic links with their targets, and further
directories. A listing has an order, in which it is read; a well formed one has no name twice. -/

namespace HeaderCheck

inductive Listing where
  | empty
  | file (name : Text) (bytes : Bytes) (rest : Listing)
  | link (name : Text) (target : Path) (rest : Listing)
  | dir (name : Text) (inside : Listing) (rest : Listing)
  deriving DecidableEq, Repr

inductive Node where
  | file (bytes : Bytes)
  | link (target : Path)
  | dir (inside : Listing)
  deriving DecidableEq, Repr

def Node.isDir : Node → Bool
  | .dir _ => true
  | _ => false

/-- What can be the name of an entry. -/
def isName (name : Text) : Bool :=
  name != [] && name != ['.'] && name != ['.', '.'] && !name.contains '/' &&
    !name.contains '\x00' && decide (Utf8.size name ≤ 255)

namespace Listing

/-- The listing as a list of named nodes. -/
def entries : Listing → List (Text × Node)
  | empty => []
  | file name bytes rest => (name, .file bytes) :: rest.entries
  | link name target rest => (name, .link target) :: rest.entries
  | dir name inside rest => (name, .dir inside) :: rest.entries

def cons (name : Text) : Node → Listing → Listing
  | .file bytes => file name bytes
  | .link target => link name target
  | .dir inside => dir name inside

def ofEntries : List (Text × Node) → Listing
  | [] => empty
  | (name, node) :: more => cons name node (ofEntries more)

def names (l : Listing) : List Text := l.entries.map (·.1)

def find? (l : Listing) (name : Text) : Option Node := l.entries.lookup name

@[simp] theorem entries_cons (name : Text) (node : Node) (l : Listing) :
    (cons name node l).entries = (name, node) :: l.entries := by
  cases node <;> rfl

@[simp] theorem entries_ofEntries (es : List (Text × Node)) : (ofEntries es).entries = es := by
  induction es with
  | nil => rfl
  | cons e es ih => simp [ofEntries, ih]

@[simp] theorem ofEntries_entries (l : Listing) : ofEntries l.entries = l := by
  induction l with
  | empty => rfl
  | file name bytes rest ih => simp [entries, ofEntries, ih, Listing.cons]
  | link name target rest ih => simp [entries, ofEntries, ih, Listing.cons]
  | dir name inside rest _ ih => simp [entries, ofEntries, ih, Listing.cons]

/-- Names are names and none occurs twice, here and in every directory below. -/
def WellFormed : Listing → Prop
  | empty => True
  | file name _ rest => isName name = true ∧ name ∉ rest.names ∧ rest.WellFormed
  | link name _ rest => isName name = true ∧ name ∉ rest.names ∧ rest.WellFormed
  | dir name inside rest =>
    isName name = true ∧ name ∉ rest.names ∧ inside.WellFormed ∧ rest.WellFormed

instance decidableWellFormed : (l : Listing) → Decidable l.WellFormed
  | empty => inferInstanceAs (Decidable True)
  | file name _ rest =>
    have := decidableWellFormed rest
    inferInstanceAs (Decidable (isName name = true ∧ name ∉ rest.names ∧ rest.WellFormed))
  | link name _ rest =>
    have := decidableWellFormed rest
    inferInstanceAs (Decidable (isName name = true ∧ name ∉ rest.names ∧ rest.WellFormed))
  | dir name inside rest =>
    have := decidableWellFormed inside
    have := decidableWellFormed rest
    inferInstanceAs (Decidable
      (isName name = true ∧ name ∉ rest.names ∧ inside.WellFormed ∧ rest.WellFormed))

end Listing

def Node.WellFormed : Node → Prop
  | .dir inside => inside.WellFormed
  | _ => True

namespace Listing

theorem wellFormed_cons {name : Text} {node : Node} {l : Listing} :
    (cons name node l).WellFormed ↔
      isName name = true ∧ name ∉ l.names ∧ node.WellFormed ∧ l.WellFormed := by
  cases node <;> simp [cons, WellFormed, Node.WellFormed]

theorem wellFormed_iff {l : Listing} : l.WellFormed ↔
    l.names.Nodup ∧ ∀ e ∈ l.entries, isName e.1 = true ∧ e.2.WellFormed := by
  rw [← ofEntries_entries l]
  induction l.entries with
  | nil => simp [ofEntries, WellFormed, names, entries]
  | cons e es ih =>
    obtain ⟨name, node⟩ := e
    simp only [ofEntries, wellFormed_cons, ih, names, entries_cons, entries_ofEntries,
      List.map_cons, List.nodup_cons, List.mem_cons, forall_eq_or_imp]
    grind

end Listing

end HeaderCheck
