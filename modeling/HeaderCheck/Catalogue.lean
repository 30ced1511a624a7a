import HeaderCheck.FileKey
import HeaderCheck.Sort

/-! Values under keys. A key has one value, the one it was given last. -/

namespace HeaderCheck

structure Catalogue (α : Type) where
  entries : List (Key × α)
  deriving DecidableEq, Repr

namespace Catalogue

variable {α β : Type}

def empty : Catalogue α := ⟨[]⟩

def get? (c : Catalogue α) (key : Key) : Option α := c.entries.lookup key

def contains (c : Catalogue α) (key : Key) : Bool := (c.get? key).isSome

def isEmpty (c : Catalogue α) : Bool := c.entries.isEmpty

/-- Gives the key this value, in place of the one it had. -/
def insert (c : Catalogue α) (key : Key) (value : α) : Catalogue α :=
  ⟨(key, value) :: c.entries.filter (·.1 != key)⟩

/-- The keys in ascending order. -/
def keys (c : Catalogue α) : List Key := sortBy Text.le (c.entries.map (·.1))

def map (f : α → β) (c : Catalogue α) : Catalogue β := ⟨c.entries.map fun e => (e.1, f e.2)⟩

/-- The pairs are entered one after another. -/
def ofList (pairs : List (Key × α)) : Catalogue α :=
  pairs.foldl (fun c e => c.insert e.1 e.2) empty

theorem get?_empty (key : Key) : (empty : Catalogue α).get? key = none := rfl

theorem get?_insert (c : Catalogue α) (key other : Key) (value : α) :
    (c.insert key value).get? other = if other = key then some value else c.get? other := by
  simp only [get?, insert, List.lookup_cons]
  by_cases h : other = key
  · simp [h]
  · rw [if_neg h, beq_false_of_ne h]
    show List.lookup other (c.entries.filter _) = _
    induction c.entries with
    | nil => rfl
    | cons e es ih =>
      obtain ⟨k, v⟩ := e
      by_cases hk : k = key
      · rw [List.filter_cons_of_neg (by simp [hk]), List.lookup_cons, hk, beq_false_of_ne h]
        exact ih
      · rw [List.filter_cons_of_pos (by simp [hk]), List.lookup_cons, List.lookup_cons, ih]

theorem contains_insert (c : Catalogue α) (key other : Key) (value : α) :
    (c.insert key value).contains other = true ↔ other = key ∨ c.contains other = true := by
  by_cases h : other = key <;> simp [contains, get?_insert, h]

theorem mem_keys_iff {c : Catalogue α} {key : Key} : key ∈ c.keys ↔ c.contains key = true := by
  rw [keys, (sortBy_perm _ _).mem_iff, contains, get?, List.lookup_isSome_iff, List.mem_map]
  exact ⟨fun ⟨e, he, hkey⟩ => ⟨e, he, by rw [hkey, beq_self_eq_true]⟩,
    fun ⟨e, he, hkey⟩ => ⟨e, he, (beq_iff_eq.1 hkey).symm⟩⟩

theorem get?_map (f : α → β) (c : Catalogue α) (key : Key) :
    (c.map f).get? key = (c.get? key).map f := by
  simp only [get?, map]
  induction c.entries with
  | nil => rfl
  | cons e es ih =>
    obtain ⟨k, v⟩ := e
    rw [List.map_cons, List.lookup_cons, List.lookup_cons, ih]
    cases key == k <;> rfl

end Catalogue

end HeaderCheck
