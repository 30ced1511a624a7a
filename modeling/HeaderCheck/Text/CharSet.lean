import HeaderCheck.Text.Basic

/-! Sets of characters and maps between characters, written as runs of code points. A table of some
hundred runs stands for a property of all characters. -/

namespace HeaderCheck

/-- The characters whose code points lie in one of the ranges, ends included. -/
structure CharSet where
  ranges : List (Nat × Nat)

def CharSet.contains (s : CharSet) (c : Char) : Bool :=
  s.ranges.any fun (first, last) => decide (first ≤ c.toNat) && decide (c.toNat ≤ last)

/-- Every `stride`-th code point from `first` to `last` goes to the one as far from `image` as it
is from `first`. -/
structure CharRun where
  first : Nat
  last : Nat
  stride : Nat
  image : Nat

def CharRun.covers (r : CharRun) (c : Char) : Bool :=
  decide (r.first ≤ c.toNat) && decide (c.toNat ≤ r.last) &&
    decide ((c.toNat - r.first) % r.stride = 0)

def CharRun.move (r : CharRun) (c : Char) : Char := Char.ofNat (r.image + (c.toNat - r.first))

/-- A character that no run covers stays as it is. -/
structure CharMap where
  runs : List CharRun

def CharMap.apply (m : CharMap) (c : Char) : Char :=
  match m.runs.find? (·.covers c) with
  | some r => r.move c
  | none => c

end HeaderCheck
