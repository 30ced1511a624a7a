import HeaderCheck.Path.Basic

/-! The order of paths is component by component: the root before `.`, that before `..`, and names
last and among each other by code point. It differs from the order of the spellings, in which
`a-b` stands before `a/b`. -/

namespace HeaderCheck

/-- Strictly before, in the order of components. -/
def Component.before : Component → Component → Bool
  | .name m, .name n => decide (m < n)
  | .name _, _ => false
  | _, .name _ => true
  | .root, .root => false
  | .root, _ => true
  | .here, .up => true
  | _, _ => false

/-- At most, in the order of lists of components: the first difference decides. -/
def componentsLe : List Component → List Component → Bool
  | [], _ => true
  | _ :: _, [] => false
  | a :: as, b :: bs => if a = b then componentsLe as bs else a.before b

def Path.le (p q : Path) : Bool := componentsLe p.components q.components

end HeaderCheck
