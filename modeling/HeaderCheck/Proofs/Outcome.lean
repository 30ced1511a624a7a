/-! Outcomes of steps that may fail, taken apart: a sequence of two steps succeeds when both do, and
fails with the first failure. -/

namespace HeaderCheck

variable {ε δ α β γ : Type}

theorem bind_eq_ok_iff {x : Except ε α} {f : α → Except ε β} {b : β} :
    x.bind f = .ok b ↔ ∃ a, x = .ok a ∧ f a = .ok b := by
  cases x <;> simp [Except.bind]

theorem bind_eq_error_iff {x : Except ε α} {f : α → Except ε β} {e : ε} :
    x.bind f = .error e ↔ x = .error e ∨ ∃ a, x = .ok a ∧ f a = .error e := by
  cases x <;> simp [Except.bind]

theorem map_eq_ok_iff {x : Except ε α} {f : α → β} {b : β} :
    x.map f = .ok b ↔ ∃ a, x = .ok a ∧ f a = b := by
  cases x <;> simp [Except.map]

theorem map_eq_error_iff {x : Except ε α} {f : α → β} {e : ε} :
    x.map f = .error e ↔ x = .error e := by
  cases x <;> simp [Except.map]

/-- The failure that an outcome is, unless it is a success. -/
def errorOf? : Except ε α → Option ε
  | .ok _ => none
  | .error e => some e

@[simp] theorem errorOf?_ok (a : α) : errorOf? (.ok a : Except ε α) = none := rfl

@[simp] theorem errorOf?_error (e : ε) : errorOf? (.error e : Except ε α) = some e := rfl

theorem errorOf?_eq_some_iff {x : Except ε α} {e : ε} : errorOf? x = some e ↔ x = .error e := by
  cases x <;> simp

theorem errorOf?_eq_none_iff {x : Except ε α} : errorOf? x = none ↔ ∃ a, x = .ok a := by
  cases x <;> simp

@[simp] theorem errorOf?_map (x : Except ε α) (f : α → β) : errorOf? (x.map f) = errorOf? x := by
  cases x <;> rfl

/-- The second step matters only if the first succeeds. -/
theorem errorOf?_bind {x : Except ε α} {f : α → Except ε β} {e : Option ε}
    (h : ∀ a, x = .ok a → errorOf? (f a) = e) : errorOf? (x.bind f) = (errorOf? x).or e := by
  cases x with
  | error failure => rfl
  | ok a => exact h a rfl

theorem findSome?_cons_eq_or (f : α → Option β) (a : α) (more : List α) :
    (a :: more).findSome? f = (f a).or (more.findSome? f) := by
  rw [List.findSome?_cons]
  cases f a <;> rfl

/-- What is told of a failure is told of the first one. -/
theorem mapError_bind (x : Except ε α) (f : α → Except ε β) (e : ε → δ) :
    (x.bind f).mapError e = (x.mapError e).bind fun a => (f a).mapError e := by
  cases x <;> rfl

theorem mapError_map (x : Except ε α) (f : α → β) (e : ε → δ) :
    (x.map f).mapError e = (x.mapError e).map f := by
  cases x <;> rfl

/-- Two outcomes are alike if they are the same failure, or both a success with related results. -/
def Alike (related : α → β → Prop) : Except ε α → Except ε β → Prop
  | .ok a, .ok b => related a b
  | .error e, .error f => e = f
  | _, _ => False

namespace Alike

variable {related : α → β → Prop} {x : Except ε α} {y : Except ε β}

theorem same (x : Except ε α) : Alike (· = ·) x x := by
  cases x <;> exact rfl

/-- Steps that are alike for related results are alike after outcomes that are alike. -/
theorem bind {after : γ → δ → Prop} {f : α → Except ε γ} {g : β → Except ε δ}
    (h : Alike related x y) (hsteps : ∀ a b, related a b → Alike after (f a) (g b)) :
    Alike after (x.bind f) (y.bind g) := by
  cases x <;> cases y
  case error.error => exact h
  case ok.ok a b => exact hsteps a b h
  all_goals exact h.elim

theorem map {after : γ → δ → Prop} {f : α → γ} {g : β → δ} (h : Alike related x y)
    (hresults : ∀ a b, related a b → after (f a) (g b)) : Alike after (x.map f) (y.map g) := by
  cases x <;> cases y
  case error.error => exact h
  case ok.ok a b => exact hresults a b h
  all_goals exact h.elim

end Alike

end HeaderCheck
