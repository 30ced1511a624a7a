import HeaderCheck.Proofs.Settings.Changes
import Mathlib.Data.List.Basic

/-! What a run of changes leaves in the settings. A change supplies a value for some of the fields
and leaves the others alone, so a field holds what the last change to supply a value for it
supplied. The order of changes that supply values for different fields does not matter. -/

namespace HeaderCheck

/-- The fields of the settings that changes write. The root is none of them. -/
inductive Settings.Field where
  | boilerplateDir
  | forcedKey
  | files
  | anyYear
  deriving DecidableEq, Repr

@[reducible] def Settings.Field.Value : Field → Type
  | .boilerplateDir => Path
  | .forcedKey => Option Key
  | .files => List Path
  | .anyYear => Bool

/-- What the change writes to the field of the settings of a root, if it writes the field. -/
def Change.supplied? (root : Path) : Change → (f : Settings.Field) → Option f.Value
  | .file said, .boilerplateDir => said.boilerplateDir.map root.join
  | .file said, .forcedKey => said.forcedKey.map fun key => if key = [] then none else some key
  | .file said, .anyYear => said.anyYear
  | .boilerplateDir dir, .boilerplateDir => some dir
  | .forcedKey key, .forcedKey => some (if key = some [] then none else key)
  | .files paths, .files => some paths
  | .anyYear value, .anyYear => some value
  | _, _ => none

/-- There is no field that both changes write. -/
def Change.Apart (root : Path) (c d : Change) : Prop :=
  ∀ f, c.supplied? root f = none ∨ d.supplied? root f = none

namespace Settings

def get (s : Settings) : (f : Field) → f.Value
  | .boilerplateDir => s.boilerplateDir
  | .forcedKey => s.forcedKey
  | .files => s.files
  | .anyYear => s.anyYear

/-- The value is that of the last change to write the field, or the one that the settings of the root
start from if no change writes it. -/
inductive LastWrite (root : Path) (changes : List Change) (f : Field) : f.Value → Prop
  | supplied {before behind : List Change} {c : Change} {value : f.Value}
      (split : changes = before ++ c :: behind) (hvalue : c.supplied? root f = some value)
      (hbehind : ∀ d ∈ behind, d.supplied? root f = none) : LastWrite root changes f value
  | untouched (hnone : ∀ c ∈ changes, c.supplied? root f = none) :
      LastWrite root changes f ((ofRoot root).get f)

def lastSupplied? (root : Path) (changes : List Change) (f : Field) : Option f.Value :=
  changes.reverse.findSome? (·.supplied? root f)

variable {root : Path} {changes before cs ds behind : List Change} {f : Field}

theorem lastSupplied?_append (root : Path) (cs ds : List Change) (f : Field) :
    lastSupplied? root (cs ++ ds) f = (lastSupplied? root ds f).or (lastSupplied? root cs f) := by
  rw [lastSupplied?, List.reverse_append, List.findSome?_append]
  rfl

theorem lastSupplied?_eq_none_iff :
    lastSupplied? root changes f = none ↔ ∀ c ∈ changes, c.supplied? root f = none := by
  simp [lastSupplied?]

theorem lastSupplied?_eq_some_iff {value : f.Value} :
    lastSupplied? root changes f = some value ↔
      ∃ before c behind, changes = before ++ c :: behind ∧ c.supplied? root f = some value ∧
        ∀ d ∈ behind, d.supplied? root f = none := by
  rw [lastSupplied?, List.findSome?_eq_some_iff]
  refine ⟨?_, ?_⟩
  · rintro ⟨behind, c, before, hsplit, hvalue, hbehind⟩
    refine ⟨before.reverse, c, behind.reverse, ?_, hvalue, by simpa using hbehind⟩
    simpa using congrArg List.reverse hsplit
  · rintro ⟨before, c, behind, rfl, hvalue, hbehind⟩
    exact ⟨behind.reverse, c, before.reverse, by simp, hvalue, by simpa using hbehind⟩

theorem ext_get {s t : Settings} (hroot : s.root = t.root) (h : ∀ f, s.get f = t.get f) : s = t := by
  have hdir := h .boilerplateDir
  have hkey := h .forcedKey
  have hfiles := h .files
  have hyear := h .anyYear
  cases s
  cases t
  simp only [get] at hroot hdir hkey hfiles hyear
  subst hroot hdir hkey hfiles hyear
  rfl

/-- A change writes to each field what it supplies for it, and nothing else. -/
theorem get_apply (s : Settings) (c : Change) (f : Field) :
    (s.apply c).get f = (c.supplied? s.root f).getD (s.get f) := by
  cases c with
  | file said =>
    cases f with
    | forcedKey =>
      cases hkey : said.forcedKey <;>
        simp [apply, get, Change.supplied?, hkey, nonEmptyKey_eq_ite]
    | _ => rfl
  | forcedKey key =>
    cases f with
    | forcedKey => exact nonEmptyKey_eq_ite key
    | _ => rfl
  | _ => cases f <;> rfl

theorem get_foldl_apply (s : Settings) (changes : List Change) (f : Field) :
    (changes.foldl apply s).get f = (lastSupplied? s.root changes f).getD (s.get f) := by
  induction changes generalizing s with
  | nil => rfl
  | cons c more ih =>
    have hfirst : lastSupplied? s.root [c] f = c.supplied? s.root f := by
      simp [lastSupplied?]
    rw [List.foldl_cons, ih, root_apply, get_apply, ← List.singleton_append, lastSupplied?_append,
      hfirst, Option.getD_or]

theorem get_after (root : Path) (changes : List Change) (f : Field) :
    (after root changes).get f = (lastSupplied? root changes f).getD ((ofRoot root).get f) :=
  get_foldl_apply (ofRoot root) changes f

theorem get_after_eq_iff {value : f.Value} :
    (after root changes).get f = value ↔ LastWrite root changes f value := by
  rw [get_after]
  refine ⟨?_, fun h => ?_⟩
  · rintro rfl
    cases hlast : lastSupplied? root changes f with
    | none => exact .untouched (lastSupplied?_eq_none_iff.1 hlast)
    | some value =>
      obtain ⟨before, c, behind, hsplit, hvalue, hbehind⟩ := lastSupplied?_eq_some_iff.1 hlast
      exact .supplied hsplit hvalue hbehind
  · cases h with
    | supplied hsplit hvalue hbehind =>
      rw [lastSupplied?_eq_some_iff.2 ⟨_, _, _, hsplit, hvalue, hbehind⟩, Option.getD_some]
    | untouched hnone => rw [lastSupplied?_eq_none_iff.2 hnone, Option.getD_none]

theorem supplied?_ne_emptyKey (root : Path) (c : Change) :
    c.supplied? root .forcedKey ≠ some (some []) := by
  cases c with
  | file said =>
    intro h
    obtain ⟨key, -, hkey⟩ := Option.map_eq_some_iff.1 h
    split_ifs at hkey with hempty
    exact hempty (Option.some.inj hkey)
  | forcedKey key =>
    intro h
    have hkey := Option.some.inj h
    split_ifs at hkey with hempty
    exact hempty hkey
  | _ => exact nofun

/-- An empty key neither comes from a change nor is it there from the beginning. -/
theorem forcedKey_after_ne (root : Path) (changes : List Change) :
    (after root changes).forcedKey ≠ some [] := by
  show (after root changes).get .forcedKey ≠ some []
  rw [get_after]
  cases hlast : lastSupplied? root changes .forcedKey with
  | none => exact nofun
  | some key =>
    obtain ⟨-, c, -, -, hkey, -⟩ := lastSupplied?_eq_some_iff.1 hlast
    rintro rfl
    exact supplied?_ne_emptyKey root c hkey

theorem after_swap (h : ∀ c ∈ cs, ∀ d ∈ ds, c.Apart root d) :
    after root (before ++ ds ++ cs ++ behind) = after root (before ++ cs ++ ds ++ behind) := by
  refine ext_get (by rw [root_after, root_after]) fun f => ?_
  -- one of the blocks leaves the field alone, so the other one has its say in either order
  have hone : lastSupplied? root cs f = none ∨ lastSupplied? root ds f = none := by
    simp only [lastSupplied?_eq_none_iff]
    by_contra hboth
    obtain ⟨⟨c, hc, hwrites⟩, d, hd, hsame⟩ := by simpa only [not_or, not_forall] using hboth
    exact (h c hc d hd f).elim hwrites hsame
  rw [get_after, get_after]
  simp only [lastSupplied?_append]
  rcases hone with hnone | hnone <;> simp [hnone]

/-- Whatever changes are made to the settings of a root, the root stays, no empty key is forced, and
every other field is as the last change to write it left it. Blocks of changes that write different
fields may change places. -/
theorem after_lastWrite (root : Path) (changes : List Change) :
    (after root changes).root = root ∧ (after root changes).forcedKey ≠ some [] ∧
      (∀ f value, (after root changes).get f = value ↔ LastWrite root changes f value) ∧
      ∀ before cs ds behind, changes = before ++ cs ++ ds ++ behind →
        (∀ c ∈ cs, ∀ d ∈ ds, c.Apart root d) →
          after root (before ++ ds ++ cs ++ behind) = after root changes := by
  refine ⟨root_after root changes, forcedKey_after_ne root changes, fun f value => get_after_eq_iff,
    ?_⟩
  rintro before cs ds behind rfl hapart
  exact after_swap hapart

/-- An empty key in a file clears the key of the caller before it. The year and the files of the
caller may come behind that file or before it. -/
theorem after_clearedKey :
    let root : Path := ⟨"/r".toList⟩
    let forced : Change := .forcedKey (some "sh".toList)
    let file : Change := .file ⟨some ⟨"b".toList⟩, some [], none⟩
    let year : Change := .anyYear true
    let named : Change := .files [⟨"x.py".toList⟩]
    let s := after root [forced, file, year, named]
    s.root = root ∧ s.forcedKey = none ∧ s.boilerplateDir = ⟨"/r/b".toList⟩ ∧ s.anyYear = true ∧
      after root [forced, year, named, file] = s := by
  intro root forced file year named s
  obtain ⟨hroot, -, hfields, hswap⟩ := after_lastWrite root [forced, file, year, named]
  have hfile : [forced, file, year, named] = [forced] ++ file :: [year, named] := rfl
  have hyear : [forced, file, year, named] = [forced, file] ++ year :: [named] := rfl
  have hapart : ∀ c ∈ [file], ∀ d ∈ [year, named], c.Apart root d := by
    intro c hc d hd f
    rw [List.mem_singleton.1 hc]
    rcases List.mem_pair.1 hd with rfl | rfl <;> cases f <;> decide
  exact ⟨hroot, (hfields .forcedKey none).2 (.supplied hfile rfl (by decide)),
    (hfields .boilerplateDir _).2 (.supplied hfile rfl (by decide)),
    (hfields .anyYear true).2 (.supplied hyear rfl (by decide)),
    hswap [forced] [file] [year, named] [] rfl hapart⟩

end Settings

end HeaderCheck
