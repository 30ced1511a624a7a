import HeaderCheck.Proofs.Boilerplate.Load
import HeaderCheck.Proofs.Verification.Stages

/-! The order of failures. A run takes seven hurdles; what it fails with is told by the first one
that it does not take, and nothing after that matters. Each hurdle is said here by itself, as the
failure that a world and the settings have in store at it, whether or not a run gets so far. -/

namespace HeaderCheck

variable {w : World} {s : Settings} {b : Boilerplate} {category : Category} {dir : Path}
  {paths : List Path}

/-- The failure at the first file of the category that cannot be read. -/
def Category.unread? (category : Category) (w : World) (dir : Path) : Option Failure :=
  (category.found w dir).findSome? fun source =>
    (errorOf? (w.readText source.2)).map (.onDisk .readBoilerplate source.2)

namespace World

/-- The keys that a run has references for when they can be read. -/
def knownKeys (w : World) (dir : Path) : List Key := (Category.reference.found w dir).map (·.1)

/-- The paths that are read for a check, in order. They are named, or found by the walk, and are
left by the filters for skipped paths and for keys that are not known. -/
def candidates (w : World) (s : Settings) : List Path :=
  wantedPaths s.root skipFragments (w.knownKeys s.boilerplateDir).contains s.forcedKey
    (if s.files = [] then (w.filesBelow (skipFragments.contains ·) s.root).toOption.getD []
      else s.files)

end World

inductive Hurdle where
  | listing
  | references
  | anyReference
  | preambles
  | forcedKey
  | walk
  | candidates
  deriving DecidableEq, Repr

namespace Hurdle

def inOrder : List Hurdle :=
  [listing, references, anyReference, preambles, forcedKey, walk, candidates]

/-- The failure in store at the hurdle. -/
def failure? (w : World) (s : Settings) : Hurdle → Option Failure
  | listing =>
    (errorOf? (w.readDir s.boilerplateDir)).map (.onDisk .readBoilerplateDir s.boilerplateDir)
  | references => Category.reference.unread? w s.boilerplateDir
  | anyReference =>
    if Category.reference.found w s.boilerplateDir = [] then some (.noReferences s.boilerplateDir)
    else none
  | preambles => Category.preamble.unread? w s.boilerplateDir
  | forcedKey =>
    match s.forcedKey with
    | none => none
    | some key =>
      if key ∈ w.knownKeys s.boilerplateDir then none else some (.unknownKey key)
  | walk =>
    if s.files = [] then errorOf? (w.filesBelow (skipFragments.contains ·) s.root) else none
  | candidates =>
    (w.candidates s).findSome? fun p => (errorOf? (w.readBytes p)).map (.onDisk .readFile p)

end Hurdle

section Loading

theorem errorOf?_loadCategory : errorOf? (loadCategory w category dir) =
    ((errorOf? (w.readDir dir)).map (.onDisk .readBoilerplateDir dir)).or
      (category.unread? w dir) := by
  unfold loadCategory
  cases w.readDir dir with
  | error fault => rfl
  | ok listing => exact errorOf?_readSources

/-- Preambles are looked for in the directory that the references were found in. -/
theorem errorOf?_loadBoilerplate (w : World) (s : Settings) :
    errorOf? (loadBoilerplate w s.boilerplateDir) =
      (Hurdle.listing.failure? w s).or ((Hurdle.references.failure? w s).or
        ((Hurdle.anyReference.failure? w s).or (Hurdle.preambles.failure? w s))) := by
  rw [loadBoilerplate, errorOf?_bind (e := (Hurdle.anyReference.failure? w s).or
    (Hurdle.preambles.failure? w s)), errorOf?_loadCategory, Option.or_assoc]
  · rfl
  · intro references hreferences
    have hempty := isEmpty_iff_found_eq_nil hreferences
    obtain ⟨⟨listing, hlisting⟩, -⟩ := loadCategory_eq_ok_iff.1 hreferences
    simp only [hempty, Hurdle.failure?]
    split_ifs
    · rfl
    · rw [errorOf?_map, errorOf?_loadCategory, hlisting]
      rfl

theorem contains_eq_knownKeys (hload : loadBoilerplate w dir = .ok b) :
    b.references.contains = (w.knownKeys dir).contains := by
  funext key
  rw [Bool.eq_iff_iff, contains_iff_mem_found (loadBoilerplate_eq_ok_iff.1 hload).1]
  simp [World.knownKeys]

theorem errorOf?_requireReference (hload : loadBoilerplate w s.boilerplateDir = .ok b) :
    errorOf? (requireReference b s.forcedKey) = Hurdle.forcedKey.failure? w s := by
  rw [Hurdle.failure?]
  cases s.forcedKey with
  | none => rfl
  | some key =>
    simp only [requireReference, contains_eq_knownKeys hload, List.contains_iff_mem]
    split_ifs <;> rfl

end Loading

namespace World

theorem errorOf?_selection (w : World) (s : Settings) (b : Boilerplate) :
    errorOf? (w.selection s b) = Hurdle.walk.failure? w s := by
  rw [selection, selectFiles, Hurdle.failure?]
  split_ifs
  · exact errorOf?_map _ _
  · rfl

theorem eq_candidates_of_selection (hload : loadBoilerplate w s.boilerplateDir = .ok b)
    (hpaths : w.selection s b = .ok paths) : paths = w.candidates s := by
  rw [selection, selectFiles, contains_eq_knownKeys hload] at hpaths
  rw [candidates]
  split_ifs at hpaths ⊢
  · obtain ⟨found, hfound, rfl⟩ := map_eq_ok_iff.1 hpaths
    rw [hfound]
    rfl
  · exact (Except.ok.inj hpaths).symm

theorem errorOf?_verify (w : World) (s : Settings) :
    errorOf? (w.verify s) = Hurdle.inOrder.findSome? (·.failure? w s) := by
  have hafter : ∀ b, loadBoilerplate w s.boilerplateDir = .ok b →
      errorOf? ((requireReference b s.forcedKey).bind fun _ => (w.selection s b).bind fun paths =>
        (w.checkFiles (b.matcher s.anyYear) s.forcedKey paths).map fun results =>
          (⟨s.root, results⟩ : Report)) =
        (Hurdle.forcedKey.failure? w s).or
          ((Hurdle.walk.failure? w s).or (Hurdle.candidates.failure? w s)) := by
    intro b hload
    rw [← errorOf?_requireReference hload, ← errorOf?_selection w s b]
    refine errorOf?_bind fun _ hrequired => errorOf?_bind fun paths hpaths => ?_
    have hforced := requireReference_eq_ok_iff.1 hrequired
    rw [errorOf?_map, errorOf?_checkFiles fun p => contains_of_mem_selection hforced hpaths,
      eq_candidates_of_selection hload hpaths]
    rfl
  rw [verify]
  refine (errorOf?_bind hafter).trans ?_
  rw [errorOf?_loadBoilerplate]
  simp only [Hurdle.inOrder, findSome?_cons_eq_or, List.findSome?_nil, Option.or_none,
    Option.or_assoc]

/-- A tree with boilerplate in `b`, and in `c` the same with a preamble that is no text. Beside the
one file to check there is another under a skipped directory, or not. -/
def faultyTree (beside : Bool) : World where
  disk := {
    root := .dir "b".toList (.file "boilerplate.go.txt".toList [120] .empty) <|
      .dir "c".toList (.file "boilerplate.go.txt".toList [120] <|
        .file "boilerplate.go.preamble".toList [255] .empty) <|
      .dir "r".toList (.file "m.go".toList [121] <|
        if beside then .dir "vendor".toList (.file "x.go".toList [121] .empty) .empty
        else .empty) .empty
    wellFormed := by cases beside <;> decide +kernel }
  cwd := .on []
  git := none

end World

end HeaderCheck
