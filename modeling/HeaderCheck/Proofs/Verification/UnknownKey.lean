import HeaderCheck.Proofs.Verification.Stages

/-! A key without a reference can only be a forced one, and it ends a run before the run turns to
any file. To say so, the same run is made once more with notes of the candidates that it looks
for, selects and reads. -/

namespace HeaderCheck

inductive Note where
  | searched (root : Path)
  | selected (p : Path)
  | read (p : Path)
  deriving DecidableEq, Repr

/-- An outcome, and the notes taken until it was there. -/
structure Noted (α : Type) where
  notes : List Note
  outcome : Except Failure α

namespace Noted

variable {α β : Type}

/-- An outcome that took no candidate to find. -/
def unnoted (outcome : Except Failure α) : Noted α := ⟨[], outcome⟩

def bind (x : Noted α) (f : α → Noted β) : Noted β :=
  match x.outcome with
  | .error failure => ⟨x.notes, .error failure⟩
  | .ok a => ⟨x.notes ++ (f a).notes, (f a).outcome⟩

theorem outcome_bind (x : Noted α) (f : α → Noted β) :
    (x.bind f).outcome = x.outcome.bind fun a => (f a).outcome := by
  unfold bind
  cases h : x.outcome <;> rfl

theorem notes_bind_of_error {x : Noted α} {failure : Failure} (h : x.outcome = .error failure)
    (f : α → Noted β) : (x.bind f).notes = x.notes := by
  rw [bind, h]

theorem notes_bind_of_ok {x : Noted α} {a : α} (h : x.outcome = .ok a) (f : α → Noted β) :
    (x.bind f).notes = x.notes ++ (f a).notes := by
  rw [bind, h]

end Noted

namespace World

def selectNoted (w : World) (s : Settings) (b : Boilerplate) : Noted (List Path) where
  notes := .searched s.root :: match w.selection s b with
    | .ok paths => paths.map .selected
    | .error _ => []
  outcome := w.selection s b

def checkFileNoted (w : World) (m : Matcher) (forced : Option Key) (p : Path) :
    Noted FileResult :=
  ⟨[.read p], w.checkFile m forced p⟩

def checkFilesNoted (w : World) (m : Matcher) (forced : Option Key) :
    List Path → Noted (List FileResult)
  | [] => .unnoted (.ok [])
  | p :: more =>
    (w.checkFileNoted m forced p).bind fun result =>
      (w.checkFilesNoted m forced more).bind fun results => .unnoted (.ok (result :: results))

def verifyNoted (w : World) (s : Settings) : Noted Report :=
  (Noted.unnoted (loadBoilerplate w s.boilerplateDir)).bind fun b =>
    (Noted.unnoted (requireReference b s.forcedKey)).bind fun _ =>
      (w.selectNoted s b).bind fun paths =>
        (w.checkFilesNoted (b.matcher s.anyYear) s.forcedKey paths).bind fun results =>
          .unnoted (.ok ⟨s.root, results⟩)

variable {w : World} {s : Settings}

theorem outcome_checkFilesNoted (w : World) (m : Matcher) (forced : Option Key)
    (paths : List Path) :
    (w.checkFilesNoted m forced paths).outcome = w.checkFiles m forced paths := by
  induction paths with
  | nil => rfl
  | cons p more ih =>
    rw [checkFilesNoted, checkFiles, Noted.outcome_bind]
    congr 1
    funext result
    rw [Noted.outcome_bind, ih]
    cases w.checkFiles m forced more <;> rfl

/-- Taking notes changes nothing. -/
theorem outcome_verifyNoted (w : World) (s : Settings) :
    (w.verifyNoted s).outcome = w.verify s := by
  rw [verifyNoted, verify, Noted.outcome_bind]
  congr 1
  funext b
  rw [Noted.outcome_bind]
  congr 1
  funext _
  rw [Noted.outcome_bind]
  congr 1
  funext paths
  rw [Noted.outcome_bind, outcome_checkFilesNoted]
  cases w.checkFiles (b.matcher s.anyYear) s.forcedKey paths <;> rfl

/-- A run that stops at the forced key has not looked for any candidate. -/
theorem notes_verifyNoted_of_requireReference {b : Boilerplate} {failure : Failure}
    (hload : loadBoilerplate w s.boilerplateDir = .ok b)
    (hforced : requireReference b s.forcedKey = .error failure) :
    (w.verifyNoted s).notes = [] := by
  rw [verifyNoted, Noted.notes_bind_of_ok hload, Noted.notes_bind_of_error hforced]
  rfl

theorem requireReference_of_verify {key : Key} (h : w.verify s = .error (.unknownKey key)) :
    ∃ b, loadBoilerplate w s.boilerplateDir = .ok b ∧
      requireReference b s.forcedKey = .error (.unknownKey key) := by
  rcases verify_eq_error_iff.1 h with hload | ⟨b, hload, hforced | ⟨hforced, hlater⟩⟩
  · rcases loadBoilerplate_eq_error hload with hfailure | ⟨task, path, fault, hfailure⟩
    · cases hfailure
    · cases hfailure
  · exact ⟨b, hload, hforced⟩
  -- from here on every failure is one of the disk
  · rcases hlater with hselect | ⟨paths, hpaths, hcheck⟩
    · obtain ⟨-, path, fault, hfailure⟩ := selectFiles_eq_error hselect
      cases hfailure
    · have hknown := fun p hp =>
        contains_of_mem_selection (p := p) (requireReference_eq_ok_iff.1 hforced) hpaths hp
      obtain ⟨p, -, fault, hfailure⟩ := checkFiles_eq_error hknown hcheck
      cases hfailure

theorem verify_eq_error_unknownKey_iff {key : Key} : w.verify s = .error (.unknownKey key) ↔
    s.forcedKey = some key ∧
      ∃ b, loadBoilerplate w s.boilerplateDir = .ok b ∧ b.references.get? key = none := by
  refine ⟨fun h => ?_, fun h => ?_⟩
  · obtain ⟨b, hload, hforced⟩ := requireReference_of_verify h
    obtain ⟨forced, hkey, hnone, hfailure⟩ := requireReference_eq_error_iff.1 hforced
    cases hfailure
    exact ⟨hkey, b, hload, hnone⟩
  · obtain ⟨hkey, b, hload, hnone⟩ := h
    refine verify_eq_error_iff.2 (Or.inr ⟨b, hload, Or.inl ?_⟩)
    exact requireReference_eq_error_iff.2 ⟨key, hkey, hnone, rfl⟩

/-- There is a verdict on every selected file, whatever it holds. -/
theorem exists_verdict_of_mem_selection {b : Boilerplate} {paths : List Path} {p : Path}
    (hforced : ∀ key, s.forcedKey = some key → b.references.get? key ≠ none)
    (hpaths : w.selection s b = .ok paths) (hp : p ∈ paths) :
    ∃ reference, b.references.get? (p.keyUnder s.forcedKey) = some reference ∧
      ∀ contents, ∃ passed,
        (b.matcher s.anyYear).verdict contents (p.keyUnder s.forcedKey) = .ok passed := by
  have hcontains : ∀ key, s.forcedKey = some key → b.references.contains key = true :=
    fun key hkey => Option.isSome_iff_ne_none.2 (hforced key hkey)
  have hknown := contains_of_mem_selection hcontains hpaths hp
  obtain ⟨reference, hreference⟩ := Option.isSome_iff_exists.1 hknown
  exact ⟨reference, hreference, fun contents =>
    ⟨_, Boilerplate.verdict_of_reference hreference s.anyYear contents⟩⟩

/-- A run reports an unknown key just when the boilerplate is there and has no reference for the
forced key. It has then not looked for candidates, and would end so with any other files. In all
other cases the key of every selected file has a reference, and there is a verdict on whatever the
file holds. -/
theorem verify_eq_unknownKey_iff (w : World) (s : Settings) :
    (∀ key, w.verify s = .error (.unknownKey key) ↔
      s.forcedKey = some key ∧
        ∃ b, loadBoilerplate w s.boilerplateDir = .ok b ∧ b.references.get? key = none) ∧
    (w.verifyNoted s).outcome = w.verify s ∧
    (∀ key, w.verify s = .error (.unknownKey key) → (w.verifyNoted s).notes = [] ∧
      ∀ other : World,
        loadBoilerplate other s.boilerplateDir = loadBoilerplate w s.boilerplateDir →
          other.verify s = .error (.unknownKey key)) ∧
    ∀ b paths, loadBoilerplate w s.boilerplateDir = .ok b →
      (∀ key, s.forcedKey = some key → b.references.get? key ≠ none) →
      w.selection s b = .ok paths → ∀ p ∈ paths,
        ∃ reference, b.references.get? (p.keyUnder s.forcedKey) = some reference ∧
          ∀ contents, ∃ passed,
            (b.matcher s.anyYear).verdict contents (p.keyUnder s.forcedKey) = .ok passed := by
  refine ⟨fun key => verify_eq_error_unknownKey_iff, outcome_verifyNoted w s,
    fun key h => ⟨?_, fun other hsame => ?_⟩, fun b paths hload hforced hpaths p hp => ?_⟩
  · obtain ⟨b, hload, hforced⟩ := requireReference_of_verify h
    exact notes_verifyNoted_of_requireReference hload hforced
  · rw [verify_eq_error_unknownKey_iff, hsame]
    exact verify_eq_error_unknownKey_iff.1 h
  · exact exists_verdict_of_mem_selection hforced hpaths hp

/-- A tree with one reference, for the key `go`, and one file. -/
def oneFileTree : World where
  disk := {
    root := .dir "b".toList (.file "boilerplate.go.txt".toList [120] .empty)
      (.file "m.go".toList [120] .empty)
    wellFormed := by decide +kernel }
  cwd := .on []
  git := none

/-- Forcing `py` there ends the run before the file is looked for. Without a forced key the file is
selected, and its key has a reference. -/
theorem verify_oneFileTree :
    (oneFileTree.verify ⟨⟨['/']⟩, ⟨"/b".toList⟩, some "py".toList, [], false⟩ =
        .error (.unknownKey "py".toList) ∧
      (oneFileTree.verifyNoted ⟨⟨['/']⟩, ⟨"/b".toList⟩, some "py".toList, [], false⟩).notes = []) ∧
    (oneFileTree.selection ⟨⟨['/']⟩, ⟨"/b".toList⟩, none, [], false⟩
        ⟨⟨[("go".toList, [['x']])]⟩, ⟨[]⟩⟩ = .ok [⟨"/m.go".toList⟩] ∧
      ∃ passed, (Boilerplate.matcher ⟨⟨[("go".toList, [['x']])]⟩, ⟨[]⟩⟩ false).verdict ['x']
        (Path.keyUnder ⟨"/m.go".toList⟩ none) = .ok passed) := by
  have hforced : oneFileTree.verify ⟨⟨['/']⟩, ⟨"/b".toList⟩, some "py".toList, [], false⟩ =
      .error (.unknownKey "py".toList) := by decide +kernel
  have hload : loadBoilerplate oneFileTree ⟨"/b".toList⟩ =
      .ok ⟨⟨[("go".toList, [['x']])]⟩, ⟨[]⟩⟩ := by decide +kernel
  have hselected : oneFileTree.selection ⟨⟨['/']⟩, ⟨"/b".toList⟩, none, [], false⟩
      ⟨⟨[("go".toList, [['x']])]⟩, ⟨[]⟩⟩ = .ok [⟨"/m.go".toList⟩] := by decide +kernel
  refine ⟨⟨hforced, ?_⟩, hselected, ?_⟩
  · exact ((verify_eq_unknownKey_iff _ _).2.2.1 _ hforced).1
  · obtain ⟨reference, -, hverdict⟩ := (verify_eq_unknownKey_iff oneFileTree _).2.2.2 _ _ hload
      (fun key hkey => by cases hkey) hselected ⟨"/m.go".toList⟩ List.mem_cons_self
    exact hverdict ['x']

end World

end HeaderCheck
