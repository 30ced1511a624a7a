import HeaderCheck.Proofs.Disk.Stat

/-! A tree by what stands at each location in it, in whatever order its directories list it. In a
tree without links a way of names is looked up in the listings alone, so that what a path below the
tree names does not depend on where the tree is. -/

namespace HeaderCheck

/-- What a node shows without a look into the directory that it may be. -/
inductive Sight where
  | file (bytes : Bytes)
  | link (target : Path)
  | dir
  deriving DecidableEq, Repr

def Sight.isLink : Sight → Bool
  | .link _ => true
  | _ => false

namespace Node

def sight : Node → Sight
  | .file bytes => .file bytes
  | .link target => .link target
  | .dir _ => .dir

/-- At each location the same is seen. -/
def SameTree (a b : Node) : Prop := ∀ loc, (a.at? loc).map sight = (b.at? loc).map sight

def LinkFree (node : Node) : Prop := ∀ loc target, node.at? loc ≠ some (.link target)

/-- Looks up the names on a way, one in the directory that the one before it names. -/
def seek : Node → List Text → Except Fault Node
  | node, [] => .ok node
  | .dir inside, name :: more =>
    match inside.find? name with
    | none => .error .missing
    | some node => node.seek more
  | _, _ :: _ => .error .notDirectory

variable {a b node found : Node} {l m inside : Listing} {name : Text} {way : List Text}

theorem at?_dir_cons (inside : Listing) (name : Text) (way : List Text) :
    (dir inside).at? (name :: way) = (inside.find? name).bind fun node => node.at? way := rfl

/-- Another node than the directory itself is on a way that has names in it. -/
theorem way_ne_nil (h : (dir l).at? way = some found) (hdir : found.isDir = false) : way ≠ [] := by
  rintro rfl
  cases h
  cases hdir

theorem seek_eq_ok_iff : node.seek way = .ok found ↔ node.at? way = some found := by
  induction way generalizing node with
  | nil => simp [seek, at?]
  | cons name more ih =>
    cases node with
    | file bytes => simp [seek, at?]
    | link target => simp [seek, at?]
    | dir inside =>
      rw [seek, at?_dir_cons]
      cases inside.find? name with
      | none => simp
      | some next => exact ih

namespace LinkFree

theorem ne_link (h : node.LinkFree) (target : Path) : node ≠ .link target := by
  intro hlink
  apply h [] target
  rw [hlink]
  rfl

theorem of_find? (h : (dir inside).LinkFree) (hfind : inside.find? name = some node) :
    node.LinkFree := by
  intro loc target hlink
  apply h (name :: loc) target
  rw [at?_dir_cons, hfind]
  exact hlink

end LinkFree

namespace SameTree

theorem symm (h : a.SameTree b) : b.SameTree a := fun loc => (h loc).symm

theorem sight_eq (h : a.SameTree b) : a.sight = b.sight := Option.some.inj (h [])

theorem linkFree (h : a.SameTree b) (hfree : a.LinkFree) : b.LinkFree := by
  intro loc target hlink
  have hsame := h loc
  rw [hlink] at hsame
  obtain ⟨found, hfound, hsight⟩ := Option.map_eq_some_iff.1 hsame
  cases found with
  | file bytes => cases hsight
  | dir inside => cases hsight
  | link other => exact hfree loc other hfound

theorem exists_at? (h : a.SameTree b) {bytes : Bytes} (hfound : a.at? way = some (.file bytes)) :
    b.at? way = some (.file bytes) := by
  have hsame := h way
  rw [hfound] at hsame
  obtain ⟨found, hfound, hsight⟩ := Option.map_eq_some_iff.1 hsame.symm
  cases found with
  | file own =>
    cases hsight
    exact hfound
  | dir inside => cases hsight
  | link other => cases hsight

/-- Under one name the two directories hold the same tree, or both hold nothing. -/
theorem find?_cases (h : (dir l).SameTree (dir m)) (name : Text) :
    l.find? name = none ∧ m.find? name = none ∨
      ∃ x y, l.find? name = some x ∧ m.find? name = some y ∧ x.SameTree y := by
  have hbind : ∀ loc, ((l.find? name).bind fun node => node.at? loc).map sight =
      ((m.find? name).bind fun node => node.at? loc).map sight := fun loc => h (name :: loc)
  rcases hleft : l.find? name with _ | x <;> rcases hright : m.find? name with _ | y <;>
    simp only [hleft, hright] at hbind
  · exact Or.inl ⟨rfl, rfl⟩
  · cases hbind []
  · cases hbind []
  · exact Or.inr ⟨x, y, rfl, rfl, hbind⟩

/-- A way leads to the same tree in both, or fails alike in both. -/
theorem seek_cases (h : a.SameTree b) (way : List Text) :
    (∃ fault, a.seek way = .error fault ∧ b.seek way = .error fault) ∨
      ∃ x y, a.seek way = .ok x ∧ b.seek way = .ok y ∧ x.SameTree y := by
  induction way generalizing a b with
  | nil => exact Or.inr ⟨a, b, by simp [seek], by simp [seek], h⟩
  | cons name more ih =>
    have hsight := h.sight_eq
    cases a <;> cases b <;> cases hsight
    case cons.file.file.refl => exact Or.inl ⟨_, rfl, rfl⟩
    case cons.link.link.refl => exact Or.inl ⟨_, rfl, rfl⟩
    case cons.dir.dir.refl l m =>
      rw [seek, seek]
      rcases h.find?_cases name with ⟨hleft, hright⟩ | ⟨x, y, hleft, hright, hsame⟩
      · rw [hleft, hright]
        exact Or.inl ⟨_, rfl, rfl⟩
      · rw [hleft, hright]
        exact ih hsame

theorem map_sight_seek (h : a.SameTree b) (way : List Text) :
    (a.seek way).map sight = (b.seek way).map sight := by
  rcases h.seek_cases way with ⟨fault, hleft, hright⟩ | ⟨x, y, hleft, hright, hsame⟩
  · rw [hleft, hright]
  · rw [hleft, hright, Except.map, Except.map, hsame.sight_eq]

end SameTree

end Node

namespace Listing

variable {l m : Listing} {name : Text}

theorem mem_names_iff (hwf : l.WellFormed) :
    name ∈ l.names ↔ ∃ node, l.find? name = some node := by
  constructor
  · intro hmem
    obtain ⟨e, he, rfl⟩ := List.mem_map.1 hmem
    exact ⟨e.2, find?_of_mem hwf he⟩
  · rintro ⟨node, hfind⟩
    exact List.mem_map.2 ⟨(name, node), lookup_mem hfind, rfl⟩

/-- Directories that hold the same tree list the same names. -/
theorem names_perm (h : (Node.dir l).SameTree (.dir m)) (hl : l.WellFormed) (hm : m.WellFormed) :
    l.names.Perm m.names := by
  rw [List.perm_ext_iff_of_nodup (wellFormed_iff.1 hl).1 (wellFormed_iff.1 hm).1]
  intro name
  rw [mem_names_iff hl, mem_names_iff hm]
  rcases h.find?_cases name with ⟨hleft, hright⟩ | ⟨x, y, hleft, hright, -⟩ <;>
    simp [hleft, hright]

/-- All locations below the directory, each with what is seen there. -/
def places : Listing → List (Location × Sight)
  | empty => []
  | file name bytes rest => ([name], .file bytes) :: rest.places
  | link name target rest => ([name], .link target) :: rest.places
  | dir name inside rest =>
    ([name], .dir) :: inside.places.map (fun place => (name :: place.1, place.2)) ++ rest.places

theorem at?_cons_self (first : Node) (rest : Listing) (name : Text) (way : List Text) :
    (Node.dir (cons name first rest)).at? (name :: way) = first.at? way := by
  rw [Node.at?_dir_cons, find?, entries_cons, List.lookup_cons, beq_self_eq_true]
  rfl

theorem at?_cons_of_ne {other : Text} (h : other ≠ name) (first : Node) (rest : Listing)
    (way : List Text) :
    (Node.dir (cons name first rest)).at? (other :: way) = (Node.dir rest).at? (other :: way) := by
  rw [Node.at?_dir_cons, find?, entries_cons, List.lookup_cons, beq_false_of_ne h]
  rfl

theorem at?_of_notMem (hwf : l.WellFormed) (h : name ∉ l.names) (way : List Text) :
    (Node.dir l).at? (name :: way) = none := by
  rw [Node.at?_dir_cons]
  cases hfind : l.find? name with
  | none => rfl
  | some node => exact absurd ((mem_names_iff hwf).2 ⟨node, hfind⟩) h

/-- The places of an entry stand under its name, and no place of a later entry does. -/
theorem mem_append_places_iff (first : Node) (own : List (Location × Sight)) {rest : Listing}
    {loc : Location} {seen : Sight} (hwf : rest.WellFormed) (hfresh : name ∉ rest.names)
    (hown : (loc, seen) ∈ own ↔
      ∃ way, loc = name :: way ∧ (first.at? way).map Node.sight = some seen)
    (hrest : (loc, seen) ∈ rest.places ↔
      loc ≠ [] ∧ ((Node.dir rest).at? loc).map Node.sight = some seen) :
    (loc, seen) ∈ own ++ rest.places ↔
      loc ≠ [] ∧ ((Node.dir (cons name first rest)).at? loc).map Node.sight = some seen := by
  rw [List.mem_append, hown, hrest]
  cases loc with
  | nil => simp
  | cons other way =>
    by_cases hname : other = name
    · subst hname
      rw [at?_cons_self, at?_of_notMem hwf hfresh]
      simp
    · rw [at?_cons_of_ne hname]
      simp [hname]

theorem mem_places_iff {loc : Location} {seen : Sight} (hwf : l.WellFormed) :
    (loc, seen) ∈ l.places ↔
      loc ≠ [] ∧ ((Node.dir l).at? loc).map Node.sight = some seen := by
  induction l generalizing loc with
  | empty => cases loc <;> simp [places, Node.at?, find?, entries]
  | file name bytes rest ih =>
    obtain ⟨-, hfresh, hrest⟩ := hwf
    refine mem_append_places_iff (.file bytes) [([name], .file bytes)] hrest hfresh ?_ (ih hrest)
    rw [List.mem_singleton, Prod.mk.injEq]
    constructor
    · rintro ⟨rfl, rfl⟩
      exact ⟨[], rfl, rfl⟩
    · rintro ⟨way, rfl, hseen⟩
      cases way <;> cases hseen
      exact ⟨rfl, rfl⟩
  | link name target rest ih =>
    obtain ⟨-, hfresh, hrest⟩ := hwf
    refine mem_append_places_iff (.link target) [([name], .link target)] hrest hfresh ?_ (ih hrest)
    rw [List.mem_singleton, Prod.mk.injEq]
    constructor
    · rintro ⟨rfl, rfl⟩
      exact ⟨[], rfl, rfl⟩
    · rintro ⟨way, rfl, hseen⟩
      cases way <;> cases hseen
      exact ⟨rfl, rfl⟩
  | dir name inside rest ihInside ihRest =>
    obtain ⟨-, hfresh, hinside, hrest⟩ := hwf
    refine mem_append_places_iff (.dir inside) (([name], .dir) :: inside.places.map fun place =>
      (name :: place.1, place.2)) hrest hfresh ?_ (ihRest hrest)
    rw [List.mem_cons, List.mem_map, Prod.mk.injEq]
    constructor
    · rintro (⟨rfl, rfl⟩ | ⟨⟨way, own⟩, hway, hplace⟩)
      · exact ⟨[], rfl, rfl⟩
      · cases hplace
        exact ⟨way, rfl, ((ihInside hinside).1 hway).2⟩
    · rintro ⟨way, rfl, hseen⟩
      cases way with
      | nil =>
        cases hseen
        exact Or.inl ⟨rfl, rfl⟩
      | cons next more =>
        exact Or.inr ⟨(next :: more, seen),
          (ihInside hinside).2 ⟨List.cons_ne_nil next more, hseen⟩, rfl⟩

/-- So it can be computed whether two directories hold the same tree. -/
theorem sameTree_of_places (hl : l.WellFormed) (hm : m.WellFormed) (h : l.places.Perm m.places) :
    (Node.dir l).SameTree (.dir m) := by
  intro loc
  cases loc with
  | nil => rfl
  | cons name way =>
    have hsame : ∀ seen, ((Node.dir l).at? (name :: way)).map Node.sight = some seen ↔
        ((Node.dir m).at? (name :: way)).map Node.sight = some seen := by
      intro seen
      have hne := List.cons_ne_nil name way
      rw [← and_iff_right (b := _ = some seen) hne, ← mem_places_iff hl, h.mem_iff,
        mem_places_iff hm, and_iff_right hne]
    exact Option.ext hsame

theorem mem_places_of_at? {way : Location} {node : Node} (hwf : l.WellFormed) (hne : way ≠ [])
    (h : (Node.dir l).at? way = some node) : (way, node.sight) ∈ l.places := by
  rw [mem_places_iff hwf, h]
  exact ⟨hne, rfl⟩

theorem linkFree_of_places (hwf : l.WellFormed) (h : ∀ place ∈ l.places, place.2.isLink = false) :
    (Node.dir l).LinkFree := by
  intro way target hlink
  cases h _ (mem_places_of_at? hwf (Node.way_ne_nil hlink rfl) hlink)

end Listing

section Placed

variable {w v : World} {d : Disk} {root p q : Path} {here : Location} {node : Node}
  {way : List Text} {inside : Listing}

theorem Path.steps_below (hne : way ≠ []) (hway : ∀ name ∈ way, isName name = true)
    (p : Path) : (p.below way).steps = p.ways ++ way := by
  obtain rfl | ⟨front, name, rfl⟩ := List.eq_nil_or_concat way
  · exact absurd rfl hne
  · rw [List.concat_eq_append, List.forall_mem_append] at hway
    obtain ⟨hfront, hlast⟩ := hway
    have hname := hlast name List.mem_cons_self
    have hfilter : front.filter (· != []) = front := by
      rw [List.filter_eq_self]
      intro piece hpiece
      simpa using ne_nil_of_isName (hfront piece hpiece)
    rw [List.concat_eq_append, below_concat, steps_entry (ne_nil_of_isName hname)
      (slash_notMem_of_isName hname), ways_below (slash_notMem_of_forall_isName hfront), hfilter,
      List.append_assoc]

theorem Path.noNul_below (h : '\x00' ∉ p.text) (hway : ∀ name ∈ way, isName name = true) :
    '\x00' ∉ (p.below way).text := by
  induction way generalizing p with
  | nil => exact h
  | cons name more ih =>
    obtain ⟨hname, hmore⟩ := List.forall_mem_cons.1 hway
    exact ih (noNul_entry h hname) hmore

/-- What is at the standpoint, for one who has to find something there. -/
def Disk.seen (d : Disk) (place : Standpoint) : Except Fault Node :=
  match d.nodeAt? place with
  | some node => .ok node
  | none => .error .missing

/-- Where there is no link, names are looked up in the listings. -/
theorem Disk.walkSteps_seek {last : Bool}
    {follow : Location → Path → List Text → Except Fault Location}
    (hnode : d.node? here = some node) (hfree : node.LinkFree)
    (hway : ∀ name ∈ way, isName name = true) :
    ((d.walkSteps last follow here way).map .on).bind d.seen = node.seek way := by
  induction way generalizing here node with
  | nil =>
    have hseen : d.seen (.on here) = .ok node := by
      rw [seen, nodeAt?, Standpoint.location?_on]
      simp only [hnode]
    rw [Node.seek]
    exact hseen
  | cons name more ih =>
    obtain ⟨hname, hmore⟩ := List.forall_mem_cons.1 hway
    obtain ⟨-, hhere, hup, -, -, hsize⟩ := isName_iff.1 hname
    cases node with
    | file bytes => simp [walkSteps, hnode, Node.seek, Except.map, Except.bind]
    | link target => exact absurd rfl (hfree.ne_link target)
    | dir inside =>
      have hentry := node?_entry hnode name
      rcases hfind : inside.find? name with _ | next
      · rw [hfind] at hentry
        have hmissing : d.seen (.on (here ++ [name])) = .error .missing := by
          rw [seen, nodeAt?, Standpoint.location?_on]
          simp only [hentry]
        simp only [walkSteps, hnode, hhere, hup, Nat.not_lt.2 hsize, hfind, if_false, Node.seek]
        split_ifs
        · exact hmissing
        · rfl
      · rw [hfind] at hentry
        rw [walkSteps_into hnode hhere hup (Nat.not_lt.2 hsize) hfind
          (hfree.of_find? hfind).ne_link, ih hentry (hfree.of_find? hfind) hmore, Node.seek, hfind]

namespace World

/-- At the path stands the tree, and no path to a place in it is too long. -/
structure Holds (w : World) (root : Path) (tree : Node) : Prop where
  isAbsolute : root.isAbsolute = true
  stat : w.stat root = .ok tree
  short : ∀ way node, tree.at? way = some node → Utf8.size (root.below way).text < Disk.pathLimit

theorem Holds.isAbsolute_below (h : w.Holds root node) (hway : ∀ name ∈ way, isName name = true) :
    (root.below way).isAbsolute = true := by
  rw [Path.isAbsolute_below (usable_of_stat h.stat).ne_nil (slash_notMem_of_forall_isName hway)]
  exact h.isAbsolute

theorem Holds.isName_of_at? {found : Node} (h : w.Holds root (.dir inside))
    (hfound : (Node.dir inside).at? way = some found) : ∀ name ∈ way, isName name = true := by
  have hwf : (Node.dir inside).WellFormed := wellFormed_of_stat h.stat
  exact fun name => Disk.isName_of_at? hwf hfound

theorem Holds.of_places {l : Listing} (habs : root.isAbsolute = true)
    (hstat : w.stat root = .ok (.dir l))
    (h : ∀ place ∈ l.places, Utf8.size (root.below place.1).text < Disk.pathLimit) :
    w.Holds root (.dir l) where
  isAbsolute := habs
  stat := hstat
  short way node hnode := by
    by_cases hne : way = []
    · subst hne
      exact (usable_of_stat hstat).short
    · exact h _ (Listing.mem_places_of_at? (wellFormed_of_stat hstat) hne hnode)

/-- Below a tree without links a path names what the names on its way lead to in the tree. -/
theorem stat_below (h : w.Holds root node) (hfree : node.LinkFree) (hne : way ≠ [])
    (hway : ∀ name ∈ way, isName name = true)
    (hshort : Utf8.size (root.below way).text < Disk.pathLimit) :
    w.stat (root.below way) = node.seek way := by
  obtain ⟨husable, place, hplace, hnode⟩ := stat_eq_ok_iff.1 h.stat
  rw [Path.start_of_isAbsolute h.isAbsolute, Disk.reach_on] at hplace
  obtain ⟨loc, hloc, rfl⟩ := map_eq_ok_iff.1 hplace
  replace hnode : w.disk.node? loc = some node := hnode
  have hbelow : (root.below way).Usable :=
    ⟨Path.below_ne_nil husable.ne_nil (slash_notMem_of_forall_isName hway),
      Path.noNul_below husable.noNul hway, hshort⟩
  -- first the steps to the root, with the links on the way, then the names
  have hreached : w.disk.reach true (.on []) root.steps = .ok (.on loc) := by
    rw [Disk.reach_on, hloc]
    rfl
  obtain ⟨left, hleft⟩ := Disk.reach_append hreached (by rw [hnode]; rfl)
  have hreach : w.disk.reach true (.on []) (root.below way).steps =
      (w.disk.resolveWithin true left loc way).map .on := by
    rw [Path.steps_below hne hway, Disk.reach_ways_append hne, hleft true way hne]
  have hstat : w.stat (root.below way) =
      (w.disk.resolve true w.cwd (root.below way)).bind w.disk.seen := rfl
  rw [hstat, Disk.resolve_of_usable hbelow, Path.start_of_isAbsolute (h.isAbsolute_below hway),
    hreach, Disk.resolveWithin_eq, Disk.walkSteps_seek hnode hfree hway]

theorem readText_congr (h : (w.stat p).map Node.sight = (v.stat q).map Node.sight) :
    w.readText p = v.readText q := by
  have hbytes : w.readBytes p = v.readBytes q := by
    unfold readBytes
    rcases hp : w.stat p with fault | (bytes | target | inside) <;>
      rcases hq : v.stat q with other | (own | link | l) <;> simp only [hp, hq] at h <;> cases h <;>
      rfl
  rw [readText, readText, hbytes]

end World

end Placed

end HeaderCheck
