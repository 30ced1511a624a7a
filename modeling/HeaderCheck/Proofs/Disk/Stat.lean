import HeaderCheck.Proofs.Disk.Resolve
import HeaderCheck.Proofs.Outcome
import HeaderCheck.World

/-! What a path names for one who stands somewhere. The steps are taken from the root or from there,
first out of directories that have been removed and then on the disk. The path of an entry leads to
the entry: the steps to a directory end where the directory is, and one step more ends at what its
listing has under the name. -/

namespace HeaderCheck

namespace Path

/-- Where the steps of the path start for one who stands at `here`. -/
def start (p : Path) (here : Standpoint) : Standpoint := if p.isAbsolute then .on [] else here

/-- A text that can be looked up as a path at all. -/
structure Usable (p : Path) : Prop where
  ne_nil : p.text ≠ []
  noNul : '\x00' ∉ p.text
  short : Utf8.size p.text < Disk.pathLimit

theorem start_of_isAbsolute {p : Path} (hp : p.isAbsolute = true) (here : Standpoint) :
    p.start here = .on [] := by
  rw [start, if_pos hp]

theorem noNul_entry {p : Path} {name : Text} (h : '\x00' ∉ p.text) (hname : isName name = true) :
    '\x00' ∉ (p.entry name).text := by
  obtain ⟨-, -, -, hslash, hnul, -⟩ := isName_iff.1 hname
  rw [text_entry hslash, List.mem_append, not_or]
  exact ⟨fun hc => (mem_stem hc).elim h (by decide), hnul⟩

theorem text_entry_ne_nil {name : Text} (hne : name ≠ []) (h : '/' ∉ name) (p : Path) :
    (p.entry name).text ≠ [] := by
  rw [text_entry h]
  exact List.append_ne_nil_of_right_ne_nil _ hne

end Path

namespace Standpoint

variable {here reached : Standpoint} {steps left : List Text}

theorem eq_on_of_location? {loc : Location} (h : here.location? = some loc) : here = .on loc := by
  obtain ⟨base, lost⟩ := here
  by_cases hlost : lost = 0
  · subst hlost
    cases h
    rfl
  · simp [location?, hlost] at h

/-- Further steps are taken from where the climb has ended. -/
theorem climb_append (h : here.climb steps = .ok (reached, left)) (more : List Text) :
    here.climb (steps ++ more) = reached.climb (left ++ more) := by
  induction steps generalizing here with
  | nil =>
    obtain ⟨base, lost⟩ := here
    cases lost <;> · cases h; rfl
  | cons step steps ih =>
    obtain ⟨base, _ | lost⟩ := here
    · cases h
      rfl
    · rw [List.cons_append, climb]
      rw [climb] at h
      split_ifs at h ⊢
      · exact ih h
      · exact ih h

end Standpoint

namespace Disk

variable {d : Disk} {last : Bool} {here place : Standpoint} {loc : Location} {inside : Listing}
  {steps more : List Text} {p dir : Path} {name : Text} {node : Node}

/-- Takes the steps from a standpoint. -/
def reach (d : Disk) (last : Bool) (here : Standpoint) (steps : List Text) :
    Except Fault Standpoint :=
  (here.climb steps).bind fun (reached, left) =>
    match reached.location? with
    | some loc => (d.resolveWithin last maxLinks loc left).map .on
    | none => .ok reached

theorem reach_on (d : Disk) (last : Bool) (loc : Location) (steps : List Text) :
    d.reach last (.on loc) steps = (d.resolveWithin last maxLinks loc steps).map .on := by
  rw [reach, Standpoint.climb_on]
  rfl

/-- Of a usable path only the steps matter. -/
theorem resolve_of_usable (h : p.Usable) :
    d.resolve last here p = d.reach last (p.start here) p.steps := by
  rw [resolve, if_neg (by simpa using h.noNul), if_neg h.ne_nil, if_neg (Nat.not_le.2 h.short)]
  rfl

theorem resolve_eq_ok_iff : d.resolve last here p = .ok place ↔
    p.Usable ∧ d.reach last (p.start here) p.steps = .ok place := by
  by_cases husable : p.Usable
  · rw [resolve_of_usable husable, and_iff_right husable]
  rw [resolve]
  by_cases hnul : '\x00' ∈ p.text
  · simp [hnul, husable]
  by_cases hne : p.text = []
  · simp [hne, husable]
  by_cases hlong : pathLimit ≤ Utf8.size p.text
  · simp [hnul, hne, hlong, husable]
  · exact absurd ⟨hne, hnul, Nat.not_le.1 hlong⟩ husable

/-- A step to the directory itself changes nothing where more steps come. -/
theorem reach_append_here (hmore : more ≠ []) (here : Standpoint) (steps : List Text) :
    d.reach last here (steps ++ ['.'] :: more) = d.reach last here (steps ++ more) := by
  induction steps generalizing here with
  | nil =>
    obtain ⟨base, _ | lost⟩ := here
    · have h : d.resolveWithin last maxLinks base (['.'] :: more) =
          d.resolveWithin last maxLinks base more :=
        resolveWithin_append_here maxLinks base [] hmore
      exact (reach_on d last base _).trans ((congrArg _ h).trans (reach_on d last base _).symm)
    · simp [reach, Standpoint.climb]
  | cons step steps ih =>
    obtain ⟨base, _ | lost⟩ := here
    · have h : d.resolveWithin last maxLinks base (step :: steps ++ ['.'] :: more) =
          d.resolveWithin last maxLinks base (step :: steps ++ more) :=
        resolveWithin_append_here maxLinks base (step :: steps) hmore
      exact (reach_on d last base _).trans ((congrArg _ h).trans (reach_on d last base _).symm)
    · simp only [reach, List.cons_append, Standpoint.climb] at ih ⊢
      split_ifs
      · exact ih ⟨base, lost + 1⟩
      · exact ih ⟨base, lost⟩
      · rfl

/-- A directory that a separator at the end asks for is asked for by any further step. -/
theorem reach_ways_append (hmore : more ≠ []) :
    d.reach last here (dir.ways ++ more) = d.reach last here (dir.steps ++ more) := by
  rcases dir.steps_eq with hsteps | hsteps
  · rw [hsteps]
  · rw [hsteps, List.append_assoc, List.singleton_append, reach_append_here hmore]

/-- How steps lead to a place on the disk: up and out of what has been removed, if need be, and then
on the disk. -/
theorem reach_eq_ok_on (h : d.reach last here steps = .ok (.on loc)) :
    ∃ base left, here.climb steps = .ok (.on base, left) ∧
      d.resolveWithin last maxLinks base left = .ok loc := by
  obtain ⟨⟨reached, left⟩, hclimb, h⟩ := bind_eq_ok_iff.1 h
  cases hreached : reached.location? with
  | none =>
    simp only [hreached] at h
    cases h
    cases hreached
  | some base =>
    cases Standpoint.eq_on_of_location? hreached
    obtain ⟨found, hfound, hloc⟩ := map_eq_ok_iff.1 h
    cases hloc
    exact ⟨base, left, hclimb, hfound⟩

theorem reach_of_climb {base : Location} {left : List Text}
    (hclimb : here.climb steps = .ok (.on base, left)) (more : List Text) :
    d.reach last here (steps ++ more) =
      (d.resolveWithin last maxLinks base (left ++ more)).map .on := by
  rw [reach, Standpoint.climb_append hclimb, Standpoint.climb_on]
  rfl

/-- Steps that lead to something can be taken first, and further ones from there. -/
theorem reach_append (h : d.reach true here steps = .ok (.on loc)) (hloc : (d.node? loc).isSome) :
    ∃ left, ∀ last more, more ≠ [] →
      d.reach last here (steps ++ more) = (d.resolveWithin last left loc more).map .on := by
  obtain ⟨base, rest, hclimb, hrest⟩ := reach_eq_ok_on h
  obtain ⟨left, hleft⟩ := resolveWithin_append hrest hloc
  refine ⟨left, fun last more hmore => ?_⟩
  rw [reach_of_climb hclimb, hleft last more hmore]

/-- Where an entry is found, the directory is on the disk. -/
theorem eq_on_of_find? (hplace : d.nodeAt? place = some (.dir inside))
    (hfind : inside.find? name = some node) :
    ∃ loc, place = .on loc ∧ d.node? loc = some (.dir inside) := by
  rw [nodeAt?] at hplace
  cases hlocation : place.location? with
  | none =>
    simp only [hlocation] at hplace
    cases hplace
    cases hfind
  | some loc =>
    simp only [hlocation] at hplace
    exact ⟨loc, Standpoint.eq_on_of_location? hlocation, hplace⟩

/-- The way to an entry of a directory. -/
theorem reach_entry (h : d.reach true here dir.steps = .ok (.on loc))
    (hloc : d.node? loc = some (.dir inside)) (hname : isName name = true)
    (hfind : inside.find? name = some node) (hlast : ∀ target, node = .link target → last = false) :
    d.reach last here (dir.entry name).steps = .ok (.on (loc ++ [name])) := by
  obtain ⟨hne, -, -, hslash, -⟩ := isName_iff.1 hname
  obtain ⟨left, hleft⟩ := reach_append h (by rw [hloc]; rfl)
  have hgo : d.reach last here (dir.steps ++ [name]) = .ok (.on (loc ++ [name])) := by
    rw [hleft last [name] (List.cons_ne_nil name []),
      resolveWithin_name left hloc hname hfind hlast]
    rfl
  rw [Path.steps_entry hne hslash, reach_ways_append (List.cons_ne_nil name [])]
  exact hgo

/-- Whether links are followed at its end makes no difference to a way that ends at none. -/
theorem reach_of_ne_link (h : d.reach false here steps = .ok place)
    (hplace : ∀ target, d.nodeAt? place ≠ some (.link target)) :
    d.reach true here steps = .ok place := by
  obtain ⟨⟨reached, left⟩, hclimb, h⟩ := bind_eq_ok_iff.1 h
  refine bind_eq_ok_iff.2 ⟨(reached, left), hclimb, ?_⟩
  cases hreached : reached.location? with
  | none => simpa only [hreached] using h
  | some base =>
    simp only [hreached] at h ⊢
    obtain ⟨loc, hloc, rfl⟩ := map_eq_ok_iff.1 h
    exact map_eq_ok_iff.2 ⟨loc, resolveWithin_of_ne_link hloc hplace, rfl⟩

theorem exists_reach_of_follow (h : d.reach true here steps = .ok place)
    (hplace : (d.nodeAt? place).isSome) :
    ∃ other, d.reach false here steps = .ok other ∧ (d.nodeAt? other).isSome := by
  obtain ⟨⟨reached, left⟩, hclimb, h⟩ := bind_eq_ok_iff.1 h
  cases hreached : reached.location? with
  | none =>
    refine ⟨place, bind_eq_ok_iff.2 ⟨(reached, left), hclimb, ?_⟩, hplace⟩
    simpa only [hreached] using h
  | some base =>
    simp only [hreached] at h
    obtain ⟨loc, hloc, rfl⟩ := map_eq_ok_iff.1 h
    obtain ⟨other, hother, hfound⟩ := exists_resolveWithin_of_follow hloc hplace
    refine ⟨.on other, bind_eq_ok_iff.2 ⟨(reached, left), hclimb, ?_⟩, hfound⟩
    simp only [hreached]
    exact map_eq_ok_iff.2 ⟨other, hother, rfl⟩

theorem node_eq_ok_iff :
    ((d.resolve last here p).bind fun place =>
        match d.nodeAt? place with
        | some found => .ok found
        | none => .error .missing) = .ok node ↔
      p.Usable ∧ ∃ place, d.reach last (p.start here) p.steps = .ok place ∧
        d.nodeAt? place = some node := by
  have hfound : ∀ place, (match d.nodeAt? place with
      | some found => Except.ok found
      | none => .error Fault.missing) = .ok node ↔ d.nodeAt? place = some node := by
    intro place
    cases d.nodeAt? place <;> simp
  simp only [bind_eq_ok_iff, resolve_eq_ok_iff, hfound]
  grind

end Disk

namespace World

variable {w : World} {p dir : Path} {node : Node} {inside : Listing} {name : Text}

theorem stat_eq_ok_iff : w.stat p = .ok node ↔
    p.Usable ∧ ∃ place, w.disk.reach true (p.start w.cwd) p.steps = .ok place ∧
      w.disk.nodeAt? place = some node :=
  Disk.node_eq_ok_iff

theorem linkStat_eq_ok_iff : w.linkStat p = .ok node ↔
    p.Usable ∧ ∃ place, w.disk.reach false (p.start w.cwd) p.steps = .ok place ∧
      w.disk.nodeAt? place = some node :=
  Disk.node_eq_ok_iff

theorem usable_of_stat (h : w.stat p = .ok node) : p.Usable :=
  (stat_eq_ok_iff.1 h).1

theorem stat_ne_link (hp : p.isAbsolute = true) (target : Path) :
    w.stat p ≠ .ok (.link target) := by
  intro h
  obtain ⟨-, place, hplace, hnode⟩ := stat_eq_ok_iff.1 h
  rw [Path.start_of_isAbsolute hp, Disk.reach_on] at hplace
  obtain ⟨loc, hloc, rfl⟩ := map_eq_ok_iff.1 hplace
  refine Disk.node?_resolveWithin_ne_link hloc (fun _ => ?_) target hnode
  simp [Disk.node?, Node.at?]

/-- Only links are followed. -/
theorem stat_of_linkStat (h : w.linkStat p = .ok node) (hnode : ∀ target, node ≠ .link target) :
    w.stat p = .ok node := by
  obtain ⟨husable, place, hplace, hfound⟩ := linkStat_eq_ok_iff.1 h
  refine stat_eq_ok_iff.2 ⟨husable, place, Disk.reach_of_ne_link hplace ?_, hfound⟩
  intro target heq
  exact hnode target (Option.some.inj (hfound.symm.trans heq))

theorem wellFormed_of_stat (h : w.stat p = .ok (.dir inside)) : inside.WellFormed := by
  obtain ⟨-, place, -, hnode⟩ := stat_eq_ok_iff.1 h
  rw [Disk.nodeAt?] at hnode
  cases hlocation : place.location? with
  | none =>
    simp only [hlocation] at hnode
    cases hnode
    trivial
  | some loc =>
    simp only [hlocation] at hnode
    exact Disk.wellFormed_of_node? hnode

/-- The way to an entry of a directory that a path names. -/
theorem reach_entry_of_stat {last : Bool} (h : w.stat dir = .ok (.dir inside))
    (hmem : (name, node) ∈ inside.entries) (hlast : ∀ target, node = .link target → last = false) :
    ∃ loc, w.disk.reach last ((dir.entry name).start w.cwd) (dir.entry name).steps =
        .ok (.on (loc ++ [name])) ∧
      w.disk.node? (loc ++ [name]) = some node := by
  obtain ⟨husable, place, hplace, hnode⟩ := stat_eq_ok_iff.1 h
  have hwf := wellFormed_of_stat h
  have hname := hwf.isName_of_mem hmem
  have hfind := Listing.find?_of_mem hwf hmem
  obtain ⟨loc, rfl, hloc⟩ := Disk.eq_on_of_find? hnode hfind
  refine ⟨loc, ?_, by rw [Disk.node?_entry hloc, hfind]⟩
  rw [Path.start, Path.isAbsolute_entry_eq husable.ne_nil (slash_notMem_of_isName hname)]
  exact Disk.reach_entry hplace hloc hname hfind hlast

/-- At the path of an entry stands what the listing has under the name. -/
theorem linkStat_entry (h : w.stat dir = .ok (.dir inside)) (hmem : (name, node) ∈ inside.entries)
    (hsize : Utf8.size (dir.entry name).text < Disk.pathLimit) :
    w.linkStat (dir.entry name) = .ok node := by
  have hname := (wellFormed_of_stat h).isName_of_mem hmem
  obtain ⟨loc, hreach, hfound⟩ := reach_entry_of_stat h hmem fun _ _ => rfl
  refine linkStat_eq_ok_iff.2 ⟨⟨?_, ?_, hsize⟩, .on (loc ++ [name]), hreach, hfound⟩
  · exact Path.text_entry_ne_nil (ne_nil_of_isName hname) (slash_notMem_of_isName hname) dir
  · exact Path.noNul_entry (usable_of_stat h).noNul hname

/-- Where a path names something, something stands at the path itself, be it a link. -/
theorem exists_linkStat_of_stat (h : w.stat p = .ok node) : ∃ found, w.linkStat p = .ok found := by
  obtain ⟨husable, place, hplace, hnode⟩ := stat_eq_ok_iff.1 h
  obtain ⟨other, hother, hfound⟩ := Disk.exists_reach_of_follow hplace (by rw [hnode]; rfl)
  obtain ⟨found, hfound⟩ := Option.isSome_iff_exists.1 hfound
  exact ⟨found, linkStat_eq_ok_iff.2 ⟨husable, other, hother, hfound⟩⟩

theorem readBytes_eq_ok_iff {bytes : Bytes} :
    w.readBytes p = .ok bytes ↔ w.stat p = .ok (.file bytes) := by
  rw [readBytes, bind_eq_ok_iff]
  refine ⟨?_, ?_⟩
  · intro h
    obtain ⟨node, hstat, hnode⟩ := h
    cases node with
    | file own =>
      cases hnode
      exact hstat
    | link target => cases hnode
    | dir inside => cases hnode
  · exact fun hstat => ⟨.file bytes, hstat, rfl⟩

theorem readText_eq_ok_iff {text : Text} : w.readText p = .ok text ↔
    ∃ bytes, w.stat p = .ok (.file bytes) ∧ Utf8.decode? bytes = some text := by
  simp only [readText, bind_eq_ok_iff, readBytes_eq_ok_iff]
  refine exists_congr fun bytes => and_congr_right fun _ => ?_
  cases Utf8.decode? bytes <;> simp

section Standing

variable {loc : Location} {q : Path}

theorem usable_join_iff (hloc : w.disk.node? loc = some (.dir inside)) (hq : q.isAbsolute = false)
    (hne : q.text ≠ []) (hshort : Utf8.size (loc.path.join q).text < Disk.pathLimit) :
    (loc.path.join q).Usable ↔ q.Usable := by
  have htext := Path.text_join hq loc.path
  have hpath : '\x00' ∉ loc.path.text := by
    intro hmem
    rcases List.mem_cons.1 hmem with hc | hmem
    · cases hc
    rcases Text.mem_joined hmem with hc | ⟨name, hname, hmem⟩
    · cases hc
    · obtain ⟨-, -, -, -, hnul, -⟩ := isName_iff.1 (Disk.isName_of_node? hloc hname)
      exact hnul hmem
  refine ⟨fun h => ⟨hne, fun hmem => h.noNul ?_, ?_⟩, fun h => ⟨?_, fun hmem => ?_, hshort⟩⟩
  · rw [htext]
    exact List.mem_append_right _ hmem
  · rw [htext, Utf8.size_append] at hshort
    omega
  · rw [htext]
    exact List.append_ne_nil_of_right_ne_nil _ hne
  · rw [htext] at hmem
    rcases List.mem_append.1 hmem with hmem | hmem
    · exact (Path.mem_stem hmem).elim hpath (by decide)
    · exact h.noNul hmem

/-- For one who stands in a directory, a relative path names what it names behind the path of the
directory. -/
theorem stat_join_iff (hcwd : w.cwd = .on loc) (hloc : w.disk.node? loc = some (.dir inside))
    (hq : q.isAbsolute = false) (hne : q.text ≠ [])
    (hshort : Utf8.size (loc.path.join q).text < Disk.pathLimit) :
    w.stat (loc.path.join q) = .ok node ↔ w.stat q = .ok node := by
  have hpath : loc.path.text ≠ [] := List.cons_ne_nil _ _
  have habs : (loc.path.join q).isAbsolute = true := Path.isAbsolute_join hpath hq
  have hways := Location.ways_path fun name => Disk.isName_of_node? hloc
  have hreach : w.disk.reach true (.on []) (loc.path.join q).steps =
      w.disk.reach true (.on loc) q.steps := by
    rw [Path.steps_join hq hne, hways, Disk.reach_on, Disk.reach_on, Disk.resolveWithin_eq,
      Disk.walkSteps_location [] hloc, List.nil_append]
  rw [stat_eq_ok_iff, stat_eq_ok_iff, usable_join_iff hloc hq hne hshort,
    Path.start_of_isAbsolute habs, hreach, Path.start, hq, if_neg Bool.false_ne_true, hcwd]

end Standing

end World

end HeaderCheck
