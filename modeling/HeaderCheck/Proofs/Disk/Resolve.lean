import HeaderCheck.Disk.Edit
import HeaderCheck.Disk.Resolve
import HeaderCheck.Proofs.Path.Below

/-! The steps of a path, taken on the disk. Steps that lead to something can be taken first, with
all the links on the way, and further ones from there. -/

namespace HeaderCheck

namespace Path

/-- The names on the way that a path describes. -/
def ways (p : Path) : List Text := (Text.pieces '/' p.text).filter (· != [])

theorem steps_eq_ite (p : Path) : p.steps =
    if p.text.getLast? = some '/' ∧ p.ways ≠ [] then p.ways ++ [['.']] else p.ways := rfl

theorem steps_eq (p : Path) : p.steps = p.ways ∨ p.steps = p.ways ++ [['.']] := by
  rw [steps_eq_ite]
  split_ifs
  · exact Or.inr rfl
  · exact Or.inl rfl

theorem ways_join {q : Path} (hq : q.isAbsolute = false) (p : Path) :
    (p.join q).ways = p.ways ++ q.ways := by
  rw [ways, ways, ways, text_join hq, stem]
  split_ifs with hstem
  · rcases hstem with hnil | hlast
    · simp [hnil, Text.pieces]
    · obtain ⟨front, hfront⟩ := List.getLast?_eq_some_iff.1 hlast
      rw [hfront, List.append_assoc, List.singleton_append, Text.pieces_append_sep,
        Text.pieces_append_sep]
      simp [Text.pieces]
  · rw [List.append_assoc, List.singleton_append, Text.pieces_append_sep, List.filter_append]

/-- The way to an entry is that to its directory and one name more, if it is one. -/
theorem ways_entry {name : Text} (h : '/' ∉ name) (p : Path) :
    (p.entry name).ways = p.ways ++ [name].filter (· != []) := by
  rw [entry, ways_join (isAbsolute_of_no_slash h), ways, ways, Text.pieces_of_not_mem h]

theorem ways_below {pieces : List Text} (hpieces : ∀ piece ∈ pieces, '/' ∉ piece) (seen : Path) :
    (seen.below pieces).ways = seen.ways ++ pieces.filter (· != []) := by
  induction pieces generalizing seen with
  | nil => simp
  | cons piece more ih =>
    obtain ⟨hpiece, hmore⟩ := List.forall_mem_cons.1 hpieces
    rw [below_cons, ih hmore, ways_entry hpiece, List.append_assoc, ← List.filter_append,
      List.singleton_append]

theorem ways_ne_nil {p : Path} (hp : p.isAbsolute = false) (hne : p.text ≠ []) : p.ways ≠ [] := by
  obtain ⟨c, t, ht⟩ := List.exists_cons_of_ne_nil hne
  have hc : c ≠ '/' := by simpa [isAbsolute, ht] using hp
  rw [ways, ht, Text.pieces, if_neg hc]
  cases Text.pieces '/' t <;> simp

theorem steps_join {q : Path} (hq : q.isAbsolute = false) (hne : q.text ≠ []) (p : Path) :
    (p.join q).steps = p.ways ++ q.steps := by
  have hways := ways_ne_nil hq hne
  have hjoined : p.ways ++ q.ways ≠ [] := List.append_ne_nil_of_right_ne_nil _ hways
  rw [steps_eq_ite, steps_eq_ite, ways_join hq, text_join hq,
    List.getLast?_append_of_ne_nil _ hne]
  simp only [ne_eq, hways, hjoined, not_false_eq_true, and_true]
  split_ifs <;> simp

theorem getLast?_entry {name : Text} (hne : name ≠ []) (h : '/' ∉ name) (p : Path) :
    (p.entry name).text.getLast? ≠ some '/' := by
  rw [text_entry h, List.getLast?_append_of_ne_nil _ hne]
  exact fun hl => h (List.mem_of_getLast? hl)

/-- The steps to an entry are those to its directory and one more. -/
theorem steps_entry {name : Text} (hne : name ≠ []) (h : '/' ∉ name) (p : Path) :
    (p.entry name).steps = p.ways ++ [name] := by
  rw [steps_eq_ite, if_neg fun hs => getLast?_entry hne h p hs.1, ways_entry h]
  simp [hne]

end Path

theorem Location.ways_path {loc : Location} (h : ∀ name ∈ loc, isName name = true) :
    loc.path.ways = loc := by
  have hfilter : loc.filter (· != []) = loc :=
    List.filter_eq_self.2 fun name hname => by simpa using ne_nil_of_isName (h name hname)
  rw [path, Path.ways, Text.pieces, if_pos rfl]
  cases loc with
  | nil => rfl
  | cons name more =>
    rw [Text.pieces_joined (slash_notMem_of_forall_isName h) (List.cons_ne_nil _ _),
      List.filter_cons_of_neg (by simp), hfilter]

namespace Disk

variable {d : Disk} {here loc : Location} {inside : Listing}

theorem node?_append (d : Disk) (here more : Location) :
    d.node? (here ++ more) = (d.node? here).bind fun found => found.at? more :=
  Node.at?_append _ here more

theorem node?_entry (h : d.node? here = some (.dir inside)) (name : Text) :
    d.node? (here ++ [name]) = inside.find? name := by
  rw [node?_append, h, Option.bind_some, Node.at?]
  cases inside.find? name <;> rfl

theorem wellFormed_at? {node found : Node} (h : node.WellFormed)
    (hfound : node.at? loc = some found) : found.WellFormed := by
  induction loc generalizing node with
  | nil =>
    cases hfound
    exact h
  | cons name more ih =>
    cases node with
    | dir inside =>
      obtain ⟨next, hnext, hmore⟩ := Option.bind_eq_some_iff.1 hfound
      have hwf : inside.WellFormed := h
      exact ih (hwf.node_of_mem (Listing.lookup_mem hnext)) hmore
    | file bytes => cases hfound
    | link target => cases hfound

theorem wellFormed_of_node? (h : d.node? loc = some (.dir inside)) : inside.WellFormed := by
  have hroot : (Node.dir d.root).WellFormed := d.wellFormed
  exact wellFormed_at? hroot h

/-- What becomes of a link when so many more may be followed. -/
def followWithin (d : Disk) (last : Bool) :
    ℕ → Location → Path → List Text → Except Fault Location
  | 0, _, _, _ => .error .linkLoop
  | links + 1, here, target, more =>
    d.resolveWithin last links (target.origin here) (target.steps ++ more)

theorem resolveWithin_eq (d : Disk) (last : Bool) (links : ℕ) :
    d.resolveWithin last links = d.walkSteps last (d.followWithin last links) := by
  cases links <;> rfl

section Here

variable {last : Bool} {more : List Text}

theorem walkSteps_append_here {follow : Location → Path → List Text → Except Fault Location}
    (hmore : more ≠ []) (hfollow : ∀ here target steps,
      follow here target (steps ++ ['.'] :: more) = follow here target (steps ++ more))
    (here : Location) (steps : List Text) :
    d.walkSteps last follow here (steps ++ ['.'] :: more) =
      d.walkSteps last follow here (steps ++ more) := by
  induction steps generalizing here with
  | nil =>
    obtain ⟨step, more, rfl⟩ := List.exists_cons_of_ne_nil hmore
    rw [List.nil_append, List.nil_append, walkSteps]
    rcases hnode : d.node? here with _ | (bytes | target | inside)
    · simp [walkSteps, hnode]
    · simp [walkSteps, hnode]
    · simp [walkSteps, hnode]
    · simp
  | cons step steps ih =>
    have hleft : steps ++ ['.'] :: more ≠ [] := by simp
    have hright : steps ++ more ≠ [] := by simp [hmore]
    simp only [List.cons_append, walkSteps, hleft, hright, false_and, if_false, ih, hfollow]

/-- A step to the directory itself changes nothing where more steps come. -/
theorem resolveWithin_append_here (links : ℕ) (here : Location) (steps : List Text)
    (hmore : more ≠ []) : d.resolveWithin last links here (steps ++ ['.'] :: more) =
      d.resolveWithin last links here (steps ++ more) := by
  induction links generalizing here steps with
  | zero =>
    rw [resolveWithin_eq]
    exact walkSteps_append_here hmore (fun _ _ _ => rfl) here steps
  | succ links ih =>
    rw [resolveWithin_eq]
    refine walkSteps_append_here hmore (fun here target steps => ?_) here steps
    rw [followWithin, followWithin, ← List.append_assoc, ih, List.append_assoc]

end Here

section Step

variable {last : Bool} {step : Text} {more : List Text}
  {follow : Location → Path → List Text → Except Fault Location}

theorem walkSteps_here (h : d.node? here = some (.dir inside)) :
    d.walkSteps last follow here (['.'] :: more) = d.walkSteps last follow here more := by
  simp [walkSteps, h]

theorem walkSteps_up (h : d.node? here = some (.dir inside)) :
    d.walkSteps last follow here (['.', '.'] :: more) =
      d.walkSteps last follow here.dropLast more := by
  simp [walkSteps, h]

/-- A step that names an entry goes into it, unless the entry is a link. -/
theorem walkSteps_into {node : Node} (h : d.node? here = some (.dir inside)) (hhere : step ≠ ['.'])
    (hup : step ≠ ['.', '.']) (hlong : ¬ 255 < Utf8.size step)
    (hfind : inside.find? step = some node) (hlink : ∀ target, node ≠ .link target) :
    d.walkSteps last follow here (step :: more) =
      d.walkSteps last follow (here ++ [step]) more := by
  cases node with
  | link target => exact absurd rfl (hlink target)
  | file bytes => simp [walkSteps, h, hhere, hup, hlong, hfind]
  | dir sub => simp [walkSteps, h, hhere, hup, hlong, hfind]

theorem walkSteps_link {target : Path} (h : d.node? here = some (.dir inside))
    (hhere : step ≠ ['.']) (hup : step ≠ ['.', '.']) (hlong : ¬ 255 < Utf8.size step)
    (hfind : inside.find? step = some (.link target)) :
    d.walkSteps last follow here (step :: more) =
      if more = [] ∧ last = false then .ok (here ++ [step]) else follow here target more := by
  simp [walkSteps, h, hhere, hup, hlong, hfind]

/-- How a way that leads somewhere begins: in a directory, with a step that stays there or goes up,
or with a name, which is the last step, or is followed as a link, or is gone into. -/
theorem walkSteps_cons_eq_ok (h : d.walkSteps last follow here (step :: more) = .ok loc) :
    ∃ inside, d.node? here = some (.dir inside) ∧
      (step = ['.'] ∧ d.walkSteps last follow here more = .ok loc ∨
      step = ['.', '.'] ∧ d.walkSteps last follow here.dropLast more = .ok loc ∨
      step ≠ ['.'] ∧ step ≠ ['.', '.'] ∧ ¬ 255 < Utf8.size step ∧
        (inside.find? step = none ∧ more = [] ∧ loc = here ++ [step] ∨
        ∃ node, inside.find? step = some node ∧
          ((∀ target, node ≠ .link target) ∧
            d.walkSteps last follow (here ++ [step]) more = .ok loc ∨
          ∃ target, node = .link target ∧
            (more = [] ∧ last = false ∧ loc = here ++ [step] ∨
            ¬ (more = [] ∧ last = false) ∧ follow here target more = .ok loc)))) := by
  rw [walkSteps] at h
  rcases hnode : d.node? here with _ | (bytes | target | inside)
  · simp [hnode] at h
  · simp [hnode] at h
  · simp [hnode] at h
  · refine ⟨inside, rfl, ?_⟩
    simp only [hnode] at h
    by_cases hhere : step = ['.']
    · rw [if_pos hhere] at h
      exact Or.inl ⟨hhere, h⟩
    by_cases hup : step = ['.', '.']
    · rw [if_neg hhere, if_pos hup] at h
      exact Or.inr (Or.inl ⟨hup, h⟩)
    by_cases hlong : 255 < Utf8.size step
    · rw [if_neg hhere, if_neg hup, if_pos hlong] at h
      cases h
    rw [if_neg hhere, if_neg hup, if_neg hlong] at h
    refine Or.inr (Or.inr ⟨hhere, hup, hlong, ?_⟩)
    rcases hfind : inside.find? step with _ | (bytes | target | sub)
    · simp only [hfind] at h
      split_ifs at h with hmore
      exact Or.inl ⟨rfl, hmore, (Except.ok.inj h).symm⟩
    · exact Or.inr ⟨_, rfl, Or.inl ⟨by simp, by simpa [hfind] using h⟩⟩
    · refine Or.inr ⟨_, rfl, Or.inr ⟨target, rfl, ?_⟩⟩
      simp only [hfind] at h
      split_ifs at h with hstop
      · exact Or.inl ⟨hstop.1, hstop.2, (Except.ok.inj h).symm⟩
      · exact Or.inr ⟨hstop, h⟩
    · exact Or.inr ⟨_, rfl, Or.inl ⟨by simp, by simpa [hfind] using h⟩⟩

end Step

section Append

variable {links : ℕ}

theorem walkSteps_append (hfollow : ∀ {here target steps loc},
      d.followWithin true links here target steps = .ok loc → (d.node? loc).isSome →
      ∃ left, ∀ last more, more ≠ [] →
        d.followWithin last links here target (steps ++ more) =
          d.resolveWithin last left loc more)
    {steps : List Text} (h : d.resolveWithin true links here steps = .ok loc)
    (hloc : (d.node? loc).isSome) :
    ∃ left, ∀ last more, more ≠ [] →
      d.resolveWithin last links here (steps ++ more) = d.resolveWithin last left loc more := by
  induction steps generalizing here with
  | nil =>
    rw [resolveWithin_eq] at h
    cases h
    exact ⟨links, fun _ _ _ => rfl⟩
  | cons step steps ih =>
    simp only [resolveWithin_eq d _ links] at h ih ⊢
    obtain ⟨inside, hnode, hstep⟩ := walkSteps_cons_eq_ok h
    rcases hstep with ⟨rfl, hgo⟩ | ⟨rfl, hgo⟩ | ⟨hhere, hup, hlong, hname⟩
    · obtain ⟨left, hleft⟩ := ih hgo
      refine ⟨left, fun last more hmore => ?_⟩
      rw [List.cons_append, walkSteps_here hnode, hleft last more hmore]
    · obtain ⟨left, hleft⟩ := ih hgo
      refine ⟨left, fun last more hmore => ?_⟩
      rw [List.cons_append, walkSteps_up hnode, hleft last more hmore]
    · rcases hname with ⟨hfind, -, rfl⟩ | ⟨node, hfind, ⟨hlink, hgo⟩ | ⟨target, rfl, hgo⟩⟩
      · rw [node?_entry hnode, hfind] at hloc
        cases hloc
      · obtain ⟨left, hleft⟩ := ih hgo
        refine ⟨left, fun last more hmore => ?_⟩
        rw [List.cons_append, walkSteps_into hnode hhere hup hlong hfind hlink,
          hleft last more hmore]
      · rcases hgo with ⟨-, hlast, -⟩ | ⟨-, hgo⟩
        · cases hlast
        · obtain ⟨left, hleft⟩ := hfollow hgo hloc
          refine ⟨left, fun last more hmore => ?_⟩
          rw [List.cons_append, walkSteps_link hnode hhere hup hlong hfind,
            if_neg (by simp [hmore]), hleft last more hmore]

/-- Steps that lead to something can be taken first, and further ones from there. -/
theorem resolveWithin_append {steps : List Text}
    (h : d.resolveWithin true links here steps = .ok loc) (hloc : (d.node? loc).isSome) :
    ∃ left, ∀ last more, more ≠ [] →
      d.resolveWithin last links here (steps ++ more) = d.resolveWithin last left loc more := by
  induction links generalizing here steps loc with
  | zero => exact walkSteps_append (fun h => by cases h) h hloc
  | succ links ih =>
    -- the steps of a link's target come first, and are taken with one link less
    refine walkSteps_append (fun {here target steps loc} h hloc => ?_) h hloc
    obtain ⟨left, hleft⟩ := ih h hloc
    refine ⟨left, fun last more hmore => ?_⟩
    rw [followWithin, ← List.append_assoc]
    exact hleft last more hmore

end Append

theorem node?_dropLast_ne_link (h : d.node? here = some (.dir inside)) (target : Path) :
    d.node? here.dropLast ≠ some (.link target) := by
  rcases List.eq_nil_or_concat here with rfl | ⟨front, name, rfl⟩
  · rw [List.dropLast_nil, h]
    simp
  · intro hlink
    rw [List.concat_eq_append, List.dropLast_concat] at hlink
    rw [List.concat_eq_append, node?_append, hlink] at h
    cases h

section Links

variable {follow follow' : Location → Path → List Text → Except Fault Location} {steps : List Text}

theorem node?_walkSteps_ne_link
    (hfollow : ∀ {here inside target steps loc}, d.node? here = some (.dir inside) →
      follow here target steps = .ok loc → ∀ target, d.node? loc ≠ some (.link target))
    (h : d.walkSteps true follow here steps = .ok loc)
    (hhere : ∀ target, d.node? here ≠ some (.link target)) (target : Path) :
    d.node? loc ≠ some (.link target) := by
  induction steps generalizing here with
  | nil =>
    cases h
    exact hhere target
  | cons step steps ih =>
    obtain ⟨inside, hnode, hstep⟩ := walkSteps_cons_eq_ok h
    rcases hstep with ⟨-, hgo⟩ | ⟨-, hgo⟩ | ⟨-, -, -, ⟨hfind, -, rfl⟩ | ⟨node, hfind, hname⟩⟩
    · exact ih hgo hhere
    · exact ih hgo (node?_dropLast_ne_link hnode)
    · rw [node?_entry hnode, hfind]
      simp
    · rcases hname with ⟨hlink, hgo⟩ | ⟨target, -, ⟨-, hlast, -⟩ | ⟨-, hgo⟩⟩
      · refine ih hgo fun target => ?_
        rw [node?_entry hnode, hfind]
        exact fun heq => hlink target (Option.some.inj heq)
      · cases hlast
      · exact hfollow hnode hgo _

/-- What a way ends at is no link when links at its end are followed. -/
theorem node?_resolveWithin_ne_link {links : ℕ}
    (h : d.resolveWithin true links here steps = .ok loc)
    (hhere : ∀ target, d.node? here ≠ some (.link target)) (target : Path) :
    d.node? loc ≠ some (.link target) := by
  induction links generalizing here steps loc target with
  | zero =>
    rw [resolveWithin_eq] at h
    exact node?_walkSteps_ne_link (fun _ hgo => by cases hgo) h hhere target
  | succ links ih =>
    rw [resolveWithin_eq] at h
    refine node?_walkSteps_ne_link (fun {here inside target steps loc} hnode hgo => ?_) h hhere
      target
    refine ih hgo fun target => ?_
    rw [Path.origin]
    split_ifs
    · simp [node?, Node.at?]
    · simp [hnode]

theorem walkSteps_of_ne_link
    (hfollow : ∀ {here target steps loc}, follow here target steps = .ok loc →
      (∀ target, d.node? loc ≠ some (.link target)) → follow' here target steps = .ok loc)
    (h : d.walkSteps false follow here steps = .ok loc)
    (hloc : ∀ target, d.node? loc ≠ some (.link target)) :
    d.walkSteps true follow' here steps = .ok loc := by
  induction steps generalizing here with
  | nil => exact h
  | cons step steps ih =>
    obtain ⟨inside, hnode, hstep⟩ := walkSteps_cons_eq_ok h
    rcases hstep with ⟨rfl, hgo⟩ | ⟨rfl, hgo⟩ | ⟨hhere, hup, hlong, hname⟩
    · rw [walkSteps_here hnode]
      exact ih hgo
    · rw [walkSteps_up hnode]
      exact ih hgo
    · rcases hname with ⟨hfind, rfl, rfl⟩ | ⟨node, hfind, ⟨hlink, hgo⟩ | ⟨target, rfl, hgo⟩⟩
      · simp [walkSteps, hnode, hhere, hup, hlong, hfind]
      · rw [walkSteps_into hnode hhere hup hlong hfind hlink]
        exact ih hgo
      · rcases hgo with ⟨-, -, rfl⟩ | ⟨-, hgo⟩
        · exact absurd ((node?_entry hnode step).trans hfind) (hloc target)
        · rw [walkSteps_link hnode hhere hup hlong hfind, if_neg (by simp)]
          exact hfollow hgo hloc

/-- Whether links are followed at its end makes no difference to a way that ends at none. -/
theorem resolveWithin_of_ne_link {links : ℕ}
    (h : d.resolveWithin false links here steps = .ok loc)
    (hloc : ∀ target, d.node? loc ≠ some (.link target)) :
    d.resolveWithin true links here steps = .ok loc := by
  induction links generalizing here steps loc with
  | zero =>
    rw [resolveWithin_eq] at h ⊢
    exact walkSteps_of_ne_link (fun hgo _ => hgo) h hloc
  | succ links ih =>
    rw [resolveWithin_eq] at h ⊢
    exact walkSteps_of_ne_link (fun hgo hloc => ih hgo hloc) h hloc

theorem exists_walkSteps_of_follow
    (hfollow : ∀ {here target steps loc}, follow here target steps = .ok loc →
      (d.node? loc).isSome → ∃ other, follow' here target steps = .ok other ∧
        (d.node? other).isSome)
    (h : d.walkSteps true follow here steps = .ok loc) (hloc : (d.node? loc).isSome) :
    ∃ other, d.walkSteps false follow' here steps = .ok other ∧ (d.node? other).isSome := by
  induction steps generalizing here with
  | nil => exact ⟨loc, h, hloc⟩
  | cons step steps ih =>
    obtain ⟨inside, hnode, hstep⟩ := walkSteps_cons_eq_ok h
    rcases hstep with ⟨rfl, hgo⟩ | ⟨rfl, hgo⟩ | ⟨hhere, hup, hlong, hname⟩
    · rw [walkSteps_here hnode]
      exact ih hgo
    · rw [walkSteps_up hnode]
      exact ih hgo
    · rcases hname with ⟨hfind, -, rfl⟩ | ⟨node, hfind, ⟨hlink, hgo⟩ | ⟨target, rfl, hgo⟩⟩
      · rw [node?_entry hnode, hfind] at hloc
        cases hloc
      · rw [walkSteps_into hnode hhere hup hlong hfind hlink]
        exact ih hgo
      · rcases hgo with ⟨-, hlast, -⟩ | ⟨-, hgo⟩
        · cases hlast
        · rw [walkSteps_link hnode hhere hup hlong hfind]
          split_ifs
          · exact ⟨here ++ [step], rfl, by rw [node?_entry hnode, hfind]; rfl⟩
          · exact hfollow hgo hloc

/-- Where a way leads to something, it leads to something as well when a link at its end stands for
itself. -/
theorem exists_resolveWithin_of_follow {links : ℕ}
    (h : d.resolveWithin true links here steps = .ok loc) (hloc : (d.node? loc).isSome) :
    ∃ other, d.resolveWithin false links here steps = .ok other ∧ (d.node? other).isSome := by
  induction links generalizing here steps loc with
  | zero =>
    rw [resolveWithin_eq] at h ⊢
    exact exists_walkSteps_of_follow (fun hgo => by cases hgo) h hloc
  | succ links ih =>
    rw [resolveWithin_eq] at h ⊢
    exact exists_walkSteps_of_follow (fun hgo hloc => ih hgo hloc) h hloc

end Links

theorem isName_of_at? {node found : Node} (h : node.WellFormed) (hfound : node.at? loc = some found)
    {name : Text} (hname : name ∈ loc) : isName name = true := by
  induction loc generalizing node with
  | nil => cases hname
  | cons first more ih =>
    cases node with
    | dir inside =>
      obtain ⟨next, hnext, hmore⟩ := Option.bind_eq_some_iff.1 hfound
      have hwf : inside.WellFormed := h
      have hmem := Listing.lookup_mem hnext
      rcases List.mem_cons.1 hname with rfl | hname
      · exact hwf.isName_of_mem hmem
      · exact ih (hwf.node_of_mem hmem) hmore hname
    | file bytes => cases hfound
    | link target => cases hfound

theorem isName_of_node? {node : Node} (h : d.node? loc = some node) {name : Text}
    (hname : name ∈ loc) : isName name = true := by
  have hroot : (Node.dir d.root).WellFormed := d.wellFormed
  exact isName_of_at? hroot h hname

/-- The names on the way to a directory lead there, without any link. -/
theorem walkSteps_location (here : Location) {last : Bool}
    {follow : Location → Path → List Text → Except Fault Location} {way : Location}
    (h : d.node? (here ++ way) = some (.dir inside)) (steps : List Text) :
    d.walkSteps last follow here (way ++ steps) = d.walkSteps last follow (here ++ way) steps := by
  induction way generalizing here with
  | nil => rw [List.nil_append, List.append_nil]
  | cons name way ih =>
    obtain ⟨found, hhere, hway⟩ := Option.bind_eq_some_iff.1 ((node?_append d here _).symm.trans h)
    cases found with
    | file bytes => cases hway
    | link target => cases hway
    | dir l =>
      obtain ⟨node, hfind, hnode⟩ := Option.bind_eq_some_iff.1 hway
      obtain ⟨-, hdot, hup, -, -, hsize⟩ :=
        isName_iff.1 ((wellFormed_of_node? hhere).isName_of_mem (Listing.lookup_mem hfind))
      have hlink : ∀ target, node ≠ .link target := by
        rintro target rfl
        cases way <;> cases hnode
      have happend : here ++ name :: way = here ++ [name] ++ way := by simp
      rw [List.cons_append, walkSteps_into hhere hdot hup (Nat.not_lt.2 hsize) hfind hlink, happend]
      exact ih _ (happend ▸ h)

/-- The last step, to an entry of a directory. -/
theorem resolveWithin_name {last : Bool} (links : ℕ) {name : Text} {node : Node}
    (hloc : d.node? loc = some (.dir inside)) (hname : isName name = true)
    (hfind : inside.find? name = some node) (hlast : ∀ target, node = .link target → last = false) :
    d.resolveWithin last links loc [name] = .ok (loc ++ [name]) := by
  obtain ⟨-, hhere, hup, -, -, hsize⟩ := isName_iff.1 hname
  have hlong := Nat.not_lt.2 hsize
  rw [resolveWithin_eq]
  by_cases hlink : ∃ target, node = .link target
  · obtain ⟨target, rfl⟩ := hlink
    rw [walkSteps_link hloc hhere hup hlong hfind, if_pos ⟨rfl, hlast target rfl⟩]
  · rw [walkSteps_into hloc hhere hup hlong hfind (not_exists.1 hlink)]
    rfl

end Disk

end HeaderCheck
