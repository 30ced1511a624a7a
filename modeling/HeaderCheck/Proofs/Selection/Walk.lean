import HeaderCheck.Proofs.Disk.Stat
import HeaderCheck.Selection.Walk

/-! The walk finds what there is to be found. `EntryBelow` says what stands below a directory
without regard to any walk; the walk lists the files among it, each once, and leaves out only
what has a pruned name in its path. -/

namespace HeaderCheck

/-- Below the directory at `dir` with the listing `inside`, the entry at path `p` is `node`. The
way there leads through directories only, never through a link. -/
inductive EntryBelow : Path → Listing → Path → Node → Prop
  | here {dir : Path} {inside : Listing} {name : Text} {node : Node}
      (h : (name, node) ∈ inside.entries) : EntryBelow dir inside (dir.entry name) node
  | deeper {dir : Path} {inside sub : Listing} {name : Text} {p : Path} {node : Node}
      (h : (name, .dir sub) ∈ inside.entries) (below : EntryBelow (dir.entry name) sub p node) :
      EntryBelow dir inside p node

/-- The entry is a file, or a link that leads to one. -/
def World.IsSource (w : World) (p : Path) : Node → Prop
  | .file _ => True
  | .link _ => w.isFile p = true
  | .dir _ => False

namespace EntryBelow

variable {dir p : Path} {inside l : Listing} {node : Node}

/-- More entries do not hide any. -/
theorem mono (h : EntryBelow dir inside p node) (hsub : ∀ e ∈ inside.entries, e ∈ l.entries) :
    EntryBelow dir l p node := by
  cases h with
  | here hmem => exact .here (hsub _ hmem)
  | deeper hmem below => exact .deeper (hsub _ hmem) below

/-- The entry has the first one for itself or lies behind it. -/
theorem cons_iff (name : Text) (first : Node) :
    EntryBelow dir (.cons name first l) p node ↔
      (p = dir.entry name ∧ node = first) ∨
      (∃ sub, first = .dir sub ∧ EntryBelow (dir.entry name) sub p node) ∨
      EntryBelow dir l p node := by
  refine ⟨?_, ?_⟩
  · intro h
    cases h with
    | here hmem =>
      rw [Listing.entries_cons, List.mem_cons] at hmem
      rcases hmem with heq | hmem
      · cases heq
        exact Or.inl ⟨rfl, rfl⟩
      · exact Or.inr (Or.inr (.here hmem))
    | deeper hmem below =>
      rw [Listing.entries_cons, List.mem_cons] at hmem
      rcases hmem with heq | hmem
      · cases heq
        exact Or.inr (Or.inl ⟨_, rfl, below⟩)
      · exact Or.inr (Or.inr (.deeper hmem below))
  · rintro (⟨rfl, rfl⟩ | ⟨sub, rfl, below⟩ | h)
    · exact .here (by simp)
    · exact .deeper (by simp) below
    · exact h.mono fun e he => by simp [he]

theorem not_empty : ¬ EntryBelow dir .empty p node := by
  intro h
  cases h with
  | here hmem => simp [Listing.entries] at hmem
  | deeper hmem => simp [Listing.entries] at hmem

/-- Below a directory every path is spelled with the name of an entry behind the directory. -/
theorem text_eq (h : EntryBelow dir inside p node) (hwf : inside.WellFormed) :
    ∃ name ∈ inside.names, isName name = true ∧
      ∃ tail, p.text = dir.stem ++ name ++ tail ∧ ∀ c ∈ tail.head?, c = '/' := by
  induction h with
  | @here dir inside name node hmem =>
    have hname := hwf.isName_of_mem hmem
    have htext := Path.text_entry (slash_notMem_of_isName hname) dir
    exact ⟨name, List.mem_map_of_mem hmem, hname, [], htext.trans (List.append_nil _).symm,
      by simp⟩
  | @deeper dir inside sub name p node hmem below ih =>
    have hname := hwf.isName_of_mem hmem
    obtain ⟨inner, -, -, tail, hp, -⟩ := ih (hwf.node_of_mem hmem)
    rw [Path.stem_entry (ne_nil_of_isName hname) (slash_notMem_of_isName hname)] at hp
    exact ⟨name, List.mem_map_of_mem hmem, hname, '/' :: (inner ++ tail), by simp [hp], by simp⟩

theorem stem_prefix (h : EntryBelow dir inside p node) (hwf : inside.WellFormed) :
    dir.stem <+: p.text := by
  obtain ⟨name, -, -, tail, hp, -⟩ := h.text_eq hwf
  exact ⟨name ++ tail, by rw [hp, List.append_assoc]⟩

theorem isAbsolute (h : EntryBelow dir inside p node) (hwf : inside.WellFormed)
    (hdir : dir.isAbsolute = true) : p.isAbsolute = true := by
  induction h with
  | here hmem => exact Path.isAbsolute_entry hdir _
  | deeper hmem below ih => exact ih (hwf.node_of_mem hmem) (Path.isAbsolute_entry hdir _)

theorem nameBelow_mem (h : EntryBelow dir inside p node) (hwf : inside.WellFormed) :
    dir.nameBelow p ∈ inside.names := by
  obtain ⟨name, hmem, hname, tail, hp, htail⟩ := h.text_eq hwf
  rw [Path.nameBelow_of_text (slash_notMem_of_isName hname) hp htail]
  exact hmem

/-- Only what lies under an entry has the entry's name behind the directory. -/
theorem nameBelow_eq {name : Text} (h : EntryBelow (dir.entry name) inside p node)
    (hwf : inside.WellFormed) (hname : isName name = true) : dir.nameBelow p = name := by
  have hslash := slash_notMem_of_isName hname
  obtain ⟨tail, htail⟩ := h.stem_prefix hwf
  rw [Path.stem_entry (ne_nil_of_isName hname) hslash, List.append_assoc,
    List.singleton_append] at htail
  exact Path.nameBelow_of_text hslash htail.symm (by simp)

/-- At the path of an entry that can be reached stands the entry. -/
theorem linkStat_eq {w : World} (h : EntryBelow dir inside p node)
    (hinside : w.stat dir = .ok (.dir inside)) (hsize : Utf8.size p.text < Disk.pathLimit) :
    w.linkStat p = .ok node := by
  induction h with
  | here hmem => exact World.linkStat_entry hinside hmem hsize
  | @deeper dir inside sub name p node hmem below ih =>
    have hwf := World.wellFormed_of_stat hinside
    have hne := ne_nil_of_isName (hwf.isName_of_mem hmem)
    have hslash := slash_notMem_of_isName (hwf.isName_of_mem hmem)
    have hshort : Utf8.size (dir.entry name).text < Disk.pathLimit := by
      refine Nat.lt_of_le_of_lt (Utf8.size_le_of_prefix ?_) hsize
      refine List.IsPrefix.trans ?_ (below.stem_prefix (hwf.node_of_mem hmem))
      rw [Path.stem_entry hne hslash, Path.text_entry hslash]
      exact List.prefix_append _ _
    exact ih (World.stat_of_linkStat (World.linkStat_entry hinside hmem hshort) (by simp)) hsize

end EntryBelow

namespace World

variable {w : World} {pruned : Text → Bool} {root dir p : Path} {l : Listing} {paths : List Path}

/-- A walk that gets past a directory has left it out, or has listed what is in it first. -/
theorem filesIn_dir_eq_ok {name : Text} {inside rest : Listing}
    (h : w.filesIn pruned dir (.dir name inside rest) = .ok paths) :
    pruned name = true ∧ w.filesIn pruned dir rest = .ok paths ∨
    pruned name = false ∧ ∃ below after, w.filesIn pruned (dir.entry name) inside = .ok below ∧
      w.filesIn pruned dir rest = .ok after ∧ paths = below ++ after := by
  unfold filesIn at h
  split_ifs at h with hpruned hlong
  · exact Or.inl ⟨hpruned, h⟩
  · obtain ⟨below, hbelow, h⟩ := bind_eq_ok_iff.1 h
    obtain ⟨after, hafter, rfl⟩ := map_eq_ok_iff.1 h
    exact Or.inr ⟨Bool.eq_false_iff.2 hpruned, below, after, hbelow, hafter, rfl⟩

/-- What the walk lists stands below the directory and is a file or a link to one. -/
theorem entryBelow_of_mem_filesIn (h : w.filesIn pruned dir l = .ok paths) (hp : p ∈ paths) :
    ∃ node, EntryBelow dir l p node ∧ w.IsSource p node := by
  induction l generalizing dir paths with
  | empty =>
    cases h
    cases hp
  | file name bytes rest ih =>
    obtain ⟨after, hafter, rfl⟩ := map_eq_ok_iff.1 h
    rcases List.mem_cons.1 hp with rfl | hp
    · exact ⟨.file bytes, (EntryBelow.cons_iff name (.file bytes)).2 (Or.inl ⟨rfl, rfl⟩), trivial⟩
    · obtain ⟨node, hnode, hsource⟩ := ih hafter hp
      exact ⟨node, (EntryBelow.cons_iff name (.file bytes)).2 (Or.inr (Or.inr hnode)), hsource⟩
  | link name target rest ih =>
    obtain ⟨after, hafter, rfl⟩ := map_eq_ok_iff.1 h
    have hrest : p ∈ after → ∃ node, EntryBelow dir (.link name target rest) p node ∧
        w.IsSource p node := fun hp => by
      obtain ⟨node, hnode, hsource⟩ := ih hafter hp
      exact ⟨node, (EntryBelow.cons_iff name (.link target)).2 (Or.inr (Or.inr hnode)), hsource⟩
    split_ifs at hp with hfile
    · rcases List.mem_cons.1 hp with rfl | hp
      · exact ⟨.link target, (EntryBelow.cons_iff name (.link target)).2 (Or.inl ⟨rfl, rfl⟩), hfile⟩
      · exact hrest hp
    · exact hrest hp
  | dir name inside rest ihInside ihRest =>
    have hrest : ∀ after, w.filesIn pruned dir rest = .ok after → p ∈ after →
        ∃ node, EntryBelow dir (.dir name inside rest) p node ∧ w.IsSource p node := by
      intro after hafter hp
      obtain ⟨node, hnode, hsource⟩ := ihRest hafter hp
      exact ⟨node, (EntryBelow.cons_iff name (.dir inside)).2 (Or.inr (Or.inr hnode)), hsource⟩
    rcases filesIn_dir_eq_ok h with ⟨-, hafter⟩ | ⟨-, below, after, hbelow, hafter, rfl⟩
    · exact hrest paths hafter hp
    · rcases List.mem_append.1 hp with hp | hp
      · obtain ⟨node, hnode, hsource⟩ := ihInside hbelow hp
        exact ⟨node, (EntryBelow.cons_iff name (.dir inside)).2
          (Or.inr (Or.inl ⟨inside, rfl, hnode⟩)), hsource⟩
      · exact hrest after hafter hp

/-- And all of that is listed, but for what has a pruned name in its path. -/
theorem mem_filesIn_of_entryBelow {node : Node} (h : w.filesIn pruned dir l = .ok paths)
    (hwf : l.WellFormed) (hp : EntryBelow dir l p node) (hsource : w.IsSource p node)
    (hkept : ∀ name, pruned name = true → ¬ name <:+: p.text) : p ∈ paths := by
  induction l generalizing dir paths with
  | empty => exact absurd hp EntryBelow.not_empty
  | file name bytes rest ih =>
    obtain ⟨after, hafter, rfl⟩ := map_eq_ok_iff.1 h
    rcases (EntryBelow.cons_iff name (.file bytes)).1 hp with ⟨rfl, -⟩ | ⟨_, hdir, -⟩ | hp
    · exact List.mem_cons_self
    · cases hdir
    · exact List.mem_cons_of_mem _ (ih hafter hwf.2.2 hp)
  | link name target rest ih =>
    obtain ⟨after, hafter, rfl⟩ := map_eq_ok_iff.1 h
    rcases (EntryBelow.cons_iff name (.link target)).1 hp with ⟨rfl, rfl⟩ | ⟨_, hdir, -⟩ | hp
    · have hfile : w.isFile (dir.entry name) = true := hsource
      rw [if_pos hfile]
      exact List.mem_cons_self
    · cases hdir
    · have := ih hafter hwf.2.2 hp
      split_ifs
      · exact List.mem_cons_of_mem _ this
      · exact this
  | dir name inside rest ihInside ihRest =>
    rcases (EntryBelow.cons_iff name (.dir inside)).1 hp with ⟨-, rfl⟩ | ⟨_, hdir, hunder⟩ | hrest
    · exact absurd hsource (by simp [IsSource])
    · cases hdir
      -- the name stands in the path, so it is not pruned
      have hname : name <:+: p.text := by
        refine List.IsInfix.trans ?_ (hunder.stem_prefix hwf.2.2.1).isInfix
        rw [Path.stem_entry (ne_nil_of_isName hwf.1) (slash_notMem_of_isName hwf.1)]
        exact ⟨dir.stem, ['/'], rfl⟩
      rcases filesIn_dir_eq_ok h with ⟨hpruned, -⟩ | ⟨-, below, after, hbelow, -, rfl⟩
      · exact absurd hname (hkept name hpruned)
      · exact List.mem_append_left _ (ihInside hbelow hwf.2.2.1 hunder)
    · rcases filesIn_dir_eq_ok h with ⟨-, hafter⟩ | ⟨-, below, after, -, hafter, rfl⟩
      · exact ihRest hafter hwf.2.2.2 hrest
      · exact List.mem_append_right _ (ihRest hafter hwf.2.2.2 hrest)

theorem nameBelow_mem_of_mem_filesIn (h : w.filesIn pruned dir l = .ok paths) (hwf : l.WellFormed)
    (hp : p ∈ paths) : dir.nameBelow p ∈ l.names := by
  obtain ⟨node, hnode, -⟩ := entryBelow_of_mem_filesIn h hp
  exact hnode.nameBelow_mem hwf

theorem entry_notMem_filesIn {name : Text} (h : w.filesIn pruned dir l = .ok paths)
    (hname : isName name = true) (hfresh : name ∉ l.names) (hwf : l.WellFormed) :
    dir.entry name ∉ paths := by
  intro hp
  have hmem := nameBelow_mem_of_mem_filesIn h hwf hp
  rw [Path.nameBelow_entry (slash_notMem_of_isName hname)] at hmem
  exact hfresh hmem

/-- Different entries have different names, so that no path is listed twice. -/
theorem nodup_filesIn (h : w.filesIn pruned dir l = .ok paths) (hwf : l.WellFormed) :
    paths.Nodup := by
  induction l generalizing dir paths with
  | empty =>
    cases h
    exact List.nodup_nil
  | file name bytes rest ih =>
    obtain ⟨after, hafter, rfl⟩ := map_eq_ok_iff.1 h
    exact List.nodup_cons.2 ⟨entry_notMem_filesIn hafter hwf.1 hwf.2.1 hwf.2.2, ih hafter hwf.2.2⟩
  | link name target rest ih =>
    obtain ⟨after, hafter, rfl⟩ := map_eq_ok_iff.1 h
    have hnodup := ih hafter hwf.2.2
    split_ifs
    · exact List.nodup_cons.2 ⟨entry_notMem_filesIn hafter hwf.1 hwf.2.1 hwf.2.2, hnodup⟩
    · exact hnodup
  | dir name inside rest ihInside ihRest =>
    rcases filesIn_dir_eq_ok h with ⟨-, hafter⟩ | ⟨-, below, after, hbelow, hafter, rfl⟩
    · exact ihRest hafter hwf.2.2.2
    · refine List.nodup_append.2 ⟨ihInside hbelow hwf.2.2.1, ihRest hafter hwf.2.2.2, ?_⟩
      rintro p hpBelow _ hpAfter rfl
      -- a path on both sides would show the name of this directory and that of a later entry
      obtain ⟨node, hnode, -⟩ := entryBelow_of_mem_filesIn hbelow hpBelow
      have hname := nameBelow_mem_of_mem_filesIn hafter hwf.2.2.2 hpAfter
      rw [hnode.nameBelow_eq hwf.2.2.1 hwf.1] at hname
      exact hwf.2.1 hname

theorem filesIn_eq_error {failure : Failure} (h : w.filesIn pruned dir l = .error failure) :
    ∃ path, failure = .walk path .nameTooLong := by
  induction l generalizing dir with
  | empty => cases h
  | file name bytes rest ih => exact ih (map_eq_error_iff.1 h)
  | link name target rest ih => exact ih (map_eq_error_iff.1 h)
  | dir name inside rest ihInside ihRest =>
    unfold filesIn at h
    split_ifs at h with hpruned hlong
    · exact ihRest h
    · exact ⟨_, (Except.error.inj h).symm⟩
    · rcases bind_eq_error_iff.1 h with hbelow | ⟨below, -, hafter⟩
      · exact ihInside hbelow
      · exact ihRest (map_eq_error_iff.1 hafter)

/-- A walk fails where it cannot go on. -/
theorem filesBelow_eq_error {failure : Failure} (h : w.filesBelow pruned root = .error failure) :
    ∃ path fault, failure = .walk path fault := by
  unfold filesBelow at h
  rcases hlink : w.linkStat root with fault | (bytes | target | inside) <;> simp only [hlink] at h
  · exact ⟨root, fault, (Except.error.inj h).symm⟩
  · cases h
  · rcases hstat : w.stat root with fault | (bytes | target | inside) <;> simp only [hstat] at h
    · exact ⟨root, fault, (Except.error.inj h).symm⟩
    · cases h
    · cases h
    · obtain ⟨path, hpath⟩ := filesIn_eq_error h
      exact ⟨path, _, hpath⟩
  · obtain ⟨path, hpath⟩ := filesIn_eq_error h
    exact ⟨path, _, hpath⟩

/-- At the root or below it, where no link below the root is passed through, stands the node. -/
def EntryAt (w : World) (root p : Path) (node : Node) : Prop :=
  (p = root ∧ w.linkStat root = .ok node) ∨
    ∃ inside, w.stat root = .ok (.dir inside) ∧ EntryBelow root inside p node

theorem EntryAt.isAbsolute {node : Node} (h : w.EntryAt root p node)
    (hroot : root.isAbsolute = true) : p.isAbsolute = true := by
  rcases h with ⟨rfl, -⟩ | ⟨inside, hstat, hbelow⟩
  · exact hroot
  · exact hbelow.isAbsolute (wellFormed_of_stat hstat) hroot

/-- At the path stands the node indeed. -/
theorem EntryAt.linkStat_eq {node : Node} (h : w.EntryAt root p node)
    (hsize : Utf8.size p.text < Disk.pathLimit) : w.linkStat p = .ok node := by
  rcases h with ⟨rfl, hlink⟩ | ⟨inside, hstat, hbelow⟩
  · exact hlink
  · exact hbelow.linkStat_eq hstat hsize

/-- A walk that succeeds lists the root alone when it is a file, and the directory there when it is
one, be it by a link. -/
theorem filesBelow_eq_ok (hroot : root.isAbsolute = true)
    (h : w.filesBelow pruned root = .ok paths) :
    (∃ bytes node, w.stat root = .ok (.file bytes) ∧ w.linkStat root = .ok node ∧
      paths = [root]) ∨
    ∃ inside, w.stat root = .ok (.dir inside) ∧ w.filesIn pruned root inside = .ok paths := by
  unfold filesBelow at h
  rcases hlink : w.linkStat root with fault | (bytes | target | inside) <;> simp only [hlink] at h
  · cases h
  · exact Or.inl ⟨bytes, _, stat_of_linkStat hlink (by simp), rfl, (Except.ok.inj h).symm⟩
  · rcases hstat : w.stat root with fault | (bytes | target | inside) <;> simp only [hstat] at h
    · cases h
    · exact Or.inl ⟨bytes, _, rfl, rfl, (Except.ok.inj h).symm⟩
    · exact absurd hstat (stat_ne_link hroot target)
    · exact Or.inr ⟨inside, rfl, h⟩
  · exact Or.inr ⟨inside, stat_of_linkStat hlink (by simp), h⟩

theorem entryAt_of_mem_filesBelow (hroot : root.isAbsolute = true)
    (h : w.filesBelow pruned root = .ok paths) (hp : p ∈ paths) :
    ∃ node, w.EntryAt root p node ∧ w.IsSource p node := by
  rcases filesBelow_eq_ok hroot h with ⟨bytes, node, hstat, hlink, rfl⟩ | ⟨inside, hstat, hfiles⟩
  · cases List.mem_singleton.1 hp
    refine ⟨node, Or.inl ⟨rfl, hlink⟩, ?_⟩
    cases node with
    | file own => trivial
    | link target => simp [IsSource, isFile, hstat]
    | dir inside =>
      rw [stat_of_linkStat hlink (by simp)] at hstat
      cases hstat
  · obtain ⟨node, hnode, hsource⟩ := entryBelow_of_mem_filesIn hfiles hp
    exact ⟨node, Or.inr ⟨inside, hstat, hnode⟩, hsource⟩

theorem mem_filesBelow_of_entryAt {node : Node} (hroot : root.isAbsolute = true)
    (h : w.filesBelow pruned root = .ok paths) (hp : w.EntryAt root p node)
    (hsource : w.IsSource p node) (hkept : ∀ name, pruned name = true → ¬ name <:+: p.text) :
    p ∈ paths := by
  rcases filesBelow_eq_ok hroot h with ⟨bytes, found, hstat, -, rfl⟩ | ⟨inside, hstat, hfiles⟩
  · rcases hp with ⟨rfl, -⟩ | ⟨inside, hdir, -⟩
    · exact List.mem_singleton_self p
    · rw [hstat] at hdir
      cases hdir
  · rcases hp with ⟨rfl, hlink⟩ | ⟨sub, hdir, hbelow⟩
    · cases node with
      | file bytes =>
        rw [stat_of_linkStat hlink (by simp)] at hstat
        cases hstat
      | link target =>
        have hfile : w.isFile p = true := hsource
        simp [isFile, hstat] at hfile
      | dir sub => cases hsource
    · cases hstat.symm.trans hdir
      exact mem_filesIn_of_entryBelow hfiles (wellFormed_of_stat hstat) hbelow hsource hkept

theorem nodup_filesBelow (hroot : root.isAbsolute = true)
    (h : w.filesBelow pruned root = .ok paths) : paths.Nodup := by
  rcases filesBelow_eq_ok hroot h with ⟨-, -, -, -, rfl⟩ | ⟨inside, hstat, hfiles⟩
  · simp
  · exact nodup_filesIn hfiles (wellFormed_of_stat hstat)

end World

end HeaderCheck
