import ClojureBuild.Proofs.World.Walking
import Mathlib.Data.List.Nodup
/-!
Looking up and walking through links.

A path that leads to a directory, through whatever links, leads on to what stands in it.  So
everything that a walk shows is found at its path, as long as the system takes the path, and no path
is shown twice.
-/

namespace ClojureBuild.World

variable {w : World}

/-! ### Behind a directory -/

section

variable {jump : Location → List PathStep → Except OsError Spot}

theorem traverse_down_of_not_link {name : String} {loc : Location} {node : Node}
    (hshort : name.length ≤ nameLimit) (hnode : w.node? (name :: loc) = some node)
    (hlink : node.isLink = false) :
    w.traverse true jump loc [.down name] = .ok (.taken (name :: loc)) := by
  rw [traverse, if_neg (Nat.not_lt.2 hshort), hnode]
  cases node with
  | dir t => rfl
  | file content t x => rfl
  | link target => simp [Node.isLink] at hlink
  | device t => rfl

/-- A look-up that goes on behind some steps, or ends in a directory there, goes on from where they
lead whatever comes next. -/
theorem exists_of_traverse_front {spot : Spot} {steps more : List PathStep}
    (hmore : more = [] → ∃ found, spot = .taken found ∧ w.isDirAt found = true)
    (hjump : ∀ start steps, jump start (steps ++ more) = .ok spot →
      ∃ mid jump', ∀ next, jump start (steps ++ next) = w.traverse true jump' mid next)
    {loc : Location} (h : w.traverse true jump loc (steps ++ more) = .ok spot) :
    ∃ mid jump', ∀ next, w.traverse true jump loc (steps ++ next) =
      w.traverse true jump' mid next := by
  induction steps generalizing loc with
  | nil => exact ⟨loc, jump, fun _ => rfl⟩
  | cons step rest ih =>
      cases step with
      | stay => exact @ih loc h
      | up => exact @ih loc.tail h
      | down name =>
          have hlast : (rest ++ more).isEmpty = true →
              ∃ found, spot = .taken found ∧ w.isDirAt found = true := fun hempty =>
            hmore (List.append_eq_nil_iff.1 (List.isEmpty_iff.1 hempty)).2
          -- what is neither a directory nor a link ends the look-up, and not in a directory
          have hends : ∀ {node : Node}, node.isDir = false → w.node? (name :: loc) = some node →
              (rest ++ more).isEmpty = true → spot ≠ .taken (name :: loc) := by
            rintro node hnot hnode hempty rfl
            obtain ⟨found, hfound, hdir⟩ := hlast hempty
            obtain rfl := Spot.taken.inj hfound
            rw [isDirAt, hnode] at hdir
            exact absurd (hnot.symm.trans hdir) (by simp)
          rw [List.cons_append, traverse] at h
          split at h
          · exact absurd h (by simp)
          next hshort =>
              cases hnode : w.node? (name :: loc) with
              | none =>
                  simp only [hnode] at h
                  split at h
                  next hvacant =>
                      obtain ⟨found, rfl, -⟩ := hlast (Bool.and_eq_true_iff.1 hvacant).1
                      exact absurd h (by simp)
                  · exact absurd h (by simp)
              | some node =>
                  rw [hnode] at h
                  cases node with
                  | file content t x =>
                      simp only at h
                      split at h
                      next hempty => exact absurd (Except.ok.inj h).symm (hends rfl hnode hempty)
                      · exact absurd h (by simp)
                  | device t =>
                      simp only at h
                      split at h
                      next hempty => exact absurd (Except.ok.inj h).symm (hends rfl hnode hempty)
                      · exact absurd h (by simp)
                  | dir t =>
                      obtain ⟨mid, jump', hnext⟩ := ih h
                      refine ⟨mid, jump', fun next => ?_⟩
                      rw [List.cons_append, traverse, if_neg hshort, hnode]
                      exact hnext next
                  | link target =>
                      simp only [Bool.not_true, Bool.and_false, Bool.false_eq_true,
                        ↓reduceIte, ← List.append_assoc] at h
                      obtain ⟨mid, jump', hnext⟩ := hjump _ _ h
                      refine ⟨mid, jump', fun next => ?_⟩
                      rw [List.cons_append, traverse, if_neg hshort, hnode, ← hnext]
                      simp only [Bool.not_true, Bool.and_false, Bool.false_eq_true,
                        ↓reduceIte, ← List.append_assoc]

end

theorem exists_of_resolveFrom_front {spot : Spot} (links : Nat) {steps more : List PathStep}
    (hmore : more = [] → ∃ found, spot = .taken found ∧ w.isDirAt found = true) {loc : Location}
    (h : w.resolveFrom true links loc (steps ++ more) = .ok spot) :
    ∃ mid jump, ∀ next, w.resolveFrom true links loc (steps ++ next) =
      w.traverse true jump mid next := by
  induction links generalizing loc steps with
  | zero => exact exists_of_traverse_front hmore (fun _ _ hjump => absurd hjump (by simp)) h
  | succ links ih => exact exists_of_traverse_front hmore (fun _ _ hjump => ih hjump) h

/-- What stands in a directory, if it is no link, is found by its name behind the steps that lead to
the directory. -/
theorem stat_div_of_solid {p : Path} {name : String} {loc : Location} {node : Node}
    (hname : EntryName name)
    (hfound : w.resolveFrom true linkLimit (if p.isAbsolute then [] else w.cwd) (solidSteps p) =
      .ok (.taken loc))
    (hdir : w.isDirAt loc = true) (hnode : w.node? (name :: loc) = some node)
    (hlink : node.isLink = false) (hask : Askable (p / name)) :
    w.stat (p / name) = .ok (name :: loc, node) := by
  rw [← List.append_nil (solidSteps p)] at hfound
  obtain ⟨mid, jump, hnext⟩ := exists_of_resolveFrom_front linkLimit
    (fun _ => ⟨loc, rfl, hdir⟩) hfound
  obtain rfl : mid = loc := Spot.taken.inj (Except.ok.inj ((hnext []).symm.trans hfound))
  refine stat_eq_ok.2 ⟨resolve_eq_ok.2 ⟨hask, ?_⟩, hnode⟩
  rw [stepsOf_div p hname.toIsName, isAbsolute_div p hname.toIsName]
  exact (hnext _).trans (traverse_down_of_not_link hname.short hnode hlink)

/-- What stands in a directory, if it is no link, is found by its name behind a path that leads to
the directory. -/
theorem stat_div_of_not_link {p : Path} {name : String} {loc : Location} {t : Int} {node : Node}
    (hname : EntryName name) (hp : w.stat p = .ok (loc, .dir t))
    (hnode : w.node? (name :: loc) = some node) (hlink : node.isLink = false)
    (hshort : (p / name).text.length < pathLimit) :
    w.stat (p / name) = .ok (name :: loc, node) := by
  obtain ⟨hresolve, hdir⟩ := stat_eq_ok.1 hp
  obtain ⟨hask, hfound⟩ := resolve_eq_ok.1 hresolve
  have hin : w.isDirAt loc = true := isDirAt_iff.2 ⟨t, hdir⟩
  refine stat_div_of_solid hname ?_ hin hnode hlink (hask.div hname hshort)
  rcases stepsOf_eq p with hsteps | hsteps
  · rwa [hsteps] at hfound
  · rw [hsteps] at hfound
    obtain ⟨mid, jump, hnext⟩ := exists_of_resolveFrom_front linkLimit
      (fun _ => ⟨loc, rfl, hin⟩) hfound
    obtain rfl : mid = loc := Spot.taken.inj (Except.ok.inj ((hnext _).symm.trans hfound))
    rw [← List.append_nil (solidSteps p)]
    exact hnext []

/-! ### What a walk shows -/

theorem not_file_mem_walkDir_of_error {all : Bool} {way : List (Location × Path)} {path p : Path}
    {loc : Location} {cause : OsError} (hstat : w.stat path = .error cause) :
    Sighting.file p ∉ w.walkDir all way path loc := by
  rw [walkDir, hstat]
  simp

theorem exists_stat_of_file_mem_walkDir {all : Bool} {way : List (Location × Path)}
    {path p : Path} {loc : Location} (h : Sighting.file p ∈ w.walkDir all way path loc) :
    ∃ found, w.stat path = .ok found := by
  cases hstat : w.stat path with
  | ok found => exact ⟨found, rfl⟩
  | error cause => exact absurd h (not_file_mem_walkDir_of_error hstat)

/-- How a walk comes to show a file: it stands in the directory, itself or through a link, or below
a directory there that the walk enters. -/
theorem mem_walkDir_cases {all : Bool} {way : List (Location × Path)} {path p : Path}
    {loc : Location} (h : Sighting.file p ∈ w.walkDir all way path loc) :
    ∃ name node, w.node? (name :: loc) = some node ∧
      ((node.isFile = true ∧ p = path / name) ∨
        (∃ found, w.stat (path / name) = .ok found ∧ p = path / name) ∨
        (∃ t, node = .dir t ∧
          .file p ∈ w.walkDir all ((name :: loc, path / name) :: way) (path / name) (name :: loc)) ∨
        ∃ target t, w.stat (path / name) = .ok (target, .dir t) ∧
          way.find? (fun entry => entry.1 == target) = none ∧
          .file p ∈ w.walkDir all ((target, path / name) :: way) (path / name) target) := by
  obtain ⟨opened, hopened⟩ := exists_stat_of_file_mem_walkDir h
  rw [walkDir, hopened] at h
  obtain ⟨name, -, h⟩ := List.mem_flatMap.1 h
  have hif : ∀ {passed : Bool} {shown : List Sighting},
      .file p ∈ (if passed then [.hidden (path / name)] else shown) → .file p ∈ shown := by
    intro passed shown hin
    cases passed with
    | true => exact absurd hin (by simp)
    | false => exact hin
  have hfile : .file p ∈ [Sighting.file (path / name)] → p = path / name :=
    fun hin => Sighting.file.inj (List.mem_singleton.1 hin)
  refine ⟨name, ?_⟩
  simp only at h
  split at h
  · exact absurd h (by simp)
  next hnode => exact ⟨_, hnode, Or.inl ⟨rfl, hfile (hif h)⟩⟩
  next hnode => exact absurd (hif h) (by simp)
  next t hnode => exact ⟨_, hnode, Or.inr (Or.inr (Or.inl ⟨t, rfl, hif h⟩))⟩
  next hnode =>
      refine ⟨_, hnode, Or.inr ?_⟩
      split at h
      · exact absurd h (by simp)
      next hstat => exact Or.inl ⟨_, hstat, hfile (hif h)⟩
      · exact absurd (hif h) (by simp)
      · exact absurd h (by simp)
      next target t hstat =>
          split at h
          · exact absurd h (by simp)
          next hway => exact Or.inr (Or.inr ⟨target, t, hstat, hway, hif h⟩)

theorem mem_filterMap_file?_iff {sightings : List Sighting} {p : Path} :
    p ∈ sightings.filterMap Sighting.file? ↔ .file p ∈ sightings := by
  rw [List.mem_filterMap]
  constructor
  · rintro ⟨sighting, hsighting, hfile⟩
    obtain rfl : sighting = .file p := by
      cases sighting <;> simp_all [Sighting.file?]
    exact hsighting
  · exact fun h => ⟨_, h, rfl⟩

theorem mem_filesUnder_iff_walk {all : Bool} {root p : Path} :
    p ∈ w.filesUnder all root ↔ .file p ∈ w.walk all root :=
  mem_filterMap_file?_iff

/-- How a walk comes to show a file: the root is a directory that is walked, or is the file. -/
theorem mem_filesUnder_cases {all : Bool} {root p : Path} (h : p ∈ w.filesUnder all root) :
    (∃ loc t, w.stat root = .ok (loc, .dir t) ∧ .file p ∈ w.walkDir all [(loc, root)] root loc) ∨
      w.isFile root = true ∧ p = root := by
  rw [mem_filesUnder_iff_walk, walk, List.mem_cons] at h
  replace h := h.resolve_left (by simp)
  split at h
  · exact absurd h (by simp)
  · split at h
    · exact absurd h (by simp)
    next loc t hstat => exact Or.inl ⟨loc, t, hstat, h⟩
    next hstat =>
        exact Or.inr ⟨isFile_eq_true_iff.2 ⟨_, _, hstat, rfl⟩,
          Sighting.file.inj (List.mem_singleton.1 h)⟩
    · exact absurd h (by simp)
    · exact absurd h (by simp)

/-- A walk only makes paths longer. -/
theorem length_le_of_mem_walkDir (htree : w.IsTree) {all : Bool}
    {way : List (Location × Path)} {path p : Path} {loc : Location}
    (h : .file p ∈ w.walkDir all way path loc) :
    path.text.length ≤ p.text.length := by
  induction way, path, loc using walkDir.induct w with
  | case1 way path loc cause hfails => exact absurd h (not_file_mem_walkDir_of_error hfails)
  | case2 way path loc found hopens ihdir ihlink =>
      obtain ⟨name, node, hnode, hcases⟩ := mem_walkDir_cases h
      have hstep := length_le_div path (htree.entry hnode).toIsName
      rcases hcases with
        ⟨-, rfl⟩ | ⟨-, -, rfl⟩ | ⟨t, rfl, hbelow⟩ | ⟨target, t, hstat, hway, hbelow⟩
      · exact hstep
      · exact hstep
      · exact hstep.trans (ihdir name t hnode hbelow)
      · exact hstep.trans (ihlink name target t hstat hway hbelow)

/-- What a walk shows below a directory is reached from its path by names. -/
theorem exists_descend_of_mem_walkDir (hnamed : w.Named) {all : Bool}
    {way : List (Location × Path)} {path p : Path} {loc : Location}
    (h : .file p ∈ w.walkDir all way path loc) :
    ∃ names, names ≠ [] ∧ (∀ name ∈ names, Path.IsName name) ∧ p = path.descend names := by
  induction way, path, loc using walkDir.induct w with
  | case1 way path loc cause hfails => exact absurd h (not_file_mem_walkDir_of_error hfails)
  | case2 way path loc found hopens ihdir ihlink =>
      obtain ⟨name, node, hnode, hcases⟩ := mem_walkDir_cases h
      have hname := hnamed name loc node hnode
      suffices hbelow : ∃ names, (∀ name ∈ names, Path.IsName name) ∧
          p = (path / name).descend names by
        obtain ⟨names, hnames, rfl⟩ := hbelow
        exact ⟨name :: names, List.cons_ne_nil _ _, List.forall_mem_cons.2 ⟨hname, hnames⟩, rfl⟩
      rcases hcases with
        ⟨-, rfl⟩ | ⟨-, -, rfl⟩ | ⟨t, rfl, hbelow⟩ | ⟨target, t, hstat, hway, hbelow⟩
      · exact ⟨[], by simp, rfl⟩
      · exact ⟨[], by simp, rfl⟩
      · obtain ⟨names, -, hnames⟩ := ihdir name t hnode hbelow
        exact ⟨names, hnames⟩
      · obtain ⟨names, -, hnames⟩ := ihlink name target t hstat hway hbelow
        exact ⟨names, hnames⟩

/-- What a walk from a root shows is reached from the root by names; a root that is a file shows
itself. -/
theorem exists_descend_of_mem_filesUnder (hnamed : w.Named) {all : Bool} {root p : Path}
    (h : p ∈ w.filesUnder all root) :
    ∃ names, (∀ name ∈ names, Path.IsName name) ∧ p = root.descend names := by
  rcases mem_filesUnder_cases h with ⟨loc, t, hstat, hwalk⟩ | ⟨hfile, rfl⟩
  · obtain ⟨names, -, hnames⟩ := exists_descend_of_mem_walkDir hnamed hwalk
    exact ⟨names, hnames⟩
  · exact ⟨[], by simp, rfl⟩

/-- What a walk shows below a directory is found at its path, if the system takes the path. -/
theorem exists_stat_of_mem_walkDir (htree : w.IsTree) {all : Bool} {way : List (Location × Path)}
    {path p : Path} {loc : Location} {t : Int} (hpath : w.stat path = .ok (loc, .dir t))
    (h : .file p ∈ w.walkDir all way path loc) (hshort : p.text.length < pathLimit) :
    ∃ found, w.stat p = .ok found := by
  induction way, path, loc using walkDir.induct w generalizing t with
  | case1 way path loc cause hfails => exact absurd h (not_file_mem_walkDir_of_error hfails)
  | case2 way path loc found hopens ihdir ihlink =>
      obtain ⟨name, node, hnode, hcases⟩ := mem_walkDir_cases h
      have hentry := htree.entry hnode
      rcases hcases with ⟨hfile, rfl⟩ | ⟨found, hfound, rfl⟩ | ⟨t', rfl, hbelow⟩ |
        ⟨target, t', hstat, hway, hbelow⟩
      · have hlink : node.isLink = false := by
          cases node <;> simp_all [Node.isFile, Node.isLink]
        exact ⟨_, stat_div_of_not_link hentry hpath hnode hlink hshort⟩
      · exact ⟨found, hfound⟩
      · have hchild := (length_le_of_mem_walkDir htree hbelow).trans_lt hshort
        have hstat := stat_div_of_not_link hentry hpath hnode rfl hchild
        exact ihdir name t' hnode hstat hbelow
      · exact ihlink name target t' hstat hway hstat hbelow

theorem exists_stat_of_mem_filesUnder (htree : w.IsTree) {all : Bool} {root p : Path}
    (h : p ∈ w.filesUnder all root) (hshort : p.text.length < pathLimit) :
    ∃ found, w.stat p = .ok found := by
  rcases mem_filesUnder_cases h with ⟨loc, t, hstat, hwalk⟩ | ⟨hfile, rfl⟩
  · exact exists_stat_of_mem_walkDir htree hstat hwalk hshort
  · obtain ⟨loc, node, hstat, -⟩ := isFile_eq_true_iff.1 hfile
    exact ⟨_, hstat⟩

/-! ### Each file once -/

/-- At a name of a directory a walk shows nothing, the file there, or what it shows below the
directory there, which may be behind a link. -/
theorem shownVia_cases (w : World) (all : Bool) (way : List (Location × Path)) (path : Path)
    (loc : Location) (name : String) :
    w.shownVia all way path loc name = [] ∨ w.shownVia all way path loc name = [path / name] ∨
      (∃ t, w.node? (name :: loc) = some (.dir t) ∧
        w.shownVia all way path loc name =
          w.shownBelow all ((name :: loc, path / name) :: way) (path / name) (name :: loc)) ∨
      ∃ target t, w.stat (path / name) = .ok (target, .dir t) ∧
        way.find? (fun entry => entry.1 == target) = none ∧
        w.shownVia all way path loc name =
          w.shownBelow all ((target, path / name) :: way) (path / name) target := by
  unfold shownVia
  split
  · exact Or.inl rfl
  · split
    · exact Or.inr (Or.inl rfl)
    next t hnode => exact Or.inr (Or.inr (Or.inl ⟨t, hnode, rfl⟩))
    · split
      · exact Or.inr (Or.inl rfl)
      next target t hstat =>
          split
          · exact Or.inl rfl
          next hnew =>
              exact Or.inr (Or.inr (Or.inr ⟨target, t, hstat, find?_eq_none_iff.2 hnew, rfl⟩))
      · exact Or.inl rfl
    · exact Or.inl rfl

theorem mem_shownBelow_iff_mem_walkDir {all : Bool} {way : List (Location × Path)} {path p : Path}
    {loc : Location} :
    p ∈ w.shownBelow all way path loc ↔ .file p ∈ w.walkDir all way path loc :=
  mem_filterMap_file?_iff

/-- A walk below a directory shows no path twice. -/
theorem nodup_shownBelow (htree : w.IsTree) (all : Bool) (way : List (Location × Path))
    (path : Path) (loc : Location) : (w.shownBelow all way path loc).Nodup := by
  induction way, path, loc using walkDir.induct w with
  | case1 way path loc cause hfails =>
      rw [shownBelow_of_error hfails]
      exact List.nodup_nil
  | case2 way path loc found hopens ihdir ihlink =>
      have hshown := w.shownVia_cases all way path loc
      -- what is shown at a name is reached through it, so two names show different paths
      have hreached : ∀ name ∈ w.childNames loc, ∀ p ∈ w.shownVia all way path loc name,
          ∃ rest, p = path.descend (name :: rest) ∧ ∀ n ∈ name :: rest, Path.IsName n := by
        intro name hname p hp
        obtain ⟨node, hnode⟩ := mem_childNames.1 hname
        have hentry := (htree.entry hnode).toIsName
        suffices hbelow : ∃ rest, (∀ n ∈ rest, Path.IsName n) ∧ p = (path / name).descend rest by
          obtain ⟨rest, hrest, hpath⟩ := hbelow
          exact ⟨rest, hpath, List.forall_mem_cons.2 ⟨hentry, hrest⟩⟩
        rcases hshown name with hat | hat | ⟨t, -, hat⟩ | ⟨target, t, -, -, hat⟩
        all_goals rw [hat] at hp
        · exact absurd hp List.not_mem_nil
        · exact ⟨[], by simp, List.mem_singleton.1 hp⟩
        all_goals
          obtain ⟨rest, -, hrest⟩ :=
            exists_descend_of_mem_walkDir htree.named (mem_shownBelow_iff_mem_walkDir.1 hp)
          exact ⟨rest, hrest⟩
      rw [shownBelow_eq_flatMap all way hopens, List.nodup_flatMap]
      constructor
      · intro name _
        rcases hshown name with hat | hat | ⟨t, hnode, hat⟩ | ⟨target, t, hstat, hway, hat⟩
        all_goals rw [hat]
        · exact List.nodup_nil
        · exact List.nodup_singleton _
        · exact ihdir name t hnode
        · exact ihlink name target t hstat hway
      · refine (w.nodup_childNames loc).imp_of_mem fun hname hname' hne p hp hp' => hne ?_
        obtain ⟨rest, rfl, hnames⟩ := hreached _ hname p hp
        obtain ⟨rest', hpath, hnames'⟩ := hreached _ hname' _ hp'
        have hsame := (congrArg (Path.same _ ·) hpath).symm.trans (beq_self_eq_true _)
        exact (List.cons.inj ((Path.descend_same_iff path hnames hnames').1 hsame)).1

/-- A walk from a root shows no path twice. -/
theorem nodup_filesUnder (htree : w.IsTree) (all : Bool) (root : Path) :
    (w.filesUnder all root).Nodup := by
  rw [filesUnder, walk, List.filterMap_cons_none rfl]
  split
  · exact List.nodup_nil
  · split
    · exact List.nodup_nil
    · exact nodup_shownBelow htree all _ root _
    · exact List.nodup_singleton root
    · exact List.nodup_nil
    · exact List.nodup_nil

end ClojureBuild.World
