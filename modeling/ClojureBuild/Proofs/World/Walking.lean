import ClojureBuild.Proofs.Sorting
import ClojureBuild.Proofs.World.Tree
/-!
What a walk shows.

In a tree without links a walk shows the files below its root, as the descents from the root to
them; if hidden names are passed over, it shows those whose names are not hidden.
-/

namespace ClojureBuild

namespace World

variable {w : World}

/-- The names in a directory are those of the nodes in it. -/
theorem mem_childNames {loc : Location} {name : String} :
    name ∈ w.childNames loc ↔ ∃ node, w.node? (name :: loc) = some node := by
  rw [node?_isSome_iff (List.cons_ne_nil name loc)]
  refine mem_distinctBy.trans (List.mem_filterMap.trans ⟨?_, ?_⟩)
  · rintro ⟨⟨place, node⟩, hentry, hname⟩
    cases place with
    | nil => simp at hname
    | cons child up =>
        simp only [Option.ite_none_right_eq_some, Option.some.injEq] at hname
        obtain ⟨rfl, rfl⟩ := hname
        exact ⟨node, hentry⟩
  · rintro ⟨node, hentry⟩
    exact ⟨_, hentry, by simp⟩

theorem nodup_childNames (w : World) (loc : Location) : (w.childNames loc).Nodup :=
  nodup_distinctBy _

/-- The files that a walk shows below a directory. -/
def shownBelow (w : World) (all : Bool) (way : List (Location × Path)) (path : Path)
    (loc : Location) : List Path :=
  (w.walkDir all way path loc).filterMap Sighting.file?

theorem find?_eq_none_iff {way : List (Location × Path)} {target : Location} :
    way.find? (fun entry => entry.1 == target) = none ↔ target ∉ way.map Prod.fst := by
  rw [List.find?_eq_none, List.mem_map, not_exists]
  simp only [not_and, beq_iff_eq]

/-- The files that a walk shows at a name of a directory or below it, links followed. -/
def shownVia (w : World) (all : Bool) (way : List (Location × Path)) (path : Path) (loc : Location)
    (name : String) : List Path :=
  if !all && isHidden name then []
  else
    match w.node? (name :: loc) with
    | some (.file ..) => [path / name]
    | some (.dir _) =>
        w.shownBelow all ((name :: loc, path / name) :: way) (path / name) (name :: loc)
    | some (.link _) =>
        match w.stat (path / name) with
        | .ok (_, .file ..) => [path / name]
        | .ok (target, .dir _) =>
            if target ∈ way.map Prod.fst then []
            else w.shownBelow all ((target, path / name) :: way) (path / name) target
        | _ => []
    | _ => []

theorem shownBelow_of_error {all : Bool} {way : List (Location × Path)} {path : Path}
    {loc : Location} {cause : OsError} (hstat : w.stat path = .error cause) :
    w.shownBelow all way path loc = [] := by
  rw [shownBelow, walkDir, hstat]
  rfl

theorem exists_stat_of_mem_shownBelow {all : Bool} {way : List (Location × Path)} {path p : Path}
    {loc : Location} (h : p ∈ w.shownBelow all way path loc) :
    ∃ found, w.stat path = .ok found := by
  cases hstat : w.stat path with
  | error cause =>
      rw [shownBelow_of_error hstat] at h
      exact absurd h List.not_mem_nil
  | ok found => exact ⟨found, rfl⟩

/-- A walk shows, name by name of a directory that it opens, the files there and below. -/
theorem shownBelow_eq_flatMap (all : Bool) (way : List (Location × Path)) {path : Path}
    {found : Location × Node} (hstat : w.stat path = .ok found) (loc : Location) :
    w.shownBelow all way path loc = (w.childNames loc).flatMap (w.shownVia all way path loc) := by
  rw [shownBelow, walkDir, hstat, List.filterMap_flatMap]
  refine congrArg (List.flatMap · _) (funext fun name => ?_)
  unfold shownVia
  simp only
  split
  next hnode => simp [hnode]
  next hnode =>
      rw [hnode]
      split <;> simp [Sighting.file?, *]
  next hnode =>
      rw [hnode]
      split <;> simp [Sighting.file?, *]
  next hnode =>
      rw [hnode]
      split <;> simp [Sighting.file?, shownBelow, *]
  next hnode =>
      rw [hnode]
      split
      next hstat => simp [Sighting.file?, hstat]
      next hstat =>
          rw [hstat]
          split <;> simp [Sighting.file?, *]
      next hstat =>
          rw [hstat]
          split <;> simp [Sighting.file?, *]
      next hstat => simp [hstat]
      next target t hstat =>
          rw [hstat]
          split
          next entry hfind =>
              have hin : target ∈ way.map Prod.fst := by
                by_contra hnew
                exact absurd (find?_eq_none_iff.2 hnew) (by simp [hfind])
              simp only [if_pos hin]
              split <;> simp [Sighting.file?]
          next hfind =>
              simp only [if_neg (find?_eq_none_iff.1 hfind)]
              split <;> simp [Sighting.file?, shownBelow, *]

/-- The files that a walk shows at a name of a directory or below it. -/
def shownAt (w : World) (all : Bool) (way : List (Location × Path)) (path : Path) (loc : Location)
    (name : String) : List Path :=
  if !all && isHidden name then []
  else
    match w.node? (name :: loc) with
    | some (.file ..) => [path / name]
    | some (.dir _) =>
        w.shownBelow all ((name :: loc, path / name) :: way) (path / name) (name :: loc)
    | _ => []

theorem shownAt_of_isFile {all : Bool} {way : List (Location × Path)} {path : Path} {loc : Location}
    {name : String} (hpassed : (!all && isHidden name) = false)
    (hfile : (w.node? (name :: loc)).any Node.isFile = true) :
    w.shownAt all way path loc name = [path / name] := by
  obtain ⟨node, hnode, hisFile⟩ := (Option.any_eq_true _ _).1 hfile
  rw [shownAt, if_neg (by simp [hpassed]), hnode]
  cases node with
  | file content t x => rfl
  | dir t => simp [Node.isFile] at hisFile
  | link target => simp [Node.isFile] at hisFile
  | device t => simp [Node.isFile] at hisFile

theorem shownAt_of_dir {all : Bool} {way : List (Location × Path)} {path : Path} {loc : Location}
    {name : String} {t : Int} (hpassed : (!all && isHidden name) = false)
    (hnode : w.node? (name :: loc) = some (.dir t)) :
    w.shownAt all way path loc name =
      w.shownBelow all ((name :: loc, path / name) :: way) (path / name) (name :: loc) := by
  rw [shownAt, if_neg (by simp [hpassed]), hnode]

/-- In a directory without links a walk shows, name by name, the files there and below. -/
theorem shownBelow_eq {loc : Location}
    (hclear : ∀ (name link : String), w.node? (name :: loc) ≠ some (.link link)) (all : Bool)
    (way : List (Location × Path)) {path : Path} {found : Location × Node}
    (hstat : w.stat path = .ok found) :
    w.shownBelow all way path loc = (w.childNames loc).flatMap (w.shownAt all way path loc) := by
  rw [shownBelow_eq_flatMap all way hstat]
  refine congrArg (List.flatMap · _) (funext fun name => ?_)
  unfold shownVia shownAt
  cases hnode : w.node? (name :: loc) with
  | none => rfl
  | some node =>
      cases node with
      | file content t x => rfl
      | dir t => rfl
      | link link => exact absurd hnode (hclear name link)
      | device t => rfl

/-- Whether a walk passes over none of some names. -/
def Shown (all : Bool) (names : List String) : Prop :=
  all = true ∨ ∀ name ∈ names, isHidden name = false

theorem shown_cons {all : Bool} {name : String} {names : List String} :
    Shown all (name :: names) ↔ (!all && isHidden name) = false ∧ Shown all names := by
  cases all with
  | true => simp [Shown]
  | false => simp [Shown]

/-- A walk shows a file that has the name, or goes on below a directory that has it. -/
theorem mem_shownAt_iff {all : Bool} {way : List (Location × Path)} {path p : Path}
    {loc : Location} {name : String} :
    p ∈ w.shownAt all way path loc name ↔
      (!all && isHidden name) = false ∧
        ((w.node? (name :: loc)).any Node.isFile = true ∧ path / name = p ∨
          ∃ t, w.node? (name :: loc) = some (.dir t) ∧
            p ∈ w.shownBelow all ((name :: loc, path / name) :: way) (path / name)
              (name :: loc)) := by
  unfold shownAt
  by_cases hpassed : (!all && isHidden name) = true
  · simp [hpassed]
  · rw [if_neg hpassed]
    cases hnode : w.node? (name :: loc) with
    | none => simp
    | some node => cases node <;> simp [Node.isFile, hpassed, eq_comm]

/-- What holds of a place when it holds of the directories in it holds everywhere, since the tree is
not deeper than its longest location. -/
theorem below_induction (w : World) {motive : Location → Prop}
    (step : ∀ loc, (∀ name t, w.node? (name :: loc) = some (.dir t) → motive (name :: loc)) →
      motive loc) (loc : Location) : motive loc := by
  induction hdeep : w.depth - loc.length using Nat.strong_induction_on generalizing loc with
  | _ n ih =>
      refine step loc fun name t hnode => ?_
      have hlength := length_le_depth hnode
      rw [List.length_cons] at hlength
      exact ih _ (by simp only [List.length_cons]; omega) _ rfl

/-- A walk gets to the directory that holds a file below a root: the system takes the path of this
directory, and so that of each one above it. -/
def Opens (root : Path) (names : List OsText) : Prop :=
  (root.descend names.dropLast).text.length < pathLimit

instance (root : Path) (names : List OsText) : Decidable (Opens root names) :=
  inferInstanceAs (Decidable ((root.descend names.dropLast).text.length < pathLimit))

theorem Opens.root {root : Path} {names : List OsText} (h : Opens root names)
    (hnames : ∀ name ∈ names, Path.IsName name) : root.text.length < pathLimit :=
  (length_le_descend root fun name hname => hnames name (List.dropLast_subset _ hname)).trans_lt h

theorem opens_of_short {root : Path} {names : List OsText} (hne : names ≠ [])
    (hnames : ∀ name ∈ names, Path.IsName name)
    (hshort : (root.descend names).text.length < pathLimit) : Opens root names := by
  obtain ⟨front, last, rfl⟩ := (List.eq_nil_or_concat names).resolve_left hne
  rw [List.concat_eq_append] at hnames hshort ⊢
  rw [Path.descend_concat] at hshort
  rw [Opens, List.dropLast_concat]
  exact (length_le_div _ (hnames last (by simp))).trans_lt hshort

theorem opens_cons {root : Path} {name : OsText} {rest : List OsText} (hrest : rest ≠ []) :
    Opens root (name :: rest) ↔ Opens (root / name) rest := by
  rw [Opens, List.dropLast_cons_of_ne_nil hrest, Path.descend_cons, Opens]

/-- Where no link lies below the directory, a walk shows nothing but what lies there. -/
theorem exists_of_mem_shownBelow {all : Bool} {way : List (Location × Path)} {path p : Path}
    {loc : Location}
    (hclear : ∀ (names : List String) (link : String), w.node? (names ++ loc) ≠ some (.link link))
    (h : p ∈ w.shownBelow all way path loc) :
    ∃ names, names ≠ [] ∧ (w.node? (names.reverse ++ loc)).any Node.isFile = true ∧
      Opens path names ∧ Shown all names ∧ path.descend names = p := by
  induction loc using below_induction w generalizing way path with
  | step loc ih =>
      have hin : ∀ (name link : String), w.node? (name :: loc) ≠ some (.link link) := fun name =>
        hclear [name]
      obtain ⟨found, hstat⟩ := exists_stat_of_mem_shownBelow h
      rw [shownBelow_eq hin all way hstat, List.mem_flatMap] at h
      obtain ⟨name, -, hp⟩ := h
      obtain ⟨hpassed, ⟨hfile, hpath⟩ | ⟨t, hnode, hp⟩⟩ := mem_shownAt_iff.1 hp
      · have hshown : Shown all [] := Or.inr (by simp)
        exact ⟨[name], List.cons_ne_nil _ _, hfile, (askable_of_stat hstat).short,
          shown_cons.2 ⟨hpassed, hshown⟩, hpath⟩
      · have hbelow : ∀ (names : List String) (link : String),
            w.node? (names ++ name :: loc) ≠ some (.link link) := fun names =>
          List.append_cons names name loc ▸ hclear (names ++ [name])
        obtain ⟨names, hne, hfile, hopens, hshown, hpath⟩ := ih name t hnode hbelow hp
        refine ⟨name :: names, List.cons_ne_nil _ _, ?_, (opens_cons hne).2 hopens,
          shown_cons.2 ⟨hpassed, hshown⟩, hpath⟩
        rwa [List.reverse_cons, List.append_assoc]

/-- A walk shows what lies below the directory, unless it passes over a name on the way there or
does not get to the directory that holds the file. -/
theorem mem_shownBelow (hfree : w.LinkFree) (htree : w.IsTree) {all : Bool}
    {way : List (Location × Path)} {path p : Path} {loc : Location} {t : Int}
    (hstat : w.stat path = .ok (loc, .dir t)) :
    p ∈ w.shownBelow all way path loc ↔
      ∃ names, names ≠ [] ∧ (w.node? (names.reverse ++ loc)).any Node.isFile = true ∧
        Opens path names ∧ Shown all names ∧ path.descend names = p := by
  refine ⟨exists_of_mem_shownBelow fun _ => hfree.ne_link, ?_⟩
  induction loc using below_induction w generalizing way path t with
  | step loc ih =>
      rintro ⟨names, hne, hfile, hopens, hshown, rfl⟩
      rw [shownBelow_eq (fun _ => hfree.ne_link) all way hstat, List.mem_flatMap]
      obtain ⟨found, hfound, -⟩ := (Option.any_eq_true _ _).1 hfile
      have hnames : ∀ name ∈ names, Path.IsName name := fun name hname =>
        (htree.names hfound name (List.mem_reverse.2 hname)).toIsName
      obtain ⟨name, rest, rfl⟩ := List.exists_cons_of_ne_nil hne
      obtain ⟨hpassed, hshown⟩ := shown_cons.1 hshown
      rw [List.reverse_cons, List.append_assoc, List.singleton_append] at hfile
      obtain ⟨node, hnode, -⟩ := (Option.any_eq_true _ _).1 hfile
      by_cases hrest : rest = []
      · subst hrest
        exact ⟨name, mem_childNames.2 ⟨node, hnode⟩,
          mem_shownAt_iff.2 ⟨hpassed, Or.inl ⟨hfile, rfl⟩⟩⟩
      · obtain ⟨t, ht⟩ := isDirAt_iff.1 (htree.above (mt List.reverse_eq_nil_iff.1 hrest) hnode)
        refine ⟨name, mem_childNames.2 ⟨_, ht⟩, mem_shownAt_iff.2 ⟨hpassed, Or.inr ⟨t, ht, ?_⟩⟩⟩
        have hopens := (opens_cons hrest).1 hopens
        have hchild := stat_div hfree (htree.entry ht) hstat ht
          (hopens.root (List.forall_mem_cons.1 hnames).2)
        exact ih name t ht hchild ⟨rest, hrest, hfile, hopens, hshown, rfl⟩

/-- A root that a walk takes for a place in the tree: neither the empty path nor `-`. -/
structure Walkable (root : Path) : Prop where
  nonempty : root.text ≠ ""
  place : root.same ⟨"-"⟩ = false

instance (root : Path) : Decidable (Walkable root) :=
  decidable_of_iff (root.text ≠ "" ∧ root.same ⟨"-"⟩ = false)
    ⟨fun ⟨hnonempty, hplace⟩ => ⟨hnonempty, hplace⟩, fun h => ⟨h.nonempty, h.place⟩⟩

theorem filesUnder_eq {all : Bool} {root : Path} (hwalk : Walkable root) :
    w.filesUnder all root =
      match w.stat root with
      | .ok (loc, .dir _) => w.shownBelow all [(loc, root)] root loc
      | .ok (_, .file ..) => [root]
      | _ => [] := by
  rw [filesUnder, walk, hwalk.place, if_neg Bool.false_ne_true, List.filterMap_cons_none rfl]
  cases w.stat root with
  | error cause => rfl
  | ok found =>
      obtain ⟨loc, node⟩ := found
      cases node with
      | dir t => rfl
      | file content t executable => rfl
      | link target => rfl
      | device t => rfl

theorem fileBelow_iff {root : Path} {names : List String} {loc : Location} {t : Int}
    (hroot : w.stat root = .ok (loc, .dir t)) :
    w.FileBelow root names ↔
      names ≠ [] ∧ (w.node? (names.reverse ++ loc)).any Node.isFile = true := by
  constructor
  · rintro ⟨hne, loc', t', hroot', hfile⟩
    rw [hroot] at hroot'
    cases hroot'
    exact ⟨hne, hfile⟩
  · rintro ⟨hne, hfile⟩
    exact ⟨hne, loc, t, hroot, hfile⟩

/-- The files below a directory are among the entries there. -/
theorem FileBelow.mem_entriesBelow {root : Path} {names : List String} {loc : Location} {t : Int}
    (hroot : w.stat root = .ok (loc, .dir t)) (h : w.FileBelow root names) :
    names.reverse ∈ (w.entriesBelow loc).map Prod.fst := by
  obtain ⟨hne, hfile⟩ := (fileBelow_iff hroot).1 h
  obtain ⟨node, hnode, -⟩ := (Option.any_eq_true _ _).1 hfile
  have hplace : names.reverse ++ loc ≠ [] := by simp [hne]
  obtain ⟨found, hmem⟩ := (node?_isSome_iff hplace).1 ⟨node, hnode⟩
  refine List.mem_map.2 ⟨(names.reverse, found), List.mem_filterMap.2 ⟨_, hmem, ?_⟩, rfl⟩
  have hsuffix : loc.isSuffixOf (names.reverse ++ loc) = true := by
    rw [List.isSuffixOf_iff_suffix]
    exact List.suffix_append _ _
  simp [hsuffix]

/-- A walk from a root shows the files below it that it gets to, or the root itself when that is a
file. -/
theorem mem_filesUnder (hfree : w.LinkFree) (htree : w.IsTree) {all : Bool} {root p : Path}
    (hwalk : Walkable root) :
    p ∈ w.filesUnder all root ↔
      (w.isFile root = true ∧ p = root) ∨
        ∃ names, w.FileBelow root names ∧ Opens root names ∧ Shown all names ∧
          root.descend names = p := by
  have hnone : (∀ loc t, w.stat root ≠ .ok (loc, .dir t)) → ∀ names, ¬ w.FileBelow root names := by
    rintro hnot names ⟨-, loc, t, hroot, -⟩
    exact hnot loc t hroot
  rw [filesUnder_eq hwalk, isFile]
  cases hstat : w.stat root with
  | error cause => simp [hnone (by simp [hstat])]
  | ok found =>
      obtain ⟨loc, node⟩ := found
      cases node with
      | dir t =>
          simp only [mem_shownBelow hfree htree hstat, fileBelow_iff hstat, Node.isFile,
            Bool.false_eq_true, false_and, false_or, and_assoc]
      | file content t executable => simp [Node.isFile, hnone (by simp [hstat])]
      | link target => simp [Node.isFile, hnone (by simp [hstat])]
      | device t => simp [Node.isFile, hnone (by simp [hstat])]

end World

end ClojureBuild
