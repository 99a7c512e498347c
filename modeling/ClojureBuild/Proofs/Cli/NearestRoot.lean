import ClojureBuild.Cli.Project
import ClojureBuild.Proofs.Path.Leading
import ClojureBuild.Proofs.World.Entering
/-!
The search for a project.

A command that is told of no configuration looks for one in the current directory and then in those
above it.  Main statement: what is found is the longest leading part of the start that holds a
configuration, whatever stands anywhere else.  Only what a look-up finds counts: a link that leads
nowhere is no configuration.
-/

namespace ClojureBuild.Cli.Project

open World ClojureBuild.Path

variable {w : World} {start dir : Path}

/-- A directory holds a configuration: looking for the configuration behind its path leads to
something. -/
def Holds (w : World) (dir : Path) : Prop := w.pathExists (dir / Config.fileName) = true

/-- The longest leading part of a path that holds a configuration. -/
structure Nearest (w : World) (start dir : Path) : Prop where
  leading : Leading start dir
  holds : Holds w dir
  longest : ∀ other, Leading start other → Holds w other →
    other.components.length ≤ dir.components.length

theorem findRoot?_eq (w : World) (start : Path) :
    findRoot? w start =
      if w.pathExists (start / Config.fileName) then some start
      else start.parent?.elim none (findRoot? w) := by
  rw [findRoot?, ancestors_eq, List.find?_cons]
  cases w.pathExists (start / Config.fileName) with
  | true => rfl
  | false => cases start.parent? <;> rfl

theorem nearest_of_findRoot? (h : findRoot? w start = some dir) : Nearest w start dir := by
  obtain ⟨hholds, before, behind, hsplit, hbefore⟩ := List.find?_eq_some_iff_append.1 h
  have hpairwise := pairwise_ancestors start
  rw [hsplit, List.pairwise_append] at hpairwise
  refine ⟨mem_ancestors_iff_leading.1 (by rw [hsplit]; simp), hholds, ?_⟩
  intro other hother hholds'
  rw [← mem_ancestors_iff_leading, hsplit, List.mem_append, List.mem_cons] at hother
  rcases hother with hin | rfl | hin
  · have hnot := hbefore other hin
    rw [Holds] at hholds'
    simp [hholds'] at hnot
  · exact le_rfl
  · exact (List.rel_of_pairwise_cons hpairwise.2.1 hin).le

theorem findRoot?_eq_none_iff :
    findRoot? w start = none ↔ ∀ dir, Leading start dir → ¬ Holds w dir := by
  rw [findRoot?, List.find?_eq_none]
  exact forall_congr' fun dir => by rw [mem_ancestors_iff_leading, Holds]

theorem eq_of_leading {dir' : Path} (h : Leading start dir) (h' : Leading start dir')
    (hlength : dir.components.length = dir'.components.length) : dir = dir' := by
  have hnodup : ((ancestors start).map fun a => a.components.length).Nodup :=
    List.pairwise_map.2 ((pairwise_ancestors start).imp fun hless => hless.ne')
  exact List.inj_on_of_nodup_map hnodup (mem_ancestors_iff_leading.2 h)
    (mem_ancestors_iff_leading.2 h') hlength

theorem findRoot?_eq_some_iff : findRoot? w start = some dir ↔ Nearest w start dir := by
  refine ⟨nearest_of_findRoot?, fun h => ?_⟩
  cases hfound : findRoot? w start with
  | none => exact absurd h.holds (findRoot?_eq_none_iff.1 hfound dir h.leading)
  | some found =>
      have hnearest := nearest_of_findRoot? hfound
      have hlength := Nat.le_antisymm (h.longest found hnearest.leading hnearest.holds)
        (hnearest.longest dir h.leading h.holds)
      rw [eq_of_leading hnearest.leading h.leading hlength]

/-! ### What holds a configuration -/

theorem isName_configuration : EntryName Config.fileName := by decide

/-- What holds a configuration leads into a directory with an entry of that name. -/
theorem exists_entry_of_holds (h : Holds w dir) :
    ∃ loc node, w.Enters dir loc ∧ w.node? (Config.fileName :: loc) = some node := by
  rw [Holds, pathExists] at h
  cases hstat : w.stat (dir / Config.fileName) with
  | error e => simp [hstat] at h
  | ok found =>
      have hresolve : w.resolve true (dir.descend [Config.fileName]) = .ok (.taken found.1) :=
        (stat_eq_ok.1 hstat).1
      obtain ⟨loc, jump, henters, htraverse, -⟩ := exists_of_resolve_descend (by simp)
        (by simpa using isName_configuration.toIsName) hresolve
      refine ⟨loc, ?_⟩
      cases hnode : w.node? (Config.fileName :: loc) with
      | some node => exact ⟨node, henters, rfl⟩
      | none =>
          rw [List.map_singleton, World.traverse, hnode] at htraverse
          split at htraverse
          · exact absurd htraverse (by simp)
          · simp only at htraverse
            split at htraverse <;> exact absurd htraverse (by simp)

/-- An entry of that name makes a directory one that holds a configuration, unless the entry is a
link or its path cannot be looked up. -/
theorem holds_of_entry {loc : Location} {node : Node} (henters : w.Enters dir loc)
    (hdir : w.isDirAt loc = true) (hnode : w.node? (Config.fileName :: loc) = some node)
    (hlink : node.isLink = false) (hask : Askable (dir / Config.fileName)) : Holds w dir := by
  have hstat : w.stat (dir / Config.fileName) = .ok (Config.fileName :: loc, node) :=
    stat_div_of_solid isName_configuration henters hdir hnode hlink hask
  rw [Holds, pathExists, hstat]

/-! ### The nearest configuration -/

/-- The search goes up component by component and ends.  It finds the longest leading part of the
start that holds a configuration, and fails exactly when none does; nothing that stands above what
it finds, or anywhere else, makes a difference.  A leading part that holds a configuration leads to
a directory with an entry of that name, and such a directory holds one if the entry is no link and
its path can be looked up. -/
theorem findRoot?_nearest (w : World) (start : Path) :
    findRoot? w start =
        (if w.pathExists (start / Config.fileName) then some start
        else start.parent?.elim none (findRoot? w)) ∧
      (∀ up, start.parent? = some up → up.components.length + 1 = start.components.length) ∧
      (∀ dir, findRoot? w start = some dir ↔ Nearest w start dir) ∧
      (findRoot? w start = none ↔ ∀ dir, Leading start dir → ¬ Holds w dir) ∧
      (∀ dir w', findRoot? w start = some dir →
        (∀ other, Leading start other → dir.components.length ≤ other.components.length →
          (Holds w' other ↔ Holds w other)) → findRoot? w' start = some dir) ∧
      ∀ dir, Leading start dir →
        (Holds w dir →
          ∃ loc node, w.Enters dir loc ∧ w.node? (Config.fileName :: loc) = some node) ∧
        ∀ loc node, w.Enters dir loc → w.isDirAt loc = true →
          w.node? (Config.fileName :: loc) = some node → node.isLink = false →
            Askable (dir / Config.fileName) → Holds w dir := by
  refine ⟨findRoot?_eq w start, fun up hup => ?_, fun _ => findRoot?_eq_some_iff,
    findRoot?_eq_none_iff, fun dir w' hfound hsame => ?_, fun dir _ => ⟨exists_entry_of_holds,
      fun _ _ henters hdir hnode hlink hask => holds_of_entry henters hdir hnode hlink hask⟩⟩
  · obtain ⟨-, -, -, last, hcomponents⟩ := front_of_parent? hup
    rw [hcomponents, List.length_append, List.length_singleton]
  · have hnearest := nearest_of_findRoot? hfound
    refine findRoot?_eq_some_iff.2 ⟨hnearest.leading,
      (hsame dir hnearest.leading le_rfl).2 hnearest.holds, fun other hother hholds => ?_⟩
    by_contra hlonger
    have hlength := (Nat.lt_of_not_le hlonger).le
    exact hlonger (hnearest.longest other hother ((hsame other hother hlength).1 hholds))

/-- A directory whose configuration is a link that leads nowhere, below one with a configuration. -/
def danglingWorld : World :=
  ⟨[(["kiln.toml"], .file ByteArray.empty 0 false), (["p"], .dir 0),
    (["kiln.toml", "p"], .link "nowhere")], ["p"], 0⟩

/-- A link that leads nowhere is passed by, although it is an entry of that name in a longer leading
part than the one that is found. -/
theorem findRoot?_passes_link :
    findRoot? danglingWorld danglingWorld.cwdPath = some ⟨"/"⟩ ∧
      Leading danglingWorld.cwdPath ⟨"/p"⟩ ∧
      (⟨"/"⟩ : Path).components.length < (⟨"/p"⟩ : Path).components.length ∧
      danglingWorld.Enters ⟨"/p"⟩ ["p"] ∧
      danglingWorld.node? (Config.fileName :: ["p"]) = some (.link "nowhere") := by
  have hstart : (⟨"/p"⟩ : Path) ∈ ancestors danglingWorld.cwdPath := by decide +kernel
  have henters : danglingWorld.Enters ⟨"/p"⟩ ["p"] := by
    rw [Enters]
    decide +kernel
  exact ⟨by decide +kernel, mem_ancestors_iff_leading.1 hstart, by decide, henters, rfl⟩

end ClojureBuild.Cli.Project
