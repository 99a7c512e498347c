import ClojureBuild.Proofs.Planning.Partition
/-!
Which sources a plan covers.

A source file is copied when a walk gets to it from some root under a unit that is not compiled, and
compiled when it is the source file of a requested unit.  A file whose unit is requested, but whose
name does not come back from that unit, is neither, and the plan says nothing about it.  Main
statement: these are all the ways to be covered, and a file with canonical names always is.
-/

namespace ClojureBuild

open World (FileBelow Walkable Opens)

/-- Some rule of the plan starts from the file at a place. -/
def CompilePlan.Covers (plan : CompilePlan) (w : World) (place : Location) : Prop :=
  ∃ rule ∈ plan.rules, w.spelled rule.source = place

/-- A requested unit has its source file at a place. -/
def CompilePlan.Requests (plan : CompilePlan) (w : World) (roots : List Path) (place : Location) :
    Prop :=
  ∃ root ∈ roots, ∃ u ∈ plan.libs, w.isFile (u.sourceFile root) = true ∧
    w.spelled (u.sourceFile root) = place

/-- From some root a walk gets to the file at a place, under a unit that is not requested. -/
def CompilePlan.Leaves (plan : CompilePlan) (w : World) (roots : List Path) (place : Location) :
    Prop :=
  ∃ root ∈ roots, ∃ names u, w.ClojureBelow root names ∧ Opens root names ∧
    w.spelled (root.descend names) = place ∧ unitOf root (root.descend names) = some u ∧
      u ∉ plan.libs

/-- The sources of a plan's rules: the files of requested units, and the files that are copied. -/
theorem Planned.exists_rule_iff {w : World} {o : CompileOptions} {request : CompileRequest}
    {plan : CompilePlan} (hplan : Planned w o request plan) (hfree : w.LinkFree)
    (htree : w.IsTree) (hwalk : ∀ root ∈ sourceRoots w request.sources, Walkable root)
    (p : Path) :
    (∃ rule ∈ plan.rules, rule.source = p) ↔
      (∃ root ∈ sourceRoots w request.sources, ∃ u ∈ plan.libs,
        w.isFile (u.sourceFile root) = true ∧ u.sourceFile root = p) ∨
      (∃ root ∈ sourceRoots w request.sources, ∃ names u, w.ClojureBelow root names ∧
        Opens root names ∧ unitOf root (root.descend names) = some u ∧ u ∉ plan.libs ∧
          root.descend names = p) := by
  rw [hplan.rules_eq]
  constructor
  · rintro ⟨rule, hrule, rfl⟩
    rcases (mem_plannedRules_iff hfree htree hwalk hplan.succeeds).1 hrule with
      ⟨root, hroot, u, hu, hfile, rfl⟩ | ⟨root, hroot, names, u, hbelow, hopens, hunit, hmem, rfl⟩
    · dsimp only
      exact Or.inl ⟨root, hroot, u, hu, hfile, rfl⟩
    · dsimp only
      exact Or.inr ⟨root, hroot, names, u, hbelow, hopens, hunit, hmem, rfl⟩
  · rintro (⟨root, hroot, u, hu, hfile, rfl⟩ |
      ⟨root, hroot, names, u, hbelow, hopens, hunit, hmem, rfl⟩)
    · exact ⟨⟨u.initArtifact plan.target, u.sourceFile root, .invoke 0⟩,
        (mem_plannedRules_iff hfree htree hwalk hplan.succeeds).2
          (Or.inl ⟨root, hroot, u, hu, hfile, rfl⟩), by dsimp only⟩
    · exact ⟨⟨plan.target.descend names, root.descend names, .copy⟩,
        (mem_plannedRules_iff hfree htree hwalk hplan.succeeds).2
          (Or.inr ⟨root, hroot, names, u, hbelow, hopens, hunit, hmem, rfl⟩), by dsimp only⟩

/-- A source file is covered exactly when it is the file of a requested unit, or a walk gets to it
from some root under a unit that is not requested.  With canonical names it is covered, as long as
the system takes its path. -/
theorem covers_iff {t : Toolchain} {o : CompileOptions} {request : CompileRequest}
    {s s' : Session} {plan : CompilePlan}
    (hplan : (planCompile t o request).runIn s = (.ok plan, s')) (hfree : s.world.LinkFree)
    (htree : s.world.IsTree)
    (hplace : ∀ root ∈ sourceRoots s.world request.sources, root.same ⟨"-"⟩ = false)
    {root : Path} (hroot : root ∈ sourceRoots s.world request.sources) {names : List String}
    (hbelow : s.world.ClojureBelow root names) :
    (plan.Covers s.world (s.world.spelled (root.descend names)) ↔
      plan.Requests s.world (sourceRoots s.world request.sources)
          (s.world.spelled (root.descend names)) ∨
        plan.Leaves s.world (sourceRoots s.world request.sources)
          (s.world.spelled (root.descend names))) ∧
    (Canonical names → (root.descend names).text.length < World.pathLimit →
      plan.Covers s.world (s.world.spelled (root.descend names))) := by
  have hwalk : ∀ root ∈ sourceRoots s.world request.sources, Walkable root :=
    fun root hroot => walkable_of_mem_sourceRoots hroot (hplace root hroot)
  have hrules := (planned_of_runIn hplan).exists_rule_iff hfree htree hwalk
  refine ⟨⟨?_, ?_⟩, ?_⟩
  · rintro ⟨rule, hrule, hspelled⟩
    rcases (hrules rule.source).1 ⟨rule, hrule, rfl⟩ with
      ⟨root', hroot', u, hu, hfile, hsource⟩ |
      ⟨root', hroot', names', u, hbelow', hopens, hunit, hmem, hsource⟩
    · rw [← hsource] at hspelled
      exact Or.inl ⟨root', hroot', u, hu, hfile, hspelled⟩
    · rw [← hsource] at hspelled
      exact Or.inr ⟨root', hroot', names', u, hbelow', hopens, hspelled, hunit, hmem⟩
  · rintro (⟨root', hroot', u, hu, hfile, hspelled⟩ |
      ⟨root', hroot', names', u, hbelow', hopens, hspelled, hunit, hmem⟩)
    · obtain ⟨rule, hrule, hsource⟩ := (hrules _).2 (Or.inl ⟨root', hroot', u, hu, hfile, rfl⟩)
      exact ⟨rule, hrule, by rw [hsource, hspelled]⟩
    · obtain ⟨rule, hrule, hsource⟩ :=
        (hrules _).2 (Or.inr ⟨root', hroot', names', u, hbelow', hopens, hunit, hmem, rfl⟩)
      exact ⟨rule, hrule, by rw [hsource, hspelled]⟩
  · intro hcanonical hshort
    obtain ⟨n, rfl⟩ := exists_sourceName htree hbelow hcanonical
    have hsome : ∃ rule ∈ plan.rules, rule.source = root.descend n.file := by
      refine (hrules _).2 ?_
      by_cases hmem : n.unit ∈ plan.libs
      · have hsource := n.sourceFile_unit root
        refine Or.inl ⟨root, hroot, n.unit, hmem, ?_, hsource⟩
        rw [hsource]
        exact (World.isFile_descend_iff hfree htree (hwalk root hroot).nonempty n.file_ne_nil
          n.file_isName).2 ⟨hbelow.1, hshort⟩
      · exact Or.inr ⟨root, hroot, n.file, n.unit, hbelow,
          World.opens_of_short n.file_ne_nil n.file_isName hshort, n.unitOf_file root, hmem, rfl⟩
    obtain ⟨rule, hrule, hsource⟩ := hsome
    exact ⟨rule, hrule, by rw [hsource]⟩

/-- A tree with one source file, whose name holds a hyphen. -/
def hyphenSession : Session where
  world := {
    nodes := [(["src"], .dir 0), (["a-b.clj", "src"], .file ByteArray.empty 0 false)]
    cwd := []
    clock := 1 }
  journal := []

/-- A request for the unit that the root shows the file under. -/
def hyphenOptions : CompileOptions := { (default : CompileOptions) with libs := some [⟨"a-b"⟩] }

/-- The file with a hyphen is not covered: its unit is requested, but has its source elsewhere. -/
theorem covers_iff_hyphen :
    ∃ plan s', (planCompile default hyphenOptions ⟨[⟨"src"⟩], ⟨"out"⟩, []⟩).runIn hyphenSession =
        (.ok plan, s') ∧
      hyphenSession.world.ClojureBelow ⟨"src"⟩ ["a-b.clj"] ∧
      ¬ plan.Covers hyphenSession.world ["a-b.clj", "src"] ∧
      ¬ (plan.Requests hyphenSession.world [⟨"src"⟩] ["a-b.clj", "src"] ∨
        plan.Leaves hyphenSession.world [⟨"src"⟩] ["a-b.clj", "src"]) := by
  have hrules : ((planCompile default hyphenOptions ⟨[⟨"src"⟩], ⟨"out"⟩, []⟩).runIn
      hyphenSession).1.toOption.map CompilePlan.rules = some [] := by
    decide +kernel
  rcases hplan : (planCompile default hyphenOptions ⟨[⟨"src"⟩], ⟨"out"⟩, []⟩).runIn
    hyphenSession with ⟨cause | plan, s'⟩
  · rw [hplan] at hrules
    exact absurd hrules (by simp [Except.toOption])
  · rw [hplan] at hrules
    have hempty : plan.rules = [] := Option.some.inj hrules
    have hbelow : hyphenSession.world.ClojureBelow ⟨"src"⟩ ["a-b.clj"] :=
      ⟨⟨List.cons_ne_nil _ _, ["src"], 0, rfl, by decide +kernel⟩, by decide +kernel⟩
    have hnot : ¬ plan.Covers hyphenSession.world ["a-b.clj", "src"] := by
      rintro ⟨rule, hrule, -⟩
      rw [hempty] at hrule
      exact absurd hrule List.not_mem_nil
    have hroot : (⟨"src"⟩ : Path) ∈ sourceRoots hyphenSession.world [⟨"src"⟩] := by
      decide +kernel
    have hiff := (covers_iff hplan (by decide +kernel) (by decide +kernel) (by decide +kernel)
      hroot hbelow).1
    exact ⟨plan, s', rfl, hbelow, hnot, fun h => hnot (hiff.2 h)⟩

end ClojureBuild
