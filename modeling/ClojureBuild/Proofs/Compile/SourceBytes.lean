import ClojureBuild.Proofs.Compile.Phases
import ClojureBuild.Proofs.Planning.Plan
import ClojureBuild.Proofs.Rules.Writes
/-!
What a compilation does to the bytes of its sources.

Nothing relates the target to the source roots, so the copy of one source may be written onto
another, or onto itself.  Main statement: as long as the compilers leave the sources alone, a source
holds what the last copy to its place put there, or else what it held, whether the compilation
succeeds or fails; so it is unharmed exactly when that copy, if there is one, carries its own bytes.
-/

namespace ClojureBuild

open World (Keeps makeDirs_keeps)
open Rules (lastWrite?)

theorem CompilePlan.careful {run : Runner} {kept : Location → Prop} (plan : CompilePlan)
    (hrun : ∀ invocation, Task.Moves (Keeps kept) (run invocation)) :
    (plan.graph run).Careful kept := by
  intro action haction
  obtain rfl := List.mem_singleton.1 haction
  exact compileAction_leads (routine_of_world makeDirs_keeps) plan.target (hrun _)

/-- The writes of the copies that a compilation carries out, in order. -/
def compileWrites (t : Toolchain) (o : CompileOptions) (run : Runner) (force : Bool)
    (request : CompileRequest) (s : Session) : List Rules.Write :=
  match (planCompile t o request).runIn s with
  | (.ok plan, s') => Rules.executeWrites force (plan.graph run) s'
  | (.error _, _) => []

/-- After a compilation a kept file holds what the last copy to it put there, or what it held. -/
theorem contentAt_compile (t : Toolchain) (o : CompileOptions) {run : Runner} (force : Bool)
    (request : CompileRequest) {kept : Location → Prop}
    (hrun : ∀ invocation, Task.Moves (Keeps kept) (run invocation)) {s : Session} {loc : Location}
    (hkept : kept loc) {content : ByteArray} (h : s.world.contentAt loc = some content) :
    ((compile t o run force request).runIn s).2.world.contentAt loc =
      some ((lastWrite? (compileWrites t o run force request s) loc).getD content) := by
  rw [compileWrites]
  rcases hplan : (planCompile t o request).runIn s with ⟨result, s'⟩
  rw [← (planCompile_untouched hplan).1] at h
  cases result with
  | error e =>
      rw [compile_of_planCompile_error hplan]
      exact h
  | ok plan =>
      have hexecute := Rules.contentAt_execute (plan.careful hrun) force hkept h
      rcases hrules : (Rules.execute force (plan.graph run)).runIn s' with ⟨outcome, s''⟩
      rw [hrules] at hexecute
      cases outcome with
      | error e =>
          rw [compile_of_execute_error hplan hrules]
          exact hexecute
      | ok report =>
          rw [session_compile hplan hrules]
          exact Delegate.dispatch_leads (routine_of_world makeDirs_keeps) t o (fun _ _ _ => hrun _)
            ⟨request.sources, plan.target, plan.classpath⟩ s'' loc hkept _ hexecute

/-- The writes of a compilation are copies of mirrored sources. -/
theorem exists_of_mem_compileWrites {t : Toolchain} {o : CompileOptions} {run : Runner}
    {force : Bool} {request : CompileRequest} {s : Session} {write : Rules.Write}
    (h : write ∈ compileWrites t o run force request s) :
    ∃ plan s', (planCompile t o request).runIn s = (.ok plan, s') ∧ ∃ c ∈ plan.mirror.copies, ∃ w,
      Rules.Rule.write? ⟨c.target, c.source, .copy⟩ w = some write := by
  rw [compileWrites] at h
  split at h
  next plan s' hplan =>
      obtain ⟨rule, hrule, hcopy, w, hwrite⟩ := Rules.exists_of_mem_executeWrites h
      refine ⟨plan, s', hplan, ?_⟩
      rcases List.mem_append.1 hrule with hcompile | hmirror
      · obtain ⟨found, -, rfl⟩ := List.mem_map.1 hcompile
        exact absurd hcopy (by simp [Survey.ruleFor])
      · obtain ⟨c, hc, rfl⟩ := List.mem_map.1 hmirror
        exact ⟨c, hc, w, hwrite⟩
  next => exact absurd h List.not_mem_nil

/-- A source is unharmed exactly when the last copy to its place, if there is one, carries its own
bytes; and all copies are those of mirrored sources. -/
theorem source_unharmed_iff (t : Toolchain) (o : CompileOptions) {run : Runner} (force : Bool)
    (request : CompileRequest) {kept : Location → Prop}
    (hrun : ∀ invocation, Task.Moves (Keeps kept) (run invocation)) {s : Session} {loc : Location}
    (hkept : kept loc) {content : ByteArray} (h : s.world.contentAt loc = some content) :
    (((compile t o run force request).runIn s).2.world.contentAt loc = some content ↔
      ∀ bytes, lastWrite? (compileWrites t o run force request s) loc = some bytes →
        bytes = content) ∧
    ∀ write ∈ compileWrites t o run force request s, ∃ plan s',
      (planCompile t o request).runIn s = (.ok plan, s') ∧ ∃ c ∈ plan.mirror.copies, ∃ w,
        Rules.Rule.write? ⟨c.target, c.source, .copy⟩ w = some write := by
  refine ⟨?_, fun write hwrite => exists_of_mem_compileWrites hwrite⟩
  rw [contentAt_compile t o force request hrun hkept h]
  cases lastWrite? (compileWrites t o run force request s) loc with
  | none => simp
  | some bytes => simp

/-- A tree with one source file. -/
def selfSession : Session where
  world := {
    nodes := [(["src"], .dir 0), (["a.clj", "src"], .file "(ns a)".toUTF8 0 false)]
    cwd := []
    clock := 1 }
  journal := []

/-- A compilation of no units whose target is the source root. -/
def selfOptions : CompileOptions := { (default : CompileOptions) with libs := some [] }

/-- Compilers that have nothing to do. -/
def idleRunner : Runner := fun _ => pure ()

/-- With the root as its target the source is copied onto itself, which empties it. -/
theorem source_unharmed_iff_self :
    selfSession.world.contentAt ["a.clj", "src"] = some "(ns a)".toUTF8 ∧
      lastWrite? (compileWrites default selfOptions idleRunner true
        ⟨[⟨"src"⟩], ⟨"src"⟩, []⟩ selfSession) ["a.clj", "src"] = some ByteArray.empty ∧
      ((compile default selfOptions idleRunner true ⟨[⟨"src"⟩], ⟨"src"⟩, []⟩).runIn
        selfSession).2.world.contentAt ["a.clj", "src"] ≠ some "(ns a)".toUTF8 := by
  have hbefore : selfSession.world.contentAt ["a.clj", "src"] = some "(ns a)".toUTF8 := rfl
  have hwrite : lastWrite? (compileWrites default selfOptions idleRunner true
      ⟨[⟨"src"⟩], ⟨"src"⟩, []⟩ selfSession) ["a.clj", "src"] = some ByteArray.empty := by
    decide +kernel
  have hidle : ∀ invocation,
      Task.Moves (Keeps fun loc => loc = ["a.clj", "src"]) (idleRunner invocation) :=
    fun _ => Task.Moves.pure ()
  have hiff := (source_unharmed_iff default selfOptions true ⟨[⟨"src"⟩], ⟨"src"⟩, []⟩
    hidle rfl hbefore).1
  refine ⟨hbefore, hwrite, fun hafter => ?_⟩
  exact absurd (hiff.1 hafter ByteArray.empty hwrite) (by decide)

end ClojureBuild
