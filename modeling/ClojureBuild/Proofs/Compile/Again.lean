import ClojureBuild.Proofs.Compile.Phases
import ClojureBuild.Proofs.Planning.Plan
import ClojureBuild.Proofs.Rules.Settled
import ClojureBuild.Process.Scripted
/-!
Compiling twice.

The second of two compilations plans anew, over files that the first has written.  Main statement:
if nothing else has changed, the second has nothing to do about any rule that the first had already
and whose source kept its time.  So it is idle exactly when the rules that are new to it, and those
whose sources were written to, find their targets fresh.  A target below a source root makes new
rules: the copies of the first compilation are sources of the second.
-/

namespace ClojureBuild

variable {t : Toolchain} {o : CompileOptions} {run : Runner} {request : CompileRequest}
  {plan : CompilePlan}

/-- The compiler, when it succeeds, has written the loader of every unit of a plan. -/
def Runner.Compiles (run : Runner) (plan : CompilePlan) : Prop :=
  ∀ before after, (run plan.invocation).runIn before = (.ok (), after) →
    ∀ u ∈ plan.libs, after.world.Holds (u.initArtifact plan.target) before.world.clock

/-- Programs take nothing away that the rules of a plan make, and put nothing of it back to an
earlier time. -/
def Runner.Spares (run : Runner) (plan : CompilePlan) : Prop :=
  ∀ i, Task.Moves (World.Spares (plan.graph run).Targets) (run i)

/-- The action of a plan makes the target of every compile rule. -/
theorem CompilePlan.makes {w : World} (hplan : Planned w o request plan)
    (hcompiles : Runner.Compiles run plan) {rule : Rules.Rule} (hrule : rule ∈ plan.rules) :
    (plan.graph run).Makes rule := by
  intro n hn
  rcases List.mem_append.1 hrule with hcompile | hmirror
  · obtain ⟨x, hx, rfl⟩ := List.mem_map.1 hcompile
    obtain rfl : 0 = n := Rules.RuleAction.invoke.inj hn
    refine ⟨compileAction run plan.invocation plan.target, rfl, fun before after hran => ?_⟩
    obtain ⟨mid, hmid, hran⟩ := exists_of_compileAction_eq_ok hran
    have hmem : x.id ∈ plan.libs := hplan.located_sublist.subset (List.mem_map_of_mem hx)
    have hheld := hcompiles mid after hran x.id hmem
    rw [hmid, (World.makeDirs_renewed before.world plan.target).clock] at hheld
    rw [Survey.target_ruleFor]
    exact hheld
  · obtain ⟨c, -, rfl⟩ := List.mem_map.1 hmirror
    exact absurd hn (by simp)

section

variable {s planned s' again : Session} {summary : CompileSummary}

/-- After a compilation that succeeds, no target is older than its source was. -/
theorem holds_of_compile (hordinary : s.world.Ordinary)
    (hspares : Runner.Spares run plan) (hcompiles : Runner.Compiles run plan)
    (hplan : (planCompile t o request).runIn s = (.ok plan, planned))
    (hrun : (compile t o run false request).runIn s = (.ok summary, s')) {rule : Rules.Rule}
    (hrule : rule ∈ plan.rules) {made : Int} (hmade : s.world.modified rule.source = .ok made)
    (hpast : made ≤ s.world.clock) : s'.world.Holds rule.target made := by
  rw [← (planCompile_untouched hplan).1] at hordinary hmade hpast
  obtain ⟨report, mid, mixed, hrules, hdispatch, -⟩ := exists_of_compile_eq_ok hplan hrun
  have hroutine : Routine (InvImage (World.Spares (plan.graph run).Targets) Session.world) :=
    routine_of_world fun w p => (World.makeDirs_renewed w p).spares _
  have hactions : ∀ action ∈ (plan.graph run).actions,
      Task.Moves (World.Spares (plan.graph run).Targets) action.task := by
    intro action haction
    obtain rfl := List.mem_singleton.1 haction
    exact compileAction_leads hroutine plan.target (hspares plan.invocation)
  have hsteady := Rules.Graph.steady_of_spares hactions
    fun rule hrule => CompilePlan.makes (planned_of_runIn hplan) hcompiles hrule
  have hmid := hsteady.holds_of_execute hordinary hrules hrule hmade hpast
  have hclock := (hsteady.execute hrules).clock hordinary
  have hlast := Delegate.dispatch_leads hroutine t o (fun _ _ _ => hspares _)
    ⟨request.sources, plan.target, plan.classpath⟩ mid
  rw [hdispatch] at hlast
  exact hlast.holds ⟨rule, hrule, rfl⟩ (Int.le_trans hpast hclock) hmid

/-! ### The second call -/

/-- A call can be planned, and there is nothing to do about any rule of its plan. -/
def IdleCompile (t : Toolchain) (o : CompileOptions) (run : Runner) (request : CompileRequest)
    (s : Session) : Prop :=
  ∃ plan planned, (planCompile t o request).runIn s = (.ok plan, planned) ∧
    (plan.graph run).Idle planned

theorem idleCompile_iff :
    IdleCompile t o run request s ↔
      ∃ plan planned, (planCompile t o request).runIn s = (.ok plan, planned) ∧
        ∀ rule ∈ plan.rules, Rules.Freshness.check s.world rule.source rule.target =
          (.ok .fresh : Except (Rules.Failure BuildError.ActionCause) Rules.Freshness) := by
  refine exists_congr fun plan => exists_congr fun planned => and_congr_right fun hplan => ?_
  rw [Rules.Graph.idle_iff, (planCompile_untouched hplan).1]
  rfl

/-- A call that succeeds did nothing about its rules exactly when there was nothing to do. -/
theorem noop_iff_idleCompile
    (hrun : (compile t o run false request).runIn s = (.ok summary, s')) :
    (summary.report.isNoop = true ∧ summary.report.actionsRun = 0 ∧ summary.report.copied = []) ↔
      IdleCompile t o run request s := by
  rcases hplan : (planCompile t o request).runIn s with ⟨result, planned⟩
  cases result with
  | error e =>
      rw [compile, Task.runIn_bind, hplan] at hrun
      exact absurd (Prod.mk.inj hrun).1 (by simp)
  | ok plan =>
      obtain ⟨report, mid, mixed, hrules, -, rfl⟩ := exists_of_compile_eq_ok hplan hrun
      have hidle : (plan.graph run).Idle planned ↔ report.isNoop = true :=
        Rules.Graph.idle_iff.trans (Rules.isNoop_iff_of_execute hrules).symm
      have hcall : IdleCompile t o run request s ↔ (plan.graph run).Idle planned := by
        constructor
        · rintro ⟨plan', planned', hplan', hnone⟩
          obtain ⟨hsame, rfl⟩ := Prod.mk.inj (hplan.symm.trans hplan')
          rwa [Except.ok.inj hsame]
        · exact fun hnone => ⟨plan, planned, hplan, hnone⟩
      rw [hcall, hidle]
      constructor
      · exact fun hnoop => hnoop.1
      · intro hnoop
        refine ⟨hnoop, Rules.actionsRun_eq_zero_of_isNoop hrules hnoop, ?_⟩
        rw [Rules.Report.isNoop, Bool.and_eq_true, List.isEmpty_iff, List.isEmpty_iff] at hnoop
        exact hnoop.2

/-- Between two calls a rule came up, or its source was written to. -/
def CompilePlan.Unsettled (plan : CompilePlan) (w w' : World) (rule : Rules.Rule) : Prop :=
  rule ∉ plan.rules ∨ w'.modified rule.source ≠ w.modified rule.source

/-- What the first call has settled is fresh. -/
theorem fresh_of_not_unsettled (hordinary : s.world.Ordinary)
    (hspares : Runner.Spares run plan) (hcompiles : Runner.Compiles run plan)
    (hplan : (planCompile t o request).runIn s = (.ok plan, planned))
    (hpast : ∀ rule ∈ plan.rules, ∀ made, s.world.modified rule.source = .ok made →
      made ≤ s.world.clock)
    (hrun : (compile t o run false request).runIn s = (.ok summary, s'))
    (hsame : ∀ p, again.world.stat p = s'.world.stat p) {rule : Rules.Rule}
    (hsettled : ¬ plan.Unsettled s.world again.world rule) :
    Rules.Freshness.check again.world rule.source rule.target =
      (.ok .fresh : Except (Rules.Failure BuildError.ActionCause) Rules.Freshness) := by
  obtain ⟨hrule, hkept⟩ := not_or.1 hsettled
  rw [not_not] at hrule hkept
  obtain ⟨report, mid, mixed, hrules, -, -⟩ := exists_of_compile_eq_ok hplan hrun
  obtain ⟨made, hmade⟩ := Rules.exists_modified_of_execute hrules hrule
  rw [(planCompile_untouched hplan).1] at hmade
  have hholds := holds_of_compile hordinary hspares hcompiles hplan hrun hrule hmade
    (hpast rule hrule made hmade)
  rw [World.holds_iff, ← hsame, ← World.holds_iff] at hholds
  exact (Rules.check_eq_fresh_iff (hkept.trans hmade)).2 hholds

/-- When nothing else has changed, a second call has nothing to do exactly when it can be planned
and the rules that came up with the first, and those whose sources the first wrote to, find their
targets fresh.  Then it reports so. -/
theorem compile_again_idle_iff (hordinary : s.world.Ordinary)
    (hspares : Runner.Spares run plan) (hcompiles : Runner.Compiles run plan)
    (hplan : (planCompile t o request).runIn s = (.ok plan, planned))
    (hpast : ∀ rule ∈ plan.rules, ∀ made, s.world.modified rule.source = .ok made →
      made ≤ s.world.clock)
    (hrun : (compile t o run false request).runIn s = (.ok summary, s'))
    (hsame : ∀ p, again.world.stat p = s'.world.stat p) :
    (IdleCompile t o run request again ↔
      ∃ plan' planned', (planCompile t o request).runIn again = (.ok plan', planned') ∧
        ∀ rule ∈ plan'.rules, plan.Unsettled s.world again.world rule →
          Rules.Freshness.check again.world rule.source rule.target =
            (.ok .fresh : Except (Rules.Failure BuildError.ActionCause) Rules.Freshness)) ∧
      ∀ summary' last, (compile t o run false request).runIn again = (.ok summary', last) →
        ((summary'.report.isNoop = true ∧ summary'.report.actionsRun = 0 ∧
            summary'.report.copied = []) ↔ IdleCompile t o run request again) := by
  refine ⟨idleCompile_iff.trans ⟨?_, ?_⟩, fun _ _ hagain => noop_iff_idleCompile hagain⟩
  · rintro ⟨plan', planned', hplan', hfresh⟩
    exact ⟨plan', planned', hplan', fun rule hrule _ => hfresh rule hrule⟩
  · rintro ⟨plan', planned', hplan', hfresh⟩
    refine ⟨plan', planned', hplan', fun rule hrule => ?_⟩
    by_cases hunsettled : plan.Unsettled s.world again.world rule
    · exact hfresh rule hrule hunsettled
    · exact fresh_of_not_unsettled hordinary hspares hcompiles hplan hpast hrun hsame hunsettled

end

/-! ### A target below a source root -/

namespace Scripted

theorem writeLoader_renewed (dir : String) (w : World) (unit : String) :
    World.Renewed w (writeLoader dir w unit) := by
  unfold writeLoader
  dsimp only
  split
  next left hwritten =>
      have hlast := World.writeFile_renewed hwritten
      split at hlast
      · exact Trans.trans (World.makeDirs_renewed w _) hlast
      · exact hlast
  next =>
      split
      · exact World.makeDirs_renewed w _
      · exact Std.Refl.refl w

theorem compileEffect_renewed (i : Invocation) (w : World) :
    World.Renewed w (compileEffect i w) := by
  have hall : ∀ (dir : String) (units : List String) (w : World),
      World.Renewed w (units.foldl (writeLoader dir) w) := by
    intro dir units
    induction units with
    | nil => exact fun w => Std.Refl.refl w
    | cons unit rest ih => exact fun w => Trans.trans (writeLoader_renewed dir w unit) (ih _)
  rw [compileEffect]
  split
  · exact hall _ _ w
  · exact Std.Refl.refl w

theorem spares_runner (script : List Upset) (plan : CompilePlan) :
    Runner.Spares (runner script) plan := by
  intro i
  refine .bind (fun s => Std.Refl.refl s.world) fun _ => ?_
  split
  · split <;> exact fun s => Std.Refl.refl s.world
  · exact .change _ fun w => (compileEffect_renewed i w).spares _

end Scripted

/-- A tree with one source, below the root that the target is below, too. -/
def insideSession : Session where
  world := {
    nodes := [(["src"], .dir 0), (["a.clj", "src"], .file ByteArray.empty 0 false)]
    cwd := []
    clock := 1 }
  journal := []

def insideOptions : CompileOptions := { (default : CompileOptions) with libs := some [] }

def insideRequest : CompileRequest := ⟨[⟨"src"⟩], ⟨"src/out"⟩, []⟩

/-- The call for the root around the target. -/
def insideCompile : Task BuildError CompileSummary :=
  compile default insideOptions (Scripted.runner []) false insideRequest

/-- What the first call leaves to the second. -/
def insideAgain : Session := (insideCompile.runIn insideSession).2

/-- The rule for the copy that the first call made. -/
def insideRule : Rules.Rule := ⟨⟨"/src/out/out/a.clj"⟩, ⟨"src/out/a.clj"⟩, .copy⟩

/-- The plan of the first call compiles nothing, and does not have the rule. -/
theorem exists_plan_inside : ∃ plan planned,
    (planCompile default insideOptions insideRequest).runIn insideSession = (.ok plan, planned) ∧
      plan.libs = [] ∧ insideRule ∉ plan.rules ∧
        ∀ rule ∈ plan.rules, ∀ made, insideSession.world.modified rule.source = .ok made →
          made ≤ insideSession.world.clock := by
  rcases hplan : (planCompile default insideOptions insideRequest).runIn insideSession
    with ⟨result, planned⟩
  have hplanned : (((planCompile default insideOptions insideRequest).runIn
      insideSession).1.toOption.any fun plan => plan.libs = [] ∧ insideRule ∉ plan.rules ∧
        ∀ rule ∈ plan.rules, (insideSession.world.modified rule.source).toOption.all
          (· ≤ insideSession.world.clock) = true) = true := by
    decide +kernel
  rw [hplan] at hplanned
  cases result with
  | error e => exact absurd hplanned (by simp [Except.toOption])
  | ok plan =>
      obtain ⟨hlibs, hnew, htimes⟩ := of_decide_eq_true hplanned
      refine ⟨plan, planned, rfl, hlibs, hnew, fun rule hrule made hmade => ?_⟩
      have htime := htimes rule hrule
      rw [hmade] at htime
      exact of_decide_eq_true htime

theorem exists_run_inside : ∃ summary,
    insideCompile.runIn insideSession = (.ok summary, insideAgain) := by
  rcases hrun : insideCompile.runIn insideSession with ⟨outcome, s'⟩
  have hsucceeds : (insideCompile.runIn insideSession).1.toOption.isSome = true := by
    decide +kernel
  rw [hrun] at hsucceeds
  cases outcome with
  | error e => exact absurd hsucceeds (by simp [Except.toOption])
  | ok summary => exact ⟨summary, by rw [insideAgain, hrun]⟩

/-- The second call copies the copy. -/
theorem compile_again_idle_iff_inside :
    ¬ IdleCompile default insideOptions (Scripted.runner []) insideRequest insideAgain ∧
      (insideCompile.runIn insideAgain).1.toOption.map (·.report.copied) =
        some [insideRule.target] := by
  refine ⟨fun hidle => ?_, by decide +kernel⟩
  obtain ⟨plan, planned, hplan, hlibs, hnew, hpast⟩ := exists_plan_inside
  obtain ⟨summary, hrun⟩ := exists_run_inside
  have hcompiles : Runner.Compiles (Scripted.runner []) plan := by
    intro before after _ u hu
    rw [hlibs] at hu
    exact absurd hu List.not_mem_nil
  obtain ⟨plan', planned', hplan', hfresh⟩ := (compile_again_idle_iff (by decide +kernel)
    (Scripted.spares_runner [] plan) hcompiles hplan hpast hrun fun _ => rfl).1.1 hidle
  have hrule : (((planCompile default insideOptions insideRequest).runIn
      insideAgain).1.toOption.all fun plan => insideRule ∈ plan.rules) = true := by
    decide +kernel
  rw [hplan'] at hrule
  have hchecked := hfresh insideRule (of_decide_eq_true hrule) (Or.inl hnew)
  have hmissing : (Rules.Freshness.check insideAgain.world insideRule.source
      insideRule.target : Except (Rules.Failure BuildError.ActionCause)
        Rules.Freshness).toOption = some .missing := by
    decide +kernel
  rw [hchecked] at hmissing
  exact absurd hmissing (by decide)

end ClojureBuild
