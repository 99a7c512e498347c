import ClojureBuild.Proofs.Journal
import ClojureBuild.Proofs.Session
/-!
The phases of a compilation that run programs.

The action of the rules runs the Clojure compiler, and behind the rules at most one delegate runs
compilers of other languages.  Whatever a relation between sessions allows of those programs, of
quiet notes and of making directories, it allows of a phase.
-/

namespace ClojureBuild

namespace Toolchain

variable (t : Toolchain)

/-- The programs of a toolchain. -/
def programs : List Path := [t.java, t.javac, t.scalac, t.groovyc]

theorem java_mem : t.java ∈ t.programs := by simp [programs]

theorem javac_mem : t.javac ∈ t.programs := by simp [programs]

theorem scalac_mem : t.scalac ∈ t.programs := by simp [programs]

theorem groovyc_mem : t.groovyc ∈ t.programs := by simp [programs]

/-- The compilers of the other languages. -/
def delegates : List Path := [t.scalac, t.groovyc, t.javac]

theorem mem_programs_of_delegates {program : Path} (h : program ∈ t.delegates) :
    program ∈ t.programs := by
  simp only [delegates, List.mem_cons, List.not_mem_nil, or_false] at h
  rcases h with rfl | rfl | rfl
  · exact t.scalac_mem
  · exact t.groovyc_mem
  · exact t.javac_mem

end Toolchain

section

variable {R : Session → Session → Prop} {run : Runner}

/-- The action of a plan makes the target and runs the compiler. -/
theorem compileAction_leads_at (hR : Noting R) {invocation : Invocation} {target : Path}
    (hmake : ∀ s : Session, R s { s with world := (s.world.makeDirs target).1 })
    (hrun : Task.Leads R (run invocation)) :
    Task.Leads R (compileAction run invocation target).task := by
  have := hR.toIsPreorder
  have hbody : Task.Leads R (do
      Task.change (·.makeDirs target) (BuildError.io target)
      Task.log .invocation .trace "compiling" [("command", invocation.display)]
      run invocation) := by
    refine .bind (.change _ hmake) fun _ => ?_
    exact .bind (.note fun s => hR.note s (quiet_log (by decide) _ _ _)) fun _ => hrun
  exact hbody.mapError _

theorem compileAction_leads (hR : Routine R) {invocation : Invocation} (target : Path)
    (hrun : Task.Leads R (run invocation)) :
    Task.Leads R (compileAction run invocation target).task :=
  compileAction_leads_at hR.toNoting (fun s => hR.makeDirs s target) hrun

/-- An action that succeeds ran the compiler once the target was made. -/
theorem exists_of_compileAction_eq_ok {invocation : Invocation} {target : Path} {s s' : Session}
    (h : (compileAction run invocation target).task.runIn s = (.ok (), s')) :
    ∃ mid, mid.world = (s.world.makeDirs target).1 ∧
      (run invocation).runIn mid = (.ok (), s') := by
  rw [compileAction, Task.runIn_mapError_eq_ok_iff] at h
  obtain ⟨⟨⟩, made, hmake, hbody⟩ := Task.runIn_bind_eq_ok h
  obtain ⟨⟨⟩, mid, hlog, hran⟩ := Task.runIn_bind_eq_ok hbody
  obtain ⟨-, rfl⟩ := Prod.mk.inj hmake
  obtain ⟨-, rfl⟩ := Prod.mk.inj hlog
  exact ⟨_, rfl, hran⟩

namespace Delegate

theorem scan_leads (hR : Noting R) (language : Language) (sources : List Path) :
    Task.Leads R (scan language sources) := by
  have := hR.toIsPreorder
  refine .look_bind fun w => ?_
  refine .bind (.note fun s => hR.note s ?_) fun _ => .pure _
  exact Scan.quiet_ofSources w _ _ sources

/-- A delegate makes the target and runs its compiler. -/
theorem runOver_leads (hR : Noting R) {job : CompileJob}
    (hmake : ∀ s : Session, R s { s with world := (s.world.makeDirs job.target).1 })
    {program : Path} {flags : List String} {files : List Path}
    (hrun : Task.Leads R (run (invocation program flags job files))) (needed : List Path) :
    Task.Leads R (runOver run program flags job needed files) := by
  have := hR.toIsPreorder
  unfold runOver
  refine .ite (.pure _) ?_
  refine .bind (.change _ hmake) fun _ => ?_
  refine .bind (.note fun s => hR.note s (quiet_rendered _)) fun _ => ?_
  exact .bind (.note fun s => hR.note s (quiet_log (by decide) _ _ _)) fun _ => hrun

/-- What the compilers of the other languages are called with: their options, the one classpath, the
one target, and files. -/
structure CallsLead (R : Session → Session → Prop) (t : Toolchain) (o : CompileOptions)
    (run : Runner) (job : CompileJob) : Prop where
  scala : ∀ files, Task.Leads R (run (invocation t.scalac o.scalac.flags job files))
  groovy : ∀ files, Task.Leads R (run (invocation t.groovyc o.groovyc.flags job files))
  java : ∀ files, Task.Leads R (run (invocation t.javac o.javac.flags job files))

section

variable {t : Toolchain} {o : CompileOptions} {job : CompileJob}

theorem javac_leads (hR : Noting R)
    (hmake : ∀ s : Session, R s { s with world := (s.world.makeDirs job.target).1 })
    (hcalls : CallsLead R t o run job) : Task.Leads R (javac t o run job) := by
  have := hR.toIsPreorder
  exact .bind (scan_leads hR _ _) fun files => runOver_leads hR hmake (hcalls.java files) files

theorem scalac_leads (hR : Noting R)
    (hmake : ∀ s : Session, R s { s with world := (s.world.makeDirs job.target).1 })
    (hcalls : CallsLead R t o run job) : Task.Leads R (scalac t o run job) := by
  have := hR.toIsPreorder
  refine .bind (scan_leads hR _ _) fun scala => ?_
  refine .bind (scan_leads hR _ _) fun java => ?_
  refine .bind (runOver_leads hR hmake (hcalls.scala _) _) fun _ => ?_
  refine .ite (.pure _) ?_
  refine .bind (.note fun s => hR.note s (quiet_log (by decide) _ _ _)) fun _ => ?_
  exact javac_leads hR hmake hcalls

theorem groovyc_leads (hR : Noting R)
    (hmake : ∀ s : Session, R s { s with world := (s.world.makeDirs job.target).1 })
    (hcalls : CallsLead R t o run job) : Task.Leads R (groovyc t o run job) := by
  have := hR.toIsPreorder
  refine .bind (scan_leads hR _ _) fun groovy => ?_
  refine .bind (scan_leads hR _ _) fun java => ?_
  exact runOver_leads hR hmake (hcalls.groovy _) _

/-- A delegate does what the calls of its compilers do, and makes the target. -/
theorem dispatch_leads_calls (hR : Noting R)
    (hmake : ∀ s : Session, R s { s with world := (s.world.makeDirs job.target).1 })
    (hcalls : CallsLead R t o run job) : Task.Leads R (dispatch t o run job) := by
  have := hR.toIsPreorder
  unfold dispatch
  refine .bind (.look _) fun mode => ?_
  refine .look_bind fun w => ?_
  have hquiet := MixedMode.quiet_detectEvents w job.sources Language.priority
  refine .bind (.note fun s => hR.note s hquiet) fun _ => ?_
  split
  · exact .pure _
  · refine .bind (.note fun s => hR.note s (quiet_log (by decide) _ _ _)) fun _ => ?_
    refine .bind ?_ fun _ => .pure _
    unfold compile
    split
    · exact scalac_leads hR hmake hcalls
    · exact groovyc_leads hR hmake hcalls
    · exact javac_leads hR hmake hcalls

end

/-- Of programs, a delegate runs the compilers of the other languages alone. -/
theorem dispatch_leads_at (hR : Noting R) {job : CompileJob}
    (hmake : ∀ s : Session, R s { s with world := (s.world.makeDirs job.target).1 })
    (t : Toolchain) (o : CompileOptions)
    (hrun : ∀ program ∈ t.delegates, ∀ args, Task.Leads R (run ⟨program, args⟩)) :
    Task.Leads R (dispatch t o run job) :=
  dispatch_leads_calls hR hmake
    { scala := fun _ => hrun t.scalac (by simp [Toolchain.delegates]) _
      groovy := fun _ => hrun t.groovyc (by simp [Toolchain.delegates]) _
      java := fun _ => hrun t.javac (by simp [Toolchain.delegates]) _ }

theorem dispatch_leads (hR : Routine R) (t : Toolchain) (o : CompileOptions)
    (hrun : ∀ program ∈ t.delegates, ∀ args, Task.Leads R (run ⟨program, args⟩))
    (job : CompileJob) : Task.Leads R (dispatch t o run job) :=
  dispatch_leads_at hR.toNoting (fun s => hR.makeDirs s job.target) t o hrun

end Delegate

end

/-! ### Whole compilations -/

section

variable {t : Toolchain} {o : CompileOptions} {run : Runner} {request : CompileRequest}
  {plan : CompilePlan} {force : Bool} {s planned : Session}

theorem compile_of_planCompile_error {s' : Session} {e : BuildError}
    (h : (planCompile t o request).runIn s = (.error e, s')) :
    (compile t o run force request).runIn s = (.error e, s') := by
  rw [compile, Task.runIn_bind, h]

/-- A compilation whose plan succeeds carries out the rules, and then at most one delegate. -/
theorem compile_runIn (hplan : (planCompile t o request).runIn s = (.ok plan, planned)) :
    (compile t o run force request).runIn s =
      match (Rules.execute force (plan.graph run)).runIn planned with
      | (.error e, mid) => (.error (BuildError.ofFailure e), mid)
      | (.ok report, mid) =>
          match (Delegate.dispatch t o run
            ⟨request.sources, plan.target, plan.classpath⟩).runIn mid with
          | (.error e, s') => (.error e, s')
          | (.ok mixed, s') =>
              (.ok ⟨plan.libs, plan.survey.located, plan.mirror.copies.length, report, mixed⟩,
                s') := by
  rw [compile, Task.runIn_bind, hplan]
  simp only [Task.runIn_bind, Task.runIn_mapError]
  rcases (Rules.execute force (plan.graph run)).runIn planned with ⟨outcome, mid⟩
  cases outcome with
  | error e => rfl
  | ok report =>
      simp only [Task.mapError_ok]
      rcases (Delegate.dispatch t o run ⟨request.sources, plan.target, plan.classpath⟩).runIn mid
        with ⟨result, s'⟩
      cases result <;> rfl

theorem compile_of_execute_error
    (hplan : (planCompile t o request).runIn s = (.ok plan, planned)) {mid : Session}
    {e : Rules.Failure BuildError.ActionCause}
    (hrules : (Rules.execute force (plan.graph run)).runIn planned = (.error e, mid)) :
    (compile t o run force request).runIn s = (.error (BuildError.ofFailure e), mid) := by
  rw [compile_runIn hplan, hrules]

/-- A compilation whose rules were all carried out ends where its dispatch does. -/
theorem session_compile (hplan : (planCompile t o request).runIn s = (.ok plan, planned))
    {report : Rules.Report} {mid : Session}
    (hrules : (Rules.execute force (plan.graph run)).runIn planned = (.ok report, mid)) :
    ((compile t o run force request).runIn s).2 =
      ((Delegate.dispatch t o run
        ⟨request.sources, plan.target, plan.classpath⟩).runIn mid).2 := by
  rw [compile_runIn hplan, hrules]
  simp only
  split
  next hdispatch => rw [hdispatch]
  next hdispatch => rw [hdispatch]

/-- Behind its plan a compilation leads where the rules and the delegate do. -/
theorem compile_leads {R : Session → Session → Prop} [IsPreorder Session R]
    (hplan : (planCompile t o request).runIn s = (.ok plan, planned))
    (hrules : Task.Leads R (Rules.execute force (plan.graph run)))
    (hdispatch : Task.Leads R
      (Delegate.dispatch t o run ⟨request.sources, plan.target, plan.classpath⟩)) :
    R planned ((compile t o run force request).runIn s).2 := by
  have hfirst := hrules planned
  rcases hrun : (Rules.execute force (plan.graph run)).runIn planned with ⟨outcome, mid⟩
  rw [hrun] at hfirst
  cases outcome with
  | error e =>
      rw [compile_of_execute_error hplan hrun]
      exact hfirst
  | ok report =>
      rw [session_compile hplan hrun]
      exact Trans.trans hfirst (hdispatch mid)

/-- A compilation that succeeds carried out its rules, and its delegate did not fail. -/
theorem exists_of_compile_eq_ok (hplan : (planCompile t o request).runIn s = (.ok plan, planned))
    {summary : CompileSummary} {s' : Session}
    (h : (compile t o run force request).runIn s = (.ok summary, s')) :
    ∃ report mid mixed, (Rules.execute force (plan.graph run)).runIn planned = (.ok report, mid) ∧
      (Delegate.dispatch t o run ⟨request.sources, plan.target, plan.classpath⟩).runIn mid =
        (.ok mixed, s') ∧
      summary =
        ⟨plan.libs, plan.survey.located, plan.mirror.copies.length, report, mixed⟩ := by
  rw [compile_runIn hplan] at h
  rcases hrules : (Rules.execute force (plan.graph run)).runIn planned with ⟨outcome, mid⟩
  rw [hrules] at h
  cases outcome with
  | error e => exact absurd (Prod.mk.inj h).1 (by simp)
  | ok report =>
      simp only at h
      split at h
      · exact absurd (Prod.mk.inj h).1 (by simp)
      next mixed last hlast =>
          obtain ⟨hsummary, rfl⟩ := Prod.mk.inj h
          exact ⟨report, mid, mixed, rfl, hlast, (Except.ok.inj hsummary).symm⟩

end

end ClojureBuild
