import ClojureBuild.Proofs.Compile.Phases
import ClojureBuild.Proofs.Planning.Duplicates
import ClojureBuild.Proofs.Rules.Failure
import ClojureBuild.Process.Scripted
/-!
Duplicates end a compilation before it begins.

Only planning reports a duplicate: what comes later fails with errors of the system, or with those
of the programs that it runs.  Main statement: a compilation ends with a duplicate exactly when the
survey or the mirroring meets one, the error names the first of them, and then, as after a classpath
that cannot be resolved, nothing was run and nothing was changed.
-/

namespace ClojureBuild

/-! ### Errors of the rules -/

namespace Rules

variable {ε : Type} {g : Graph ε} {P : ε → Prop}

/-- A failure is one of the system, or it carries an action's error of some kind. -/
def Failure.Carries (P : ε → Prop) : Failure ε → Prop
  | .io _ _ => True
  | .actionFailed _ cause => P cause

theorem carries_of_states {force : Bool} {w : World} {rules : List Rule} {e : Failure ε}
    (h : states w force rules = .error e) : e.Carries P := by
  cases force with
  | true =>
      rw [states_force] at h
      exact absurd h (by simp)
  | false =>
      obtain ⟨i, ⟨rule, -, hfails⟩, -⟩ := states_eq_error_iff.1 h
      rw [Freshness.check] at hfails
      cases hsource : w.modified rule.source with
      | error cause =>
          rw [hsource] at hfails
          exact Except.error.inj hfails ▸ trivial
      | ok made =>
          obtain ⟨state, hstate⟩ := exists_check (ε := ε) hsource rule.target
          rw [Freshness.check, hfails] at hstate
          exact absurd hstate (by simp)

theorem copyFile_raises (source target : Path) :
    Task.Raises (Failure.Carries P) (copyFile source target) := by
  have hchange : ∀ (act : World → World × Except OsError Unit) (path : Path),
      Task.Raises (Failure.Carries P) (Task.change act (Failure.io path)) :=
    fun act path => .change fun _ => trivial
  rw [copyFile]
  cases target.parent? with
  | none => exact hchange _ _
  | some parent => exact .bind (hchange _ _) fun _ => hchange _ _

theorem perform_raises (hactions : ∀ action ∈ g.actions, Task.Raises P action.task) (entry : Entry)
    (deed : Deed) : Task.Raises (Failure.Carries P) (perform g entry deed) := by
  cases deed with
  | pass => exact .note _
  | cover => exact .note _
  | copy => exact .bind (.note _) fun _ => copyFile_raises _ _
  | run n =>
      rw [perform]
      cases haction : g.actions[n]? with
      | none => exact .pure ()
      | some action =>
          have htask := hactions action (List.mem_of_getElem? haction)
          exact .bind (.note _) fun _ => htask.mapError fun _ h => h

theorem performEach_raises (hactions : ∀ action ∈ g.actions, Task.Raises P action.task)
    (todo : List (Entry × Deed)) : Task.Raises (Failure.Carries P) (performEach g todo) := by
  induction todo with
  | nil => exact .pure ()
  | cons one rest ih => exact .bind (perform_raises hactions one.1 one.2) fun _ => ih

/-- Beside errors of the system an execution fails with those of its actions alone. -/
theorem execute_raises (hactions : ∀ action ∈ g.actions, Task.Raises P action.task)
    (force : Bool) : Task.Raises (Failure.Carries P) (execute force g) := by
  intro s e s' h
  rw [execute_runIn] at h
  cases hstates : (states s.world force g.rules : Except (Failure ε) (List Freshness)) with
  | error cause =>
      rw [hstates] at h
      exact Except.error.inj (Prod.mk.inj h).1 ▸ carries_of_states hstates
  | ok found =>
      rw [hstates] at h
      simp only at h
      split at h
      · exact absurd (Prod.mk.inj h).1 (by simp)
      next cause left hdone =>
          exact Except.error.inj (Prod.mk.inj h).1 ▸
            performEach_raises hactions _ s cause left hdone

end Rules

/-! ### Errors of a compilation -/

/-- What programs and the system can end a build with, and what a runner is expected to keep to:
neither a duplicate nor an artifact that the repository lacks, which planning reports. -/
def BuildError.Late : BuildError → Prop
  | .duplicateNamespace _ | .unresolvedArtifact _ _ => False
  | _ => True

section

variable {t : Toolchain} {o : CompileOptions} {run : Runner} {request : CompileRequest}
  {plan : CompilePlan} {force : Bool}

theorem compileAction_raises (hrun : ∀ i, Task.Raises BuildError.Late (run i))
    (invocation : Invocation) (target : Path) :
    Task.Raises (fun cause => ∀ e, cause = .build e → e.Late)
      (compileAction run invocation target).task := by
  have hbody : Task.Raises BuildError.Late (do
      Task.change (·.makeDirs target) (BuildError.io target)
      Task.log .invocation .trace "compiling" [("command", invocation.display)]
      run invocation) := by
    refine .bind (.change fun _ => trivial) fun _ => ?_
    exact .bind (.note _) fun _ => hrun invocation
  refine hbody.mapError fun e h e' heq => ?_
  obtain rfl := BuildError.ActionCause.build.inj heq
  exact h

namespace Delegate

theorem scan_raises (language : Language) (sources : List Path) :
    Task.Raises BuildError.Late (scan language sources) :=
  .bind (.look _) fun _ => .bind (.note _) fun _ => .pure _

theorem runOver_raises (hrun : ∀ i, Task.Raises BuildError.Late (run i)) (program : Path)
    (flags : List String) (job : CompileJob) (needed files : List Path) :
    Task.Raises BuildError.Late (runOver run program flags job needed files) := by
  refine .ite (.pure _) ?_
  refine .bind (.change fun _ => trivial) fun _ => ?_
  exact .bind (.note _) fun _ => .bind (.note _) fun _ => hrun _

theorem javac_raises (hrun : ∀ i, Task.Raises BuildError.Late (run i)) (job : CompileJob) :
    Task.Raises BuildError.Late (javac t o run job) :=
  .bind (scan_raises _ _) fun _ => runOver_raises hrun _ _ _ _ _

theorem scalac_raises (hrun : ∀ i, Task.Raises BuildError.Late (run i)) (job : CompileJob) :
    Task.Raises BuildError.Late (scalac t o run job) := by
  refine .bind (scan_raises _ _) fun _ => .bind (scan_raises _ _) fun _ => ?_
  refine .bind (runOver_raises hrun _ _ _ _ _) fun _ => .ite (.pure _) ?_
  exact .bind (.note _) fun _ => javac_raises hrun job

theorem groovyc_raises (hrun : ∀ i, Task.Raises BuildError.Late (run i)) (job : CompileJob) :
    Task.Raises BuildError.Late (groovyc t o run job) :=
  .bind (scan_raises _ _) fun _ => .bind (scan_raises _ _) fun _ => runOver_raises hrun _ _ _ _ _

theorem dispatch_raises (hrun : ∀ i, Task.Raises BuildError.Late (run i)) (job : CompileJob) :
    Task.Raises BuildError.Late (dispatch t o run job) := by
  refine .bind (.look _) fun mode => .bind (.look _) fun _ => .bind (.note _) fun _ => ?_
  split
  · exact .pure _
  · refine .bind (.note _) fun _ => .bind ?_ fun _ => .pure _
    unfold compile
    split
    · exact scalac_raises hrun job
    · exact groovyc_raises hrun job
    · exact javac_raises hrun job

end Delegate

/-- Behind a plan that succeeds no error of planning is reported. -/
theorem late_of_compile (hrun : ∀ i, Task.Raises BuildError.Late (run i)) {s planned s' : Session}
    (hplan : (planCompile t o request).runIn s = (.ok plan, planned)) {e : BuildError}
    (h : (compile t o run force request).runIn s = (.error e, s')) : e.Late := by
  rw [compile_runIn hplan] at h
  have hactions : ∀ action ∈ (plan.graph run).actions,
      Task.Raises (fun cause => ∀ e, cause = .build e → e.Late) action.task := by
    intro action haction
    obtain rfl := List.mem_singleton.1 haction
    exact compileAction_raises hrun _ _
  rcases hrules : (Rules.execute force (plan.graph run)).runIn planned with ⟨outcome, mid⟩
  rw [hrules] at h
  cases outcome with
  | error cause =>
      have hcarries := Rules.execute_raises hactions force planned cause mid hrules
      obtain rfl := Except.error.inj (Prod.mk.inj h).1
      cases cause with
      | io path reason => exact trivial
      | actionFailed label reason =>
          cases reason with
          | build e => exact hcarries e rfl
          | foreign text => exact trivial
  | ok report =>
      simp only at h
      split at h
      next cause left hlast =>
          obtain rfl := Except.error.inj (Prod.mk.inj h).1
          exact Delegate.dispatch_raises hrun _ mid _ left hlast
      · exact absurd (Prod.mk.inj h).1 (by simp)

/-! ### How planning fails -/

/-- The result of planning is a calculation on the world. -/
theorem planCompile_result (s : Session) :
    ((planCompile t o request).runIn s).1 = do
      let roots := sourceRoots s.world request.sources
      let libs := CompilePlan.chooseLibs s.world o roots
      let target ← absolutePath s.world request.target
      let classpath ← t.classpath s.world (CompilePlan.entries request roots)
      let survey := Survey.ofUnits s.world roots libs
      let _ ← survey.result
      let mirror := Mirror.ofRoots s.world libs target roots
      let _ ← mirror.result
      return {
        target, libs, classpath, survey, mirror
        invocation :=
          compileInvocation t.java (Classpath.render classpath target) target libs } := by
  unfold planCompile
  simp only [Task.runIn_bind, Task.runIn_look, Task.runIn_ofExcept, Task.runIn_log, id]
  generalize sourceRoots s.world request.sources = roots
  generalize CompilePlan.chooseLibs s.world o roots = libs
  cases absolutePath s.world request.target with
  | error e => rfl
  | ok target =>
      simp only [Task.ok_bind]
      split <;>
      · simp only [Task.runIn_bind, Task.runIn_log, Task.runIn_ofExcept, Task.runIn_note]
        cases t.classpath s.world (CompilePlan.entries request roots) with
        | error e => rfl
        | ok classpath =>
            simp only [Task.ok_bind]
            cases (Survey.ofUnits s.world roots libs).result with
            | error e => rfl
            | ok found =>
                simp only [Task.ok_bind]
                cases (Mirror.ofRoots s.world libs target roots).result <;> rfl

/-- Behind a classpath that is resolved planning fails as the survey does, or else the mirroring. -/
theorem planCompile_eq_error_iff {s : Session} {target : Path} {classpath : List Path}
    {roots : List Path} {libs : List UnitId}
    (hroots : sourceRoots s.world request.sources = roots)
    (hlibs : CompilePlan.chooseLibs s.world o roots = libs)
    (htarget : absolutePath s.world request.target = .ok target)
    (hclasspath : t.classpath s.world (CompilePlan.entries request roots) = .ok classpath)
    {e : BuildError} :
    ((planCompile t o request).runIn s).1 = .error e ↔
      (Survey.ofUnits s.world roots libs).failure = some e ∨
        (Survey.ofUnits s.world roots libs).failure = none ∧
          ∃ u, (Mirror.ofRoots s.world libs target roots).duplicate = some u ∧
            e = .duplicateNamespace u := by
  rw [planCompile_result]
  simp only [hroots, hlibs, htarget, hclasspath, Task.ok_bind]
  cases hsurvey : (Survey.ofUnits s.world roots libs).failure with
  | some cause =>
      rw [Survey.result, hsurvey]
      simp [Task.error_bind]
  | none =>
      rw [Survey.result, hsurvey]
      cases hmirror : (Mirror.ofRoots s.world libs target roots).duplicate with
      | some u => simp [Mirror.result, hmirror, Task.ok_bind, eq_comm]
      | none => simp [Mirror.result, hmirror, Task.ok_bind, pure, Except.pure]

/-! ### Which duplicate ends a compilation -/

/-- The unit that a duplicate is reported for: the first of the request whose source lies below two
roots, or else that of the first copy whose place an earlier one has claimed. -/
def NamesDuplicate (w : World) (roots : List Path) (libs : List UnitId) (target : Path)
    (u : UnitId) : Prop :=
  FirstIn (w.HoldsTwice roots) libs u ∨
    (∀ v ∈ libs, ¬ w.HoldsTwice roots v) ∧
      ∃ c, Mirror.FirstClaimed (roots.flatMap (Mirror.askedBelow w libs target)) c ∧ c.unit = u

/-- Whatever the runner is, a compilation ends with an error before anything is run or changed. -/
def EndsUntouched (t : Toolchain) (o : CompileOptions) (request : CompileRequest) (s : Session)
    (e : BuildError) : Prop :=
  ∃ s' : Session, s'.world = s.world ∧ s'.marks = s.marks ∧ ∀ (run : Runner) (force : Bool),
    (compile t o run force request).runIn s = (.error e, s')

theorem endsUntouched_of_planCompile {s : Session} {e : BuildError}
    (h : ((planCompile t o request).runIn s).1 = .error e) : EndsUntouched t o request s e := by
  rcases hplan : (planCompile t o request).runIn s with ⟨result, s'⟩
  rw [hplan] at h
  obtain rfl := h
  obtain ⟨hworld, hmarks⟩ := planCompile_untouched hplan
  exact ⟨s', hworld, hmarks, fun run force => compile_of_planCompile_error hplan⟩

/-- A duplicate is reported by planning or not at all. -/
theorem compile_eq_duplicate_iff (hrun : ∀ i, Task.Raises BuildError.Late (run i)) {s : Session}
    {u : UnitId} :
    ((compile t o run force request).runIn s).1 = .error (.duplicateNamespace u) ↔
      ((planCompile t o request).runIn s).1 = .error (.duplicateNamespace u) := by
  rcases hplan : (planCompile t o request).runIn s with ⟨result, planned⟩
  cases result with
  | error e =>
      rw [compile_of_planCompile_error hplan]
      simp
  | ok plan =>
      simp only [reduceCtorEq, iff_false]
      intro h
      rcases hcompile : (compile t o run force request).runIn s with ⟨outcome, s'⟩
      rw [hcompile] at h
      obtain rfl := h
      exact late_of_compile hrun hplan hcompile

/-- Planning reports the first duplicate, those of the survey in front of those of the mirroring. -/
theorem planCompile_eq_duplicate_iff {s : Session} {target : Path} {classpath : List Path}
    {roots : List Path} {libs : List UnitId}
    (hroots : sourceRoots s.world request.sources = roots)
    (hlibs : CompilePlan.chooseLibs s.world o roots = libs)
    (htarget : absolutePath s.world request.target = .ok target)
    (hclasspath : t.classpath s.world (CompilePlan.entries request roots) = .ok classpath)
    {u : UnitId} :
    ((planCompile t o request).runIn s).1 = .error (.duplicateNamespace u) ↔
      NamesDuplicate s.world roots libs target u := by
  rw [planCompile_eq_error_iff hroots hlibs htarget hclasspath, Survey.failure_eq_some_iff,
    Survey.failure_eq_none_iff_not_holdsTwice, NamesDuplicate]
  simp only [BuildError.duplicateNamespace.injEq, exists_eq_right', Mirror.duplicate_eq_some_iff]

/-- Some duplicate is named when a requested unit has its source below two roots, or two roots show
a source that is not compiled at the same names. -/
theorem exists_namesDuplicate_iff {w : World} (hfree : w.LinkFree) (htree : w.IsTree)
    {roots : List Path} (hroots : ∀ root ∈ roots, root.text ≠ "") {libs : List UnitId}
    {target : Path} :
    (∃ u, NamesDuplicate w roots libs target u) ↔
      (∃ u ∈ libs, w.HoldsTwice roots u) ∨ ∃ names, HeldTwice (w.Mirrors libs names) roots := by
  have hmirror : (∃ u c, Mirror.FirstClaimed (roots.flatMap (Mirror.askedBelow w libs target)) c ∧
      c.unit = u) ↔ ∃ names, HeldTwice (w.Mirrors libs names) roots := by
    simp only [← Mirror.duplicate_eq_some_iff]
    rw [← Option.ne_none_iff_exists', ne_eq,
      Mirror.duplicate_eq_none_iff_mirrors hfree htree hroots, not_forall_not]
  constructor
  · rintro ⟨u, hfirst | ⟨-, c, hclaimed⟩⟩
    · exact Or.inl (exists_firstIn_iff.1 ⟨u, hfirst⟩)
    · exact Or.inr (hmirror.1 ⟨u, c, hclaimed⟩)
  · intro h
    by_cases htwice : ∃ u ∈ libs, w.HoldsTwice roots u
    · obtain ⟨u, hfirst⟩ := exists_firstIn_iff.2 htwice
      exact ⟨u, Or.inl hfirst⟩
    · obtain ⟨u, hclaimed⟩ := hmirror.2 (h.resolve_left htwice)
      exact ⟨u, Or.inr ⟨fun v hv hheld => htwice ⟨v, hv, hheld⟩, hclaimed⟩⟩

/-- In a tree without links a compilation ends with a duplicate exactly when a requested unit has
its source below two roots, or two roots show a source that is not compiled at the same names, where
a root spelled `-` shows nothing; the error names the first.  Then, and when the classpath cannot be
resolved, nothing was run and nothing changed.  The runner is taken to report neither error. -/
theorem compile_duplicate_iff {s : Session} (hfree : s.world.LinkFree) (htree : s.world.IsTree)
    (hrun : ∀ i, Task.Raises BuildError.Late (run i)) {target : Path} {roots : List Path}
    {libs : List UnitId} (htarget : absolutePath s.world request.target = .ok target)
    (hroots : sourceRoots s.world request.sources = roots)
    (hlibs : CompilePlan.chooseLibs s.world o roots = libs) :
    (∀ classpath, t.classpath s.world (CompilePlan.entries request roots) = .ok classpath →
      (∀ u, ((compile t o run force request).runIn s).1 = .error (.duplicateNamespace u) ↔
        NamesDuplicate s.world roots libs target u) ∧
      ((∃ u, ((compile t o run force request).runIn s).1 = .error (.duplicateNamespace u)) ↔
        (∃ u ∈ libs, s.world.HoldsTwice roots u) ∨
          ∃ names, HeldTwice (s.world.Mirrors libs names) roots)) ∧
    (∀ u, ((compile t o run force request).runIn s).1 = .error (.duplicateNamespace u) →
      EndsUntouched t o request s (.duplicateNamespace u)) ∧
    ∀ e, t.classpath s.world (CompilePlan.entries request roots) = .error e →
      EndsUntouched t o request s e := by
  have hplaces : ∀ root ∈ roots, root.text ≠ "" := by
    intro root hroot
    rw [← hroots] at hroot
    exact text_ne_of_mem_sourceRoots hroot
  refine ⟨fun classpath hclasspath => ?exact, fun u hdup => ?duplicate, fun e herror => ?classpath⟩
  case exact =>
    have hnames : ∀ u, ((compile t o run force request).runIn s).1 =
        .error (.duplicateNamespace u) ↔ NamesDuplicate s.world roots libs target u :=
      fun u => (compile_eq_duplicate_iff hrun).trans
        (planCompile_eq_duplicate_iff hroots hlibs htarget hclasspath)
    exact ⟨hnames, (exists_congr hnames).trans (exists_namesDuplicate_iff hfree htree hplaces)⟩
  case duplicate => exact endsUntouched_of_planCompile ((compile_eq_duplicate_iff hrun).1 hdup)
  case classpath =>
    refine endsUntouched_of_planCompile ?_
    rw [planCompile_result]
    simp only [hroots, htarget, herror, Task.ok_bind]
    rfl

end

theorem Scripted.runner_raises (script : List Scripted.Upset) (i : Invocation) :
    Task.Raises BuildError.Late (Scripted.runner script i) := by
  refine .bind (.note _) fun _ => ?_
  split
  · split
    · exact .ofExcept fun e he => Except.error.inj he ▸ trivial
    · exact .ofExcept fun e he => Except.error.inj he ▸ trivial
  · exact .change fun _ => trivial

/-- Three directories that hold a source of one name, one of them spelled `-`. -/
def twinSession : Session where
  world := {
    nodes := [(["-"], .dir 0), (["x.clj", "-"], .file ByteArray.empty 0 false),
      (["a"], .dir 0), (["x.clj", "a"], .file ByteArray.empty 0 false),
      (["b"], .dir 0), (["x.clj", "b"], .file ByteArray.empty 0 false)]
    cwd := []
    clock := 1 }
  journal := []

/-- A compilation of nothing, so that all sources are copied. -/
def copyingOptions : CompileOptions := { (default : CompileOptions) with libs := some [] }

/-- Two roots with one name end the build, but a root spelled `-` does not count: its source is
passed over in silence. -/
theorem compile_duplicate_iff_twin :
    (((compile default copyingOptions (Scripted.runner []) false
        ⟨[⟨"a"⟩, ⟨"b"⟩], ⟨"out"⟩, []⟩).runIn twinSession).1 = .error (.duplicateNamespace ⟨"x"⟩) ∧
      EndsUntouched default copyingOptions ⟨[⟨"a"⟩, ⟨"b"⟩], ⟨"out"⟩, []⟩ twinSession
        (.duplicateNamespace ⟨"x"⟩)) ∧
    (twinSession.world.ClojureBelow ⟨"-"⟩ ["x.clj"] ∧
      twinSession.world.ClojureBelow ⟨"a"⟩ ["x.clj"] ∧
      ∀ u, ((compile default copyingOptions (Scripted.runner []) false
        ⟨[⟨"-"⟩, ⟨"a"⟩], ⟨"out"⟩, []⟩).runIn twinSession).1 ≠ .error (.duplicateNamespace u)) := by
  have htarget : absolutePath twinSession.world ⟨"out"⟩ = .ok ⟨"/out"⟩ := by decide +kernel
  have hlaw := fun sources : List Path => @compile_duplicate_iff default copyingOptions
    (Scripted.runner []) ⟨sources, ⟨"out"⟩, []⟩ false twinSession (by decide +kernel)
    (by decide +kernel) (Scripted.runner_raises []) _ _ _ htarget rfl rfl
  constructor
  · obtain ⟨hexact, hduplicate, -⟩ := hlaw [⟨"a"⟩, ⟨"b"⟩]
    have hcopies : (sourceRoots twinSession.world [⟨"a"⟩, ⟨"b"⟩]).flatMap
        (Mirror.askedBelow twinSession.world [] ⟨"/out"⟩) =
          [⟨⟨"x"⟩, ⟨"a/x.clj"⟩, ⟨"/out/x.clj"⟩⟩, ⟨⟨"x"⟩, ⟨"b/x.clj"⟩, ⟨"/out/x.clj"⟩⟩] := by
      decide +kernel
    have hnames : NamesDuplicate twinSession.world
        (sourceRoots twinSession.world [⟨"a"⟩, ⟨"b"⟩]) [] ⟨"/out"⟩ ⟨"x"⟩ := by
      refine Or.inr ⟨by simp, ⟨⟨"x"⟩, ⟨"b/x.clj"⟩, ⟨"/out/x.clj"⟩⟩, ?_, rfl⟩
      rw [hcopies]
      exact ⟨[_], [], rfl, List.pairwise_singleton _ _, _, List.mem_singleton_self _,
        by decide +kernel⟩
    have hfound := ((hexact [⟨"/a"⟩, ⟨"/b"⟩] (by decide +kernel)).1 ⟨"x"⟩).2 hnames
    exact ⟨hfound, hduplicate _ hfound⟩
  · have hbelow : ∀ root ∈ [(⟨"-"⟩ : Path), ⟨"a"⟩],
        twinSession.world.ClojureBelow root ["x.clj"] := by
      intro root hroot
      simp only [List.mem_cons, List.not_mem_nil, or_false] at hroot
      rcases hroot with rfl | rfl
      · exact ⟨⟨List.cons_ne_nil _ _, ["-"], 0, rfl, by decide +kernel⟩, by decide +kernel⟩
      · exact ⟨⟨List.cons_ne_nil _ _, ["a"], 0, rfl, by decide +kernel⟩, by decide +kernel⟩
    refine ⟨hbelow _ (by simp), hbelow _ (by simp), fun u hfound => ?_⟩
    have hroots : sourceRoots twinSession.world [⟨"-"⟩, ⟨"a"⟩] = [⟨"-"⟩, ⟨"a"⟩] := by decide +kernel
    obtain ⟨hexact, -, -⟩ := hlaw [⟨"-"⟩, ⟨"a"⟩]
    rw [hroots] at hexact
    rcases (hexact [⟨"/-"⟩, ⟨"/a"⟩] (by decide +kernel)).2.1 ⟨u, hfound⟩ with
      ⟨v, hv, -⟩ | ⟨names, i, j, hlt, hfirst, -⟩
    · exact absurd hv List.not_mem_nil
    · have hzero : i = 0 := by
        apply Fin.ext
        have := j.isLt
        simp only [List.length_cons, List.length_nil] at this
        change i.val = 0
        omega
      rw [hzero] at hfirst
      exact absurd hfirst.1 (by decide +kernel)

end ClojureBuild
