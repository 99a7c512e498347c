import ClojureBuild.Proofs.Compile.Phases
import ClojureBuild.Proofs.Planning.Partition
import ClojureBuild.Proofs.Rules.Marks
import ClojureBuild.Proofs.World.Links
import ClojureBuild.Process.Scripted
/-!
When the Clojure compiler runs, and what a summary accounts for.

All compile rules of a plan share one action, and the copies come behind them.  So the compiler runs
once if a located unit is stale and not at all otherwise, in front of every copy and of every other
compiler; and a report holds each rule once, under its kind.
-/

namespace ClojureBuild

variable {t : Toolchain} {o : CompileOptions} {run : Runner} {request : CompileRequest}
  {plan : CompilePlan}

/-! ### Checking the rules of a plan -/

theorem exists_modified_of_isFile {w : World} {p : Path} (h : w.isFile p = true) :
    ∃ made, w.modified p = .ok made := by
  obtain ⟨loc, node, hstat, -⟩ := World.isFile_eq_true_iff.1 h
  refine ⟨node.modified, ?_⟩
  rw [World.modified, hstat]
  rfl

namespace Planned

variable {w : World}

theorem copies_eq (hplan : Planned w o request plan) :
    plan.mirror.copies =
      (sourceRoots w request.sources).flatMap (Mirror.askedBelow w plan.libs plan.target) := by
  have hduplicate := hplan.mirrored
  rw [hplan.mirror] at hduplicate ⊢
  exact Mirror.copies_eq hduplicate

theorem exists_of_mem_copies (hplan : Planned w o request plan) {c : MirrorCopy}
    (hc : c ∈ plan.mirror.copies) :
    ∃ root ∈ sourceRoots w request.sources, c.source ∈ w.filesUnder true root := by
  rw [hplan.copies_eq] at hc
  obtain ⟨root, hroot, hasked⟩ := List.mem_flatMap.1 hc
  obtain ⟨p, hp, hask⟩ := List.mem_filterMap.1 hasked
  obtain ⟨u, relative, -, -, -, rfl⟩ := ofFile?_eq_some_iff.1 hask
  exact ⟨root, hroot, hp⟩

theorem isFile_of_mem_located (hplan : Planned w o request plan) {x : LocatedUnit}
    (hx : x ∈ plan.survey.located) : w.isFile x.source = true := by
  have hfailure := hplan.located
  rw [hplan.survey] at hx hfailure
  obtain ⟨u, -, root, -, hfile, rfl⟩ := (Survey.mem_located_iff hfailure).1 hx
  rw [LocatedUnit.source_at]
  exact hfile

/-- The checks of a plan's rules cannot fail, as long as the system takes the paths of the mirrored
sources. -/
theorem exists_states (hplan : Planned w o request plan) (htree : w.IsTree) {force : Bool}
    (hreach : force = false →
      ∀ c ∈ plan.mirror.copies, c.source.text.length < World.pathLimit) :
    ∃ found, Rules.states w force plan.rules =
      (.ok found : Except (Rules.Failure BuildError.ActionCause) (List Rules.Freshness)) := by
  cases force with
  | true => exact ⟨_, Rules.states_force w plan.rules⟩
  | false =>
      refine Rules.exists_states_iff.2 fun rule hrule => ?_
      rcases List.mem_append.1 hrule with hcompile | hmirror
      · obtain ⟨x, hx, rfl⟩ := List.mem_map.1 hcompile
        exact exists_modified_of_isFile (hplan.isFile_of_mem_located hx)
      · obtain ⟨c, hc, rfl⟩ := List.mem_map.1 hmirror
        obtain ⟨root, -, hshown⟩ := hplan.exists_of_mem_copies hc
        obtain ⟨found, hfound⟩ :=
          World.exists_stat_of_mem_filesUnder htree hshown (hreach rfl c hc)
        exact ⟨found.2.modified, by rw [World.modified, hfound]; rfl⟩

end Planned

/-! ### The steps of an execution -/

/-- A runner notes each program that it is asked to run, and marks no other step. -/
def Runner.Records (run : Runner) : Prop :=
  ∀ i s, ((run i).runIn s).2.marks = s.marks ++ [.ran i]

theorem Runner.Records.marked (h : Runner.Records run) {P : Mark → Prop} {i : Invocation}
    (hi : P (.ran i)) : Task.Leads (Marked P) (run i) :=
  fun s => ⟨[.ran i], fun _ hmark => List.mem_singleton.1 hmark ▸ hi, h i s⟩

/-- A step copies a mirrored source of a plan. -/
def CompilePlan.Copies (plan : CompilePlan) (mark : Mark) : Prop :=
  ∃ c ∈ plan.mirror.copies, mark = .copied c.source.display c.target.display

/-- A step runs a compiler of another language. -/
def Toolchain.Delegates (t : Toolchain) (mark : Mark) : Prop :=
  ∃ i : Invocation, i.program ∈ t.delegates ∧ mark = .ran i

/-- The located units that are stale in a world. -/
def CompilePlan.staleUnits (plan : CompilePlan) (force : Bool) (w : World) : List LocatedUnit :=
  plan.survey.located.filter fun u => (Survey.ruleFor plan.target 0 u).staleIn force w

theorem CompilePlan.staleUnits_eq_nil_iff {force : Bool} {w : World} :
    plan.staleUnits force w = [] ↔
      0 ∉ (plan.survey.rules plan.target 0).filterMap (Rules.Rule.staleAction? force w) := by
  rw [staleUnits, List.filter_eq_nil_iff, List.mem_filterMap]
  constructor
  · rintro hfresh ⟨rule, hrule, hnamed⟩
    obtain ⟨x, hx, rfl⟩ := List.mem_map.1 hrule
    exact hfresh x hx (Rules.Rule.staleAction?_eq_some_iff.1 hnamed).1
  · intro hnone x hx hstale
    exact hnone ⟨_, List.mem_map_of_mem hx, Rules.Rule.staleAction?_eq_some_iff.2 ⟨hstale, rfl⟩⟩

theorem marks_compileAction (hrecords : Runner.Records run) {invocation : Invocation}
    {target : Path} {s : Session} (hdirs : (s.world.makeDirs target).2 = .ok ()) :
    ((compileAction run invocation target).task.runIn s).2.marks =
      s.marks ++ [.ran invocation] := by
  simp only [compileAction, Task.runIn_mapError, Task.runIn_bind, Task.runIn_change, hdirs,
    Task.runIn_log, Task.mapError_ok]
  rw [hrecords]
  have hquiet := quiet_log (by decide : LogArea.invocation ≠ .rules) .trace "compiling"
    [("command", invocation.display)]
  exact congrArg (· ++ _) (marks_note hquiet { s with world := (s.world.makeDirs target).1 })

theorem shared_survey_rules (plan : CompilePlan) :
    ∀ rule ∈ plan.survey.rules plan.target 0, rule.action = .invoke 0 := by
  intro rule hrule
  obtain ⟨x, -, rfl⟩ := List.mem_map.1 hrule
  rfl

/-- What an execution of a plan marks: one run if a located unit is stale, and then copies. -/
theorem marks_execute (hrecords : Runner.Records run) {force : Bool} {s : Session}
    (hdirs : (s.world.makeDirs plan.target).2 = .ok ()) {found : List Rules.Freshness}
    (hfound : Rules.states s.world force plan.rules =
      (.ok found : Except (Rules.Failure BuildError.ActionCause) (List Rules.Freshness))) :
    ∃ copies, (∀ mark ∈ copies, plan.Copies mark) ∧
      ((Rules.execute force (plan.graph run)).runIn s).2.marks =
        s.marks ++ (if plan.staleUnits force s.world = [] then [] else [.ran plan.invocation]) ++
          copies := by
  have hruns : ∀ (entry : Rules.Entry) (begun : Session), begun.world = s.world →
      ((Rules.perform (plan.graph run) entry (.run 0)).runIn begun).2.marks =
        begun.marks ++ [.ran plan.invocation] := by
    intro entry begun hbegun
    have hquiet : Quiet [.log .rules .debug "stale, running action"
        [("output", entry.1.target.display), ("state", entry.2.name),
          ("action", compileLabel)]] := by
      intro event hevent
      obtain rfl := List.mem_singleton.1 hevent
      rfl
    rw [← marks_note hquiet begun]
    exact marks_compileAction hrecords (hbegun ▸ hdirs)
  have hcopies : ∀ rule ∈ plan.mirror.rules,
      rule.action = .copy ∧ plan.Copies (.copied rule.source.display rule.target.display) := by
    intro rule hrule
    obtain ⟨c, hc, rfl⟩ := List.mem_map.1 hrule
    exact ⟨rfl, c, hc, rfl⟩
  obtain ⟨copies, hcopied, hmarks⟩ := Rules.marks_execute_shared (g := plan.graph run) hfound rfl
    (shared_survey_rules plan) hcopies hruns
  refine ⟨copies, hcopied, hmarks.trans ?_⟩
  by_cases hstale : plan.staleUnits force s.world = []
  · rw [if_pos hstale, if_neg (CompilePlan.staleUnits_eq_nil_iff.1 hstale)]
  · rw [if_neg hstale, if_pos (by simpa [CompilePlan.staleUnits_eq_nil_iff] using hstale)]

/-! ### The report of an execution -/

/-- What an execution of a plan reports when it succeeds. -/
theorem report_execute {force : Bool} {s s' : Session} {report : Rules.Report}
    (h : (Rules.execute force (plan.graph run)).runIn s = (.ok report, s')) :
    report.rebuilt =
        (plan.staleUnits force s.world).map (fun u => u.id.initArtifact plan.target) ∧
      report.fresh.length + report.rebuilt.length + report.copied.length =
        plan.survey.located.length + plan.mirror.copies.length := by
  obtain rfl := Rules.report_eq_of_execute h
  have hrules : (plan.graph run).rules = plan.rules := rfl
  rw [hrules]
  constructor
  · have hcopies : plan.mirror.rules.filter
        (fun r => r.staleIn force s.world && r.invokes) = [] := by
      rw [List.filter_eq_nil_iff]
      intro rule hrule
      obtain ⟨c, -, rfl⟩ := List.mem_map.1 hrule
      simp [Rules.Rule.invokes]
    have hunits : plan.survey.located.filter ((fun r => r.staleIn force s.world && r.invokes) ∘
        Survey.ruleFor plan.target 0) = plan.staleUnits force s.world := by
      refine List.filter_congr fun u _ => ?_
      exact Bool.and_true _
    simp only [CompilePlan.rules, List.filter_append, hcopies, List.append_nil]
    rw [Survey.rules, List.filter_map, List.map_map, hunits]
    exact List.map_congr_left fun u _ => Survey.target_ruleFor plan.target 0 u
  · have hcount := (Rules.perm_kinds (Rules.Rule.staleIn force s.world) plan.rules).length_eq
    simp only [List.length_append, List.length_map] at hcount ⊢
    rw [hcount, CompilePlan.rules, List.length_append, Survey.rules, Mirror.rules, List.length_map,
      List.length_map]

/-! ### Whole compilations -/

/-- What a compilation has to account for. -/
structure Accounted (t : Toolchain) (o : CompileOptions) (request : CompileRequest) (force : Bool)
    (plan : CompilePlan) (s s' : Session) (result : Except BuildError CompileSummary) : Prop where
  planned : Planned s.world o request plan
  target : absolutePath s.world request.target = .ok plan.target
  /-- The compiler is given the whole compile list in its order. -/
  invocation : plan.invocation = compileInvocation t.java
    (Classpath.render plan.classpath plan.target) plan.target
      (CompilePlan.chooseLibs s.world o (sourceRoots s.world request.sources))
  /-- The look at the rules that comes first does not fail. -/
  checked : ∃ found, Rules.states s.world force plan.rules =
    (.ok found : Except (Rules.Failure BuildError.ActionCause) (List Rules.Freshness))
  /-- The compiler runs if a located unit is stale, in front of the copies and of the compilers of
  other languages. -/
  marks : ∃ copies others, (∀ mark ∈ copies, plan.Copies mark) ∧
    (∀ mark ∈ others, t.Delegates mark) ∧
    s'.marks = s.marks ++
      (if plan.staleUnits force s.world = [] then [] else [.ran plan.invocation]) ++
        copies ++ others
  located : (plan.survey.located.map (·.id)).Sublist plan.libs
  summary : ∀ summary, result = .ok summary →
    summary.libs = plan.libs ∧ summary.located = plan.survey.located ∧
      summary.located.length ≤ summary.libs.length ∧
      summary.report.rebuilt =
        (plan.staleUnits force s.world).map (fun u => u.id.initArtifact plan.target) ∧
      summary.report.fresh.length + summary.report.rebuilt.length +
        summary.report.copied.length = summary.located.length + summary.mirrored

/-- Behind rules that were all carried out a compilation asks the compilers of other languages at
most. -/
theorem exists_dispatch_marks (hrecords : Runner.Records run) {force : Bool}
    {s planned mid : Session} {report : Rules.Report}
    (hplan : (planCompile t o request).runIn s = (.ok plan, planned))
    (hrules : (Rules.execute force (plan.graph run)).runIn planned = (.ok report, mid)) :
    ∃ others, (∀ mark ∈ others, t.Delegates mark) ∧
      ((compile t o run force request).runIn s).2.marks = mid.marks ++ others := by
  rw [session_compile hplan hrules]
  exact Delegate.dispatch_leads (marked_routine t.Delegates) t o
    (fun program hprogram args => hrecords.marked ⟨⟨program, args⟩, hprogram, rfl⟩)
    ⟨request.sources, plan.target, plan.classpath⟩ mid

/-- A compilation whose plan succeeds and whose target can be made runs the compiler once if a
located unit is stale and not at all otherwise, first of all that it does; its checks do not fail,
and its summary accounts for every rule.  An unforced look asks that the system takes the paths of
the mirrored sources. -/
theorem compile_accounted (hrecords : Runner.Records run) {force : Bool} {s planned s' : Session}
    {result : Except BuildError CompileSummary} (htree : s.world.IsTree)
    (hplan : (planCompile t o request).runIn s = (.ok plan, planned))
    (hdirs : (s.world.makeDirs plan.target).2 = .ok ())
    (hreach : force = false →
      ∀ c ∈ plan.mirror.copies, c.source.text.length < World.pathLimit)
    (hrun : (compile t o run force request).runIn s = (result, s')) :
    Accounted t o request force plan s s' result := by
  obtain ⟨hplanned, htarget, hinvocation⟩ := eq_of_planCompile hplan
  obtain ⟨hworld, hquiet⟩ := planCompile_untouched hplan
  obtain ⟨found, hfound⟩ := hplanned.exists_states htree hreach
  have hexecuted := marks_execute (s := planned) hrecords (hworld.symm ▸ hdirs)
    (hworld.symm ▸ hfound)
  rw [hworld, hquiet] at hexecuted
  obtain ⟨copies, hcopies, hmarks⟩ := hexecuted
  have hlocated := hplanned.located_sublist
  refine {
    planned := hplanned
    target := htarget
    invocation := hplanned.libs ▸ hinvocation
    checked := ⟨found, hfound⟩
    located := hlocated
    marks := ?_
    summary := ?_ }
  · rcases hrules : (Rules.execute force (plan.graph run)).runIn planned with ⟨outcome, mid⟩
    rw [hrules] at hmarks
    cases outcome with
    | error e =>
        rw [compile_of_execute_error hplan hrules] at hrun
        obtain ⟨-, rfl⟩ := Prod.mk.inj hrun
        exact ⟨copies, [], hcopies, by simp, by rw [List.append_nil]; exact hmarks⟩
    | ok report =>
        obtain ⟨others, hothers, hlast⟩ := exists_dispatch_marks hrecords hplan hrules
        rw [hrun] at hlast
        exact ⟨copies, others, hcopies, hothers, by rw [hlast, hmarks]⟩
  · rintro summary rfl
    obtain ⟨report, mid, mixed, hrules, -, rfl⟩ := exists_of_compile_eq_ok hplan hrun
    obtain ⟨hrebuilt, hcount⟩ := report_execute hrules
    rw [hworld] at hrebuilt
    exact ⟨rfl, rfl, by simpa using hlocated.length_le, hrebuilt, hcount⟩

/-- A runner that follows a script notes what it is asked to run. -/
theorem Scripted.records_runner (script : List Scripted.Upset) :
    Runner.Records (Scripted.runner script) := by
  intro i s
  have hnoted : ({ s with journal := s.journal ++ [.invoked i] } : Session).marks =
      s.marks ++ [.ran i] := by
    simp [Session.marks, Event.mark?]
  rw [runner, Task.runIn_bind, Task.runIn_note]
  simp only
  split
  · split <;> exact hnoted
  · exact hnoted

/-- A tree with a unit to compile and a source to copy. -/
def pairSession : Session where
  world := {
    nodes := [(["src"], .dir 0), (["a.clj", "src"], .file ByteArray.empty 0 false),
      (["b.clj", "src"], .file ByteArray.empty 0 false)]
    cwd := []
    clock := 1 }
  journal := []

/-- A compilation of one unit. -/
def pairOptions : CompileOptions := { (default : CompileOptions) with libs := some [⟨"a"⟩] }

def pairRequest : CompileRequest := ⟨[⟨"src"⟩], ⟨"out"⟩, []⟩

theorem compile_accounted_pair : ∃ plan,
    plan.staleUnits false pairSession.world = [⟨⟨"a"⟩, ⟨"src"⟩, ⟨"src/a.clj"⟩⟩] ∧
      Accounted default pairOptions pairRequest false plan pairSession
        ((compile default pairOptions (Scripted.runner []) false pairRequest).runIn pairSession).2
        ((compile default pairOptions (Scripted.runner []) false pairRequest).runIn
          pairSession).1 := by
  rcases hplan : (planCompile default pairOptions pairRequest).runIn pairSession
    with ⟨result, planned⟩
  have hfacts : (((planCompile default pairOptions pairRequest).runIn pairSession).1.toOption.any
      fun plan => plan.staleUnits false pairSession.world = [⟨⟨"a"⟩, ⟨"src"⟩, ⟨"src/a.clj"⟩⟩] ∧
        (pairSession.world.makeDirs plan.target).2 = .ok () ∧
        ∀ c ∈ plan.mirror.copies, c.source.text.length < World.pathLimit) = true := by
    decide +kernel
  rw [hplan] at hfacts
  cases result with
  | error e => exact absurd hfacts (by simp [Except.toOption])
  | ok plan =>
      obtain ⟨hstale, hdirs, hreach⟩ := of_decide_eq_true hfacts
      exact ⟨plan, hstale, compile_accounted (Scripted.records_runner []) (by decide +kernel) hplan
        hdirs (fun _ => hreach) rfl⟩

/-! ### Behind a root with a long path -/

/-- A tree with a unit to compile below one root and a source below another. -/
def farSession : Session where
  world := {
    nodes := [(["lib"], .dir 0), (["b.clj", "lib"], .file ByteArray.empty 0 false),
      (["src"], .dir 0), (["a.clj", "src"], .file ByteArray.empty 0 false)]
    cwd := []
    clock := 1 }
  journal := []

def farOptions : CompileOptions := { (default : CompileOptions) with libs := some [⟨"b"⟩] }

/-- The second root is one that the system takes, though not the file below it. -/
def farRequest : CompileRequest := ⟨[⟨"lib"⟩, longRoot], ⟨"out"⟩, []⟩

theorem sourceRoots_far :
    sourceRoots farSession.world farRequest.sources = [⟨"lib"⟩, longRoot] := by
  have hlong : farSession.world.isDir longRoot = true := by
    rw [World.isDir, stat_longRoot (t := 0) rfl rfl]
    rfl
  have hlib : farSession.world.isDir ⟨"lib"⟩ = true := by decide +kernel
  simp [sourceRoots, farRequest, hlib, hlong]

theorem clojureBelow_lib {names : List String}
    (h : farSession.world.ClojureBelow ⟨"lib"⟩ names) : names = ["b.clj"] := by
  have hnames : farSession.world.clojureNames ⟨"lib"⟩ = [["b.clj"]] := by decide
  exact List.mem_singleton.1 (hnames ▸ h.mem_clojureNames)

theorem clojureBelow_far {names : List String}
    (h : farSession.world.ClojureBelow longRoot names) : names = plainSource.file := by
  have hmem := h.1.mem_entriesBelow (stat_longRoot rfl rfl)
  have hentries : (farSession.world.entriesBelow ["src"]).map Prod.fst = [[], ["a.clj"]] := by
    decide
  rw [hentries] at hmem
  simp only [List.mem_cons, List.not_mem_nil, or_false, List.reverse_eq_iff] at hmem
  rcases hmem with rfl | rfl
  · exact absurd rfl h.1.1
  · rfl

theorem plainSources_far : PlainSources farSession.world [⟨"lib"⟩, longRoot] [⟨"b"⟩] := by
  have heither : ∀ {root : Path}, root ∈ [⟨"lib"⟩, longRoot] → root = ⟨"lib"⟩ ∨ root = longRoot :=
    fun hroot => by simpa using hroot
  refine ⟨by decide +kernel, by decide +kernel, ?walkable, ?canonical, ?opens, ?named, ?reach⟩
  case walkable =>
    intro root hroot
    rcases heither hroot with rfl | rfl
    · decide +kernel
    · exact walkable_longRoot
  case canonical =>
    intro root hroot names hbelow
    rcases heither hroot with rfl | rfl
    · exact ⟨[], "b", clojureBelow_lib hbelow, by decide⟩
    · exact ⟨[], "a", clojureBelow_far hbelow, by decide⟩
  case opens =>
    intro root hroot names hbelow
    rcases heither hroot with rfl | rfl
    · rw [clojureBelow_lib hbelow]
      decide +kernel
    · rw [clojureBelow_far hbelow]
      exact opens_longRoot
  case named =>
    intro u hu
    obtain rfl := List.mem_singleton.1 hu
    have hparse : UnitId.parse "b" = .ok ⟨"b"⟩ := rfl
    exact SourceName.exists_of_parse hparse (by decide)
  case reach =>
    intro root hroot n hbelow hmem
    rcases heither hroot with rfl | rfl
    · rw [clojureBelow_lib hbelow]
      decide +kernel
    · rw [SourceName.file_injective (clojureBelow_far hbelow)] at hmem
      exact absurd hmem (by decide)

theorem noClash_far : NoClash farSession.world [⟨"lib"⟩, longRoot] := by
  refine List.pairwise_pair.2 fun names hboth => ?_
  have hsame := (clojureBelow_lib hboth.1).symm.trans (clojureBelow_far hboth.2)
  exact absurd hsame (by decide)

/-- The request can be planned, and its plan copies the source below the second root. -/
theorem exists_plan_far : ∃ plan planned,
    (planCompile default farOptions farRequest).runIn farSession = (.ok plan, planned) ∧
      (farSession.world.makeDirs plan.target).2 = .ok () ∧
        ∃ c ∈ plan.mirror.copies, c.source = longRoot.descend plainSource.file := by
  have hlibs : CompilePlan.chooseLibs farSession.world farOptions
      (sourceRoots farSession.world farRequest.sources) = [⟨"b"⟩] := rfl
  have htarget : absolutePath farSession.world farRequest.target = .ok ⟨"/out"⟩ := by decide +kernel
  obtain ⟨classpath, hclasspath⟩ : ∃ classpath, (default : Toolchain).classpath farSession.world
      (CompilePlan.entries farRequest (sourceRoots farSession.world farRequest.sources)) =
        .ok classpath := by
    rw [sourceRoots_far]
    have hroots : ∀ root ∈ [⟨"lib"⟩, longRoot], root.text ≠ "" :=
      fun root hroot => (plainSources_far.walkable root hroot).nonempty
    have hfound := exists_resolve farSession.world (default : Toolchain).repository hroots
    exact hfound
  have hsucceeds : PlanSucceeds farSession.world [⟨"lib"⟩, longRoot] [⟨"b"⟩] ⟨"/out"⟩ :=
    plainSources_far.planSucceeds_iff_noClash.2 noClash_far
  obtain ⟨plan, planned, hplan, hat⟩ := exists_planCompile htarget hclasspath
    (by rw [hlibs, sourceRoots_far]; exact hsucceeds)
  refine ⟨plan, planned, hplan, ?_, ?_⟩
  · rw [hat]
    decide +kernel
  · have hplanned := planned_of_runIn hplan
    have hbelow : farSession.world.ClojureBelow longRoot plainSource.file :=
      (clojureBelow_file_iff plainSource).2
        ⟨plainSource.file_ne_nil, ["src"], 0, stat_longRoot rfl rfl, rfl⟩
    rw [hplanned.copies_eq, hplanned.libs, hlibs, sourceRoots_far]
    have hlast : longRoot ∈ [⟨"lib"⟩, longRoot] := by simp
    have hasked : ⟨plainSource.unit, longRoot.descend plainSource.file,
        plan.target.descend plainSource.file⟩ ∈
          Mirror.askedBelow farSession.world [⟨"b"⟩] plan.target longRoot :=
      (plainSources_far.mem_askedBelow_iff hlast).2 ⟨plainSource, hbelow, by decide, rfl⟩
    exact ⟨_, List.mem_flatMap.2 ⟨longRoot, hlast, hasked⟩, rfl⟩

/-- Without the bound on paths the law fails: the look at a mirrored source behind a long root
fails, so that nothing is run. -/
theorem not_accounted_of_long_path :
    ¬ ∀ (t : Toolchain) (o : CompileOptions) (run : Runner) (request : CompileRequest)
      (plan : CompilePlan) (force : Bool) (s planned s' : Session)
      (result : Except BuildError CompileSummary), Runner.Records run → s.world.IsTree →
      (planCompile t o request).runIn s = (.ok plan, planned) →
      (s.world.makeDirs plan.target).2 = .ok () →
      (compile t o run force request).runIn s = (result, s') →
      Accounted t o request force plan s s' result := by
  intro hclaim
  obtain ⟨plan, planned, hplan, hdirs, c, hc, hsource⟩ := exists_plan_far
  have hlaw := hclaim default farOptions (Scripted.runner []) farRequest plan false farSession
    planned _ _ (Scripted.records_runner []) (by decide +kernel) hplan hdirs Prod.mk.eta.symm
  have hrule : (⟨c.target, c.source, .copy⟩ : Rules.Rule) ∈ plan.rules :=
    List.mem_append_right _ (List.mem_map_of_mem hc)
  obtain ⟨made, hmade⟩ := Rules.exists_states_iff.1 hlaw.checked _ hrule
  obtain ⟨found, hfound, -⟩ := Task.exists_of_bind_eq_ok hmade
  have hask := (World.resolve_eq_ok.1 (World.stat_eq_ok.1 hfound).1).1
  rw [hsource] at hask
  exact not_short_longRoot hask.short

end ClojureBuild
