import ClojureBuild.Proofs.Compile.Primary
import ClojureBuild.Proofs.Rules.Settled
import ClojureBuild.Proofs.World.Absolute
import ClojureBuild.Proofs.World.Making
/-!
When the Clojure compiler fails.

The compiler is asked first of all that an execution does beside looking and passing over targets.
Main statement: a compilation whose compiler fails ends there, with the compiler's own error, and by
then it has made the target and nothing else; one whose rules were all carried out goes on to the
compilers of other languages once, behind the last copy.
-/

namespace ClojureBuild

namespace Rules

variable {ε : Type}

/-- Deeds that run no action are done alike in every graph. -/
theorem performEach_congr (g g' : Graph ε) {todo : List (Entry × Deed)}
    (h : ∀ one ∈ todo, one.2.action? = none) : performEach g todo = performEach g' todo := by
  induction todo with
  | nil => rfl
  | cons one rest ih =>
      obtain ⟨entry, deed⟩ := one
      have hrest := ih fun other hother => h other (List.mem_cons_of_mem _ hother)
      rw [performEach, performEach, hrest]
      cases deed with
      | run n => exact absurd (h _ List.mem_cons_self) (by simp [Deed.action?])
      | pass => rfl
      | cover => rfl
      | copy => rfl

section

variable {rules shared copies : List Rule} {force : Bool} {s : Session} {found : List Freshness}

/-- The entries of rules that share an action, in front of those that copy. -/
theorem exists_entries (hrules : rules = shared ++ copies)
    (hshared : ∀ rule ∈ shared, rule.action = .invoke 0)
    (hcopies : ∀ rule ∈ copies, rule.action = .copy)
    (hfound : states s.world force rules = (.ok found : Except (Failure ε) (List Freshness))) :
    ∃ front back : List Entry, rules.zip found = front ++ back ∧
      (∀ e ∈ front, e.1.action = .invoke 0) ∧ (∀ e ∈ back, e.1.action = .copy) ∧
      ((∃ e ∈ front, e.needs 0) ↔ 0 ∈ shared.filterMap (Rule.staleAction? force s.world)) := by
  have hsnap := Snapshot.of_states hfound
  obtain ⟨front, back, hzip, hfront, hback⟩ :=
    List.map_eq_append_iff.1 (hsnap.rules_eq.trans hrules)
  have hseen : Snapshot ε force s.world shared front :=
    ⟨hfront, fun e he => hsnap.seen e (hzip ▸ List.mem_append_left _ he)⟩
  exact ⟨front, back, hzip, fun e he => hshared e.1 (hfront ▸ List.mem_map_of_mem he),
    fun e he => hcopies e.1 (hback ▸ List.mem_map_of_mem he), hseen.exists_needs_iff⟩

/-- An execution with a stale rule asks the shared action in a session that is still as it was, but
for what was noted.  What comes behind it does not depend on the action. -/
theorem exists_execute_of_stale (hrules : rules = shared ++ copies)
    (hshared : ∀ rule ∈ shared, rule.action = .invoke 0)
    (hcopies : ∀ rule ∈ copies, rule.action = .copy)
    (hfound : states s.world force rules = (.ok found : Except (Failure ε) (List Freshness)))
    (hstale : 0 ∈ shared.filterMap (Rule.staleAction? force s.world)) (label : String) :
    ∃ (asked : Session) (rest : Task (Failure ε) Report),
      asked.world = s.world ∧ asked.marks = s.marks ∧ ∀ action : Action ε, action.label = label →
        (execute force ⟨[action], rules⟩).runIn s =
          match action.task.runIn asked with
          | (.ok _, after) => rest.runIn after
          | (.error e, after) => (.error (.actionFailed label e), after) := by
  obtain ⟨front, back, hzip, hfront, hback, hneeds⟩ :=
    exists_entries hrules hshared hcopies hfound
  obtain ⟨passed, entry, others, hsplit, hpass, hothers⟩ :=
    @exists_first_run 0 [] front hfront (by simp) (hneeds.2 hstale)
  have hidle : ∀ one ∈ passed, one.2.action? = none := fun one hone => by rw [hpass one hone]; rfl
  have hlast : ∀ one ∈ others ++ back.zip (deedsAfter front back), one.2.action? = none := by
    intro one hone
    rcases List.mem_append.1 hone with hone | hone
    · exact (hothers one hone).1
    · exact action?_of_copies hback one hone
  have hdeeds : (rules.zip found).zip (deeds (rules.zip found)) =
      passed ++ (entry, .run 0) :: (others ++ back.zip (deedsAfter front back)) := by
    rw [deeds, hzip, zip_deedsAfter_append, List.nil_append, hsplit, List.append_assoc]
    rfl
  obtain ⟨mid, hpassed, hworld, hmarks⟩ := exists_performEach_quiet (g := ⟨[], rules⟩) hpass s
  refine ⟨{ mid with journal := mid.journal ++ [.log .rules .debug "stale, running action"
      [("output", entry.1.target.display), ("state", entry.2.name), ("action", label)]] },
    do
      performEach ⟨[], rules⟩ (others ++ back.zip (deedsAfter front back))
      return (Progress.start.afterAll [] (rules.zip found)).report,
    hworld, ?_, ?_⟩
  · simpa [Session.marks, Event.mark?] using hmarks
  · rintro action rfl
    have hrun := execute_runIn_of_snapshot (g := ⟨[action], rules⟩) (Snapshot.of_states hfound)
    rw [hrun, performAll, hdeeds, performEach_append, performEach_congr _ ⟨[], rules⟩ hidle,
      hpassed]
    simp only [performEach, Task.runIn_bind, perform, List.getElem?_cons_zero, runAction,
      Task.runIn_log, Task.runIn_mapError, performEach_congr _ ⟨[], rules⟩ hlast]
    rcases action.task.runIn _ with ⟨result, after⟩
    cases result with
    | error e => rfl
    | ok u =>
        simp only [Task.mapError_ok]
        rcases (performEach _ _).runIn after with ⟨outcome, left⟩
        cases outcome <;> rfl

/-- An execution without a stale rule, or whose first look fails, does not ask the shared action. -/
theorem execute_eq_of_fresh (hrules : rules = shared ++ copies)
    (hshared : ∀ rule ∈ shared, rule.action = .invoke 0)
    (hcopies : ∀ rule ∈ copies, rule.action = .copy)
    (hfound : states s.world force rules = (.ok found : Except (Failure ε) (List Freshness)))
    (hfresh : 0 ∉ shared.filterMap (Rule.staleAction? force s.world)) (action action' : Action ε) :
    (execute force ⟨[action], rules⟩).runIn s = (execute force ⟨[action'], rules⟩).runIn s := by
  obtain ⟨front, back, hzip, hfront, hback, hneeds⟩ :=
    exists_entries hrules hshared hcopies hfound
  have hidle : ∀ one ∈ (rules.zip found).zip (deeds (rules.zip found)), one.2.action? = none := by
    rw [deeds, hzip, zip_deedsAfter_append, List.nil_append]
    intro one hone
    rcases List.mem_append.1 hone with hone | hone
    · rw [pass_of_fresh hfront (fun h => hfresh (hneeds.1 h)) one hone]
      rfl
    · exact action?_of_copies hback one hone
  rw [execute_runIn_of_snapshot (g := ⟨[action], rules⟩) (Snapshot.of_states hfound),
    execute_runIn_of_snapshot (g := ⟨[action'], rules⟩) (Snapshot.of_states hfound), performAll,
    performAll, performEach_congr _ ⟨[action'], rules⟩ hidle]

end

end Rules

variable {t : Toolchain} {o : CompileOptions} {run : Runner} {request : CompileRequest}
  {plan : CompilePlan} {force : Bool} {s planned : Session}

/-! ### Asking the compiler -/

/-- A compilation asks the Clojure compiler: the look at the rules does not fail, a located unit is
stale, and the target can be made. -/
structure CompilePlan.Asks (plan : CompilePlan) (force : Bool) (w : World) : Prop where
  checked : ∃ found, Rules.states w force plan.rules =
    (.ok found : Except (Rules.Failure BuildError.ActionCause) (List Rules.Freshness))
  stale : plan.staleUnits force w ≠ []
  made : (w.makeDirs plan.target).2 = .ok ()

/-- What a compilation did when it asks the Clojure compiler: it made the target, with what was
missing above it, and neither ran nor copied anything. -/
structure CompilePlan.Begins (plan : CompilePlan) (s begun : Session) : Prop where
  world : begun.world = (s.world.makeDirs plan.target).1
  marks : begun.marks = s.marks
  /-- Directories were added that the target or one above it leads to, and nothing else changed. -/
  added : World.Footprint (fun _ => False) (begun.world.LeadTo (World.ancestors plan.target))
    s.world begun.world
  target : begun.world.isDir plan.target = true

theorem copies_mirror_rules (plan : CompilePlan) :
    ∀ rule ∈ plan.mirror.rules, rule.action = .copy := by
  intro rule hrule
  obtain ⟨c, -, rfl⟩ := List.mem_map.1 hrule
  rfl

/-- The action of a plan asks the compiler once the target is made, and not if that fails. -/
theorem compileAction_runIn (i : Invocation) (target : Path) (s : Session) :
    ∃ begun : Session, begun.world = (s.world.makeDirs target).1 ∧ begun.marks = s.marks ∧
      ∀ run : Runner, (compileAction run i target).task.runIn s =
        match (s.world.makeDirs target).2 with
        | .ok _ => (((run i).runIn begun).1.mapError .build, ((run i).runIn begun).2)
        | .error cause =>
            (.error (.build (.io target cause)),
              { s with world := (s.world.makeDirs target).1 }) := by
  have hquiet := quiet_log (by decide : LogArea.invocation ≠ .rules) .trace "compiling"
    [("command", i.display)]
  refine ⟨_, rfl, marks_note hquiet { s with world := (s.world.makeDirs target).1 }, fun run => ?_⟩
  simp only [compileAction, Task.runIn_mapError, Task.runIn_bind, Task.runIn_change, Task.runIn_log]
  cases (s.world.makeDirs target).2 with
  | error cause => rfl
  | ok u => rfl

theorem mem_staleAction?_iff {w : World} :
    0 ∈ (plan.survey.rules plan.target 0).filterMap (Rules.Rule.staleAction? force w) ↔
      plan.staleUnits force w ≠ [] := by
  rw [ne_eq, CompilePlan.staleUnits_eq_nil_iff, not_not]

/-- An execution of a plan that asks the compiler does so in a session that only began, and what
comes behind the compiler does not depend on it. -/
theorem exists_begins (hasks : plan.Asks force s.world) (htarget : plan.target.text ≠ "")
    (hworld : planned.world = s.world) (hmarks : planned.marks = s.marks) :
    ∃ (begun : Session) (rest : Task (Rules.Failure BuildError.ActionCause) Rules.Report),
      plan.Begins s begun ∧ ∀ run : Runner, (Rules.execute force (plan.graph run)).runIn planned =
        match (run plan.invocation).runIn begun with
        | (.ok _, after) => rest.runIn after
        | (.error e, after) => (.error (.actionFailed compileLabel (.build e)), after) := by
  obtain ⟨⟨found, hfound⟩, hstale, hmade⟩ := hasks
  rw [← hworld] at hfound hstale hmade
  obtain ⟨asked, rest, hasked, hquiet, hrun⟩ := Rules.exists_execute_of_stale rfl
    (shared_survey_rules plan) (copies_mirror_rules plan) hfound (mem_staleAction?_iff.2 hstale)
    compileLabel
  obtain ⟨begun, hbegun, hsame, haction⟩ := compileAction_runIn plan.invocation plan.target asked
  rw [hasked] at hbegun haction
  refine ⟨begun, rest, ⟨hworld ▸ hbegun, hsame.trans (hquiet.trans hmarks), ?_, ?_⟩, fun run => ?_⟩
  · rw [hbegun, hworld]
    exact World.makeDirs_leadTo s.world plan.target
  · rw [hbegun]
    exact World.isDir_of_makeDirs htarget hmade
  · refine (hrun (compileAction run plan.invocation plan.target) rfl).trans ?_
    rw [haction, hmade]
    simp only
    rcases (run plan.invocation).runIn begun with ⟨result, after⟩
    cases result <;> rfl

/-- An execution of a plan that does not ask the compiler is the same whatever the compiler does. -/
theorem execute_eq_of_not_asks (hnot : ¬ plan.Asks force s.world) (hworld : planned.world = s.world)
    (run run' : Runner) : (Rules.execute force (plan.graph run)).runIn planned =
      (Rules.execute force (plan.graph run')).runIn planned := by
  rw [← hworld] at hnot
  cases hstates : (Rules.states planned.world force plan.rules :
      Except (Rules.Failure BuildError.ActionCause) (List Rules.Freshness)) with
  | error e =>
      have hfails : ∀ run : Runner,
          (Rules.execute force (plan.graph run)).runIn planned = (.error e, planned) := by
        intro run
        have hrules : (plan.graph run).rules = plan.rules := rfl
        rw [Rules.execute_runIn, hrules, hstates]
      rw [hfails, hfails]
  | ok found =>
      by_cases hstale : plan.staleUnits force planned.world = []
      · exact Rules.execute_eq_of_fresh rfl (shared_survey_rules plan) (copies_mirror_rules plan)
          hstates (fun h => mem_staleAction?_iff.1 h hstale) _ _
      · obtain ⟨asked, rest, hasked, -, hrun⟩ := Rules.exists_execute_of_stale rfl
          (shared_survey_rules plan) (copies_mirror_rules plan) hstates
          (mem_staleAction?_iff.2 hstale) compileLabel
        obtain ⟨begun, -, -, haction⟩ := compileAction_runIn plan.invocation plan.target asked
        rw [hasked] at haction
        cases hmade : (planned.world.makeDirs plan.target).2 with
        | ok u => exact absurd ⟨⟨found, hstates⟩, hstale, hmade⟩ hnot
        | error cause =>
            refine (hrun (compileAction run plan.invocation plan.target) rfl).trans
              (Eq.trans ?_ (hrun (compileAction run' plan.invocation plan.target) rfl).symm)
            rw [haction, haction, hmade]

/-! ### Whole compilations -/

/-- The place of the Clojure compiler in a compilation. -/
structure AsksFirst (t : Toolchain) (o : CompileOptions) (request : CompileRequest) (force : Bool)
    (plan : CompilePlan) (s planned : Session) : Prop where
  /-- The compiler is asked when the compilation only began.  What it answers decides whether the
  rest of the rules is carried out; an error of its own is that of the compilation, which ends in
  the session that the compiler left. -/
  asked : plan.Asks force s.world →
    ∃ (begun : Session) (rest : Task (Rules.Failure BuildError.ActionCause) Rules.Report),
      plan.Begins s begun ∧ ∀ run : Runner,
        (Rules.execute force (plan.graph run)).runIn planned =
          (match (run plan.invocation).runIn begun with
          | (.ok _, after) => rest.runIn after
          | (.error e, after) => (.error (.actionFailed compileLabel (.build e)), after)) ∧
        ∀ e after, (run plan.invocation).runIn begun = (.error e, after) →
          (compile t o run force request).runIn s = (.error e, after) ∧
            (run.Records → after.marks = s.marks ++ [.ran plan.invocation])
  /-- Otherwise the compiler is not asked: the rules are carried out alike for every runner. -/
  unasked : ¬ plan.Asks force s.world → ∀ run run' : Runner,
    (Rules.execute force (plan.graph run)).runIn planned =
      (Rules.execute force (plan.graph run')).runIn planned
  /-- Behind rules that were all carried out comes one dispatch to the compilers of other languages,
  and no copy. -/
  dispatched : ∀ (run : Runner) report mid,
    (Rules.execute force (plan.graph run)).runIn planned = (.ok report, mid) →
      (compile t o run force request).runIn s =
        (match (Delegate.dispatch t o run
            ⟨request.sources, plan.target, plan.classpath⟩).runIn mid with
        | (.error e, s') => (.error e, s')
        | (.ok mixed, s') =>
            (.ok ⟨plan.libs, plan.survey.located, plan.mirror.copies.length, report, mixed⟩, s')) ∧
      (run.Records → ∃ others, (∀ mark ∈ others, t.Delegates mark) ∧
        ((compile t o run force request).runIn s).2.marks = mid.marks ++ others)

/-- A compilation asks the Clojure compiler before it copies anything or asks another compiler, and
with nothing done but that the target was made.  An error of the compiler, whatever it is, ends the
compilation as it is; rules that were all carried out lead to one dispatch, behind the last copy. -/
theorem compile_asks_first (hplan : (planCompile t o request).runIn s = (.ok plan, planned)) :
    AsksFirst t o request force plan s planned := by
  obtain ⟨hworld, hmarks⟩ := planCompile_untouched hplan
  obtain ⟨-, habsolute, -⟩ := eq_of_planCompile hplan
  have htarget : plan.target.text ≠ "" := World.text_ne_of_isAbsolute
    (World.isAbsolute_of_absolute? (absolutePath_eq_ok_iff.1 habsolute))
  refine ⟨fun hasks => ?asked, fun hnot run run' => execute_eq_of_not_asks hnot hworld run run',
    fun run report mid hrules => ?dispatched⟩
  case asked =>
    obtain ⟨begun, rest, hbegins, hrun⟩ := exists_begins hasks htarget hworld hmarks
    refine ⟨begun, rest, hbegins, fun run => ⟨hrun run, fun e after hfails => ⟨?_, ?_⟩⟩⟩
    · exact compile_of_execute_error hplan (by rw [hrun run, hfails])
    · intro hrecords
      have hran := hrecords plan.invocation begun
      rwa [hfails, hbegins.marks] at hran
  case dispatched =>
    have hcompile := @compile_runIn t o run request plan force s planned hplan
    rw [hrules] at hcompile
    exact ⟨hcompile, fun hrecords => exists_dispatch_marks hrecords hplan hrules⟩

/-- A script by which every program fails. -/
def failingScript : List Scripted.Upset := [⟨none, none, .status "exit status: 1"⟩]

/-- A compiler that fails ends the compilation, and the source that was to be copied is not. -/
theorem compile_asks_first_failing : ∃ (plan : CompilePlan) (after : Session),
    plan.Asks false pairSession.world ∧ plan.mirror.copies ≠ [] ∧
      (compile default pairOptions (Scripted.runner failingScript) false pairRequest).runIn
        pairSession = (.error (.processFailed "" "exit status: 1"), after) ∧
      after.marks = [.ran plan.invocation] := by
  rcases hplan : (planCompile default pairOptions pairRequest).runIn pairSession
    with ⟨result, planned⟩
  have hfacts : (((planCompile default pairOptions pairRequest).runIn pairSession).1.toOption.any
      fun plan => (Rules.states pairSession.world false plan.rules :
          Except (Rules.Failure BuildError.ActionCause) (List Rules.Freshness)).toOption.isSome ∧
        plan.staleUnits false pairSession.world ≠ [] ∧
        (pairSession.world.makeDirs plan.target).2 = .ok () ∧ plan.mirror.copies ≠ [] ∧
        plan.invocation.program.display = "") = true := by
    decide +kernel
  rw [hplan] at hfacts
  cases result with
  | error e => exact absurd hfacts (by simp [Except.toOption])
  | ok plan =>
      obtain ⟨hstates, hstale, hmade, hcopies, hprogram⟩ := of_decide_eq_true hfacts
      have hchecked : ∃ found, Rules.states pairSession.world false plan.rules =
          (.ok found : Except (Rules.Failure BuildError.ActionCause) (List Rules.Freshness)) := by
        cases hfound : (Rules.states pairSession.world false plan.rules :
            Except (Rules.Failure BuildError.ActionCause) (List Rules.Freshness)) with
        | error e => simp [hfound, Except.toOption] at hstates
        | ok found => exact ⟨found, rfl⟩
      have hasks : plan.Asks false pairSession.world := ⟨hchecked, hstale, hmade⟩
      obtain ⟨begun, rest, -, hrun⟩ := (compile_asks_first hplan).asked hasks
      have hfails : (Scripted.runner failingScript plan.invocation).runIn begun =
          (.error (.processFailed "" "exit status: 1"),
            { begun with journal := begun.journal ++ [.invoked plan.invocation] }) := by
        rw [← hprogram]
        rfl
      obtain ⟨hends, hmarks⟩ := (hrun _).2 _ _ hfails
      exact ⟨plan, _, hasks, hcopies, hends, hmarks (Scripted.records_runner failingScript)⟩

end ClojureBuild
