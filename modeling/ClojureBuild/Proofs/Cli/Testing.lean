import ClojureBuild.Cli.Test
import ClojureBuild.Proofs.Classpath
import ClojureBuild.Proofs.Compile.Primary
import ClojureBuild.Proofs.Config.Placement
/-!
What the exit status of `test` tells.

Suites run one after the other.  A suite that passes and one whose process fails both came to an
end, and the next one runs; any other answer of the runner ends the run.  Main statement: a run that
no such answer ends has one outcome for each suite in its order, which says whether the suite
passed; and the command exits with zero or one as all of them passed or some did not, and with an
error wherever no suite list was run to its end.
-/

namespace ClojureBuild

/-! ### Running suites -/

namespace Suite

/-- A call of the runner for a suite, and what it answered. -/
structure Call where
  suite : UnitId
  answer : Except BuildError Unit

namespace Call

/-- The suite came to an end: it passed, or its process failed. -/
def Ended (call : Call) : Prop :=
  call.answer = .ok () ∨ ∃ program status, call.answer = .error (.processFailed program status)

/-- What is reported of a suite that came to an end. -/
def outcome (call : Call) : SuiteOutcome := ⟨call.suite, call.answer.isOk⟩

theorem Ended.judge_eq {call : Call} (h : call.Ended) :
    judge call.answer = .ok call.answer.isOk := by
  rcases h with h | ⟨program, status, h⟩ <;> rw [h] <;> rfl

theorem exists_of_not_ended {call : Call} (h : ¬ call.Ended) :
    ∃ e, call.answer = .error e ∧ judge call.answer = .error e := by
  rw [Ended, not_or] at h
  cases hanswer : call.answer with
  | ok u => exact absurd hanswer h.1
  | error e =>
      refine ⟨e, rfl, ?_⟩
      cases e with
      | processFailed program status => exact absurd ⟨program, status, hanswer⟩ h.2
      | _ => rfl

end Call

section

variable (run : Runner) (java : Path) (classpath : List Path)

/-- From one session to another the runner is called for suites in order, over one classpath, and
gives these answers. -/
inductive Calls : Session → List Call → Session → Prop
  | done {s s' : Session} (hnoted : Noted s s') : Calls s [] s'
  | call {s begun after s' : Session} {call : Call} {rest : List Call} (hnoted : Noted s begun)
      (hrun : (run (invocation java classpath call.suite)).runIn begun = (call.answer, after))
      (hrest : Calls after rest s') : Calls s (call :: rest) s'

end

/-- How the calls for suites end: all of them came to an end and each has its outcome, or the last
call that was made failed in another way. -/
inductive Concludes : List UnitId → List Call → Except BuildError (List SuiteOutcome) → Prop
  | ended {calls : List Call} (hended : ∀ call ∈ calls, call.Ended) :
      Concludes (calls.map Call.suite) calls (.ok (calls.map Call.outcome))
  | stopped {front : List Call} {suite : UnitId} {e : BuildError} {rest : List UnitId}
      (hended : ∀ call ∈ front, call.Ended) (hlast : ¬ (Call.mk suite (.error e)).Ended) :
      Concludes (front.map Call.suite ++ suite :: rest) (front ++ [⟨suite, .error e⟩]) (.error e)

variable {run : Runner} {java : Path} {classpath : List Path} {s s' : Session}

theorem Calls.of_noted {mid : Session} {calls : List Call} (hnoted : Noted s mid)
    (h : Calls run java classpath mid calls s') : Calls run java classpath s calls s' := by
  cases h with
  | done hnext => exact .done (Trans.trans hnoted hnext)
  | call hnext hrun hrest => exact .call (Trans.trans hnoted hnext) hrun hrest

theorem Calls.marks_eq (hrecords : Runner.Records run) {calls : List Call}
    (h : Calls run java classpath s calls s') :
    s'.marks = s.marks ++ calls.map fun call => .ran (invocation java classpath call.suite) := by
  induction h with
  | done hnoted => rw [hnoted.marks, List.map_nil, List.append_nil]
  | call hnoted hrun _ ih =>
      have hran := congrArg (fun answer => Session.marks answer.2) hrun
      rw [ih, ← hran, hrecords, hnoted.marks, List.map_cons, List.append_assoc,
        List.singleton_append]

theorem Concludes.cons {suites : List UnitId} {calls : List Call}
    {result : Except BuildError (List SuiteOutcome)} {call : Call} (hcall : call.Ended)
    (h : Concludes suites calls result) :
    Concludes (call.suite :: suites) (call :: calls) (result.map (call.outcome :: ·)) := by
  cases h with
  | ended hended => exact .ended (List.forall_mem_cons.2 ⟨hcall, hended⟩)
  | @stopped front suite e rest hended hlast =>
      exact .stopped (List.forall_mem_cons.2 ⟨hcall, hended⟩) hlast

theorem quiet_failureEvents (suite : UnitId) (answer : Except BuildError Unit) :
    Quiet (failureEvents suite answer) := by
  unfold failureEvents
  split
  · exact quiet_log (by decide) _ _ _
  · intro event hevent
    exact absurd hevent List.not_mem_nil

/-- One suite is one call, with notes around it. -/
theorem exists_runOne (run : Runner) (java : Path) (classpath : List Path) (suite : UnitId)
    (s : Session) :
    ∃ begun answer after noted, Noted s begun ∧
      (run (invocation java classpath suite)).runIn begun = (answer, after) ∧ Noted after noted ∧
      (runOne run java classpath suite).runIn s =
        ((judge answer).map (SuiteOutcome.mk suite), noted) := by
  have hlog := quiet_log (by decide : LogArea.suite ≠ .rules) .info "running suite"
    [("suite", suite.text)]
  have hcall : ∀ told : Session, Noted s told → ∃ begun answer after noted, Noted s begun ∧
      (run (invocation java classpath suite)).runIn begun = (answer, after) ∧
      Noted after noted ∧
      (do
        Task.log .suite .info "running suite" [("suite", suite.text)]
        let result ← Task.attempt (run (invocation java classpath suite))
        Task.note (failureEvents suite result)
        let passed ← Task.ofExcept (judge result)
        return (⟨suite, passed⟩ : SuiteOutcome)).runIn told =
          ((judge answer).map (SuiteOutcome.mk suite), noted) := by
    intro told htold
    rcases hrun : (run (invocation java classpath suite)).runIn
      { told with journal := told.journal ++ [.log .suite .info "running suite" _] }
      with ⟨answer, after⟩
    refine ⟨_, answer, after, _, Trans.trans htold (noting_noted.note told hlog), hrun,
      noting_noted.note after (quiet_failureEvents suite answer), ?_⟩
    simp only [Task.runIn_bind, Task.runIn_log, Task.runIn_attempt, hrun, Task.runIn_note,
      Task.runIn_ofExcept]
    cases judge answer <;> rfl
  unfold runOne
  by_cases hempty : (!classpath.isEmpty) = true
  · rw [if_pos hempty, Task.runIn_bind, Task.runIn_note]
    exact hcall _ (noting_noted.note s (quiet_rendered _))
  · rw [if_neg hempty]
    exact hcall s (Std.Refl.refl s)

/-- Suites are run in their order, up to the first that does not come to an end. -/
theorem exists_runEach (run : Runner) (java : Path) (classpath : List Path) (suites : List UnitId)
    (s : Session) :
    ∃ calls result s', (runEach run java classpath suites).runIn s = (result, s') ∧
      Calls run java classpath s calls s' ∧ Concludes suites calls result := by
  induction suites generalizing s with
  | nil => exact ⟨[], .ok [], s, rfl, .done (Std.Refl.refl s), @Concludes.ended [] (by simp)⟩
  | cons suite rest ih =>
      obtain ⟨begun, answer, after, noted, hbegun, hrun, hnoted, hone⟩ :=
        exists_runOne run java classpath suite s
      rw [runEach, Task.runIn_bind, hone]
      by_cases hended : (Call.mk suite answer).Ended
      · obtain ⟨calls, result, s', heach, hcalls, hconcludes⟩ := ih noted
        have hjudge : judge answer = .ok answer.isOk := hended.judge_eq
        refine ⟨⟨suite, answer⟩ :: calls, result.map (⟨suite, answer.isOk⟩ :: ·), s', ?_, ?_, ?_⟩
        · rw [hjudge]
          simp only [Except.map, Task.runIn_bind, heach]
          cases result <;> rfl
        · exact .call hbegun hrun (hcalls.of_noted hnoted)
        · exact hconcludes.cons hended
      · obtain ⟨e, hanswer, hjudge⟩ := Call.exists_of_not_ended hended
        simp only at hanswer hjudge
        subst hanswer
        refine ⟨[⟨suite, .error e⟩], .error e, noted, ?_, ?_, ?_⟩
        · rw [hjudge]
          rfl
        · exact .call hbegun hrun (.done hnoted)
        · exact @Concludes.stopped [] suite e rest (by simp) hended

/-- What a run of suites comes to: with an entry that cannot be resolved nothing is done, and else
the suites are called in their order, over the dependencies, the test root and the runtime. -/
structure Faithful (t : Toolchain) (run : Runner) (root : Path)
    (dependencies : List ClasspathEntry) (suites : List UnitId) (s : Session) : Prop where
  unresolved : ∀ entry ∈ dependencies ++ [.path root] ++ t.runtime, ∀ cause,
    Classpath.resolveEntry s.world t.repository entry = .error cause →
      ∃ e, (runAll t run root dependencies suites).runIn s = (.error e, s)
  resolved : ∀ classpath,
    List.Forall₂ (fun entry path => Classpath.resolveEntry s.world t.repository entry = .ok path)
        (dependencies ++ [.path root] ++ t.runtime) classpath →
      ∃ calls result s', (runAll t run root dependencies suites).runIn s = (result, s') ∧
        Calls run t.java classpath s calls s' ∧ Concludes suites calls result ∧
        (Runner.Records run → s'.marks =
          s.marks ++ calls.map fun call => .ran (invocation t.java classpath call.suite))

theorem faithful (t : Toolchain) (run : Runner) (root : Path) (dependencies : List ClasspathEntry)
    (suites : List UnitId) (s : Session) : Faithful t run root dependencies suites s where
  unresolved entry hentry cause h := by
    obtain ⟨e, he⟩ := Classpath.exists_error_of_resolveEntry hentry h
    refine ⟨e, ?_⟩
    rw [runAll, Task.runIn_bind, Task.runIn_look]
    simp only [Task.runIn_bind, Task.runIn_ofExcept, Toolchain.classpath, id, he]
  resolved classpath h := by
    obtain ⟨calls, result, s', heach, hcalls, hconcludes⟩ :=
      exists_runEach run t.java classpath suites s
    refine ⟨calls, result, s', ?_, hcalls, hconcludes, fun hrecords => hcalls.marks_eq hrecords⟩
    rw [runAll, Task.runIn_bind, Task.runIn_look]
    simp only [Task.runIn_bind, Task.runIn_ofExcept, Toolchain.classpath, id,
      Classpath.resolve_eq_ok_iff.2 h, heach]

end Suite

/-! ### The command -/

namespace Cli.Test

section

variable (env : Environment) (runner : Runner) (settings : Settings) (project : Project)
  (name filter : Option String) (s : Session)

/-- The suites that a project selects. -/
def selection : SuiteSelection := .ofSettings project.layout.testRoot project.config.test

/-- The selected suites that are wanted, as a world shows them. -/
def selected (w : World) : List UnitId :=
  ((selection project).suites w).filter (wanted name filter)

/-- The compilation in front of the suites, from the repository that it takes its artifacts from. -/
def compilation : Work (Path × CompileSummary) := do
  let repository ← Task.ofExcept ((project.repository env).mapError CommandError.build)
  let summary ← project.compile (project.toolchain repository) runner project.config.cljc false
  return (repository, summary)

/-- What the compilation comes to. -/
def compiled : Except CommandError (Path × CompileSummary) × Session :=
  (compilation env runner project).runIn
    ((sayUnless settings.quiet ("   Testing " ++ project.config.project.name ++ " v" ++
      project.config.project.version)).runIn s).2

/-- The session in which the search for suites is noted. -/
def searched : Session :=
  { s with journal := s.journal ++ (selection project).events s.world }

/-- The run of the wanted suites from the session that the compilation left. -/
def suiteRun (repository : Path) : Except BuildError (List SuiteOutcome) × Session :=
  let suites := selected project name filter s.world
  (Suite.runAll (project.toolchain repository) runner (selection project).root
      (.path project.layout.target :: project.dependencies) suites).runIn
    ((sayUnless settings.quiet ("   Found " ++ toString suites.length ++ " suite(s)")).runIn
      (searched project s)).2

end

variable {env : Environment} {runner : Runner} {settings : Settings} {project : Project}
  {name filter : Option String} {s : Session}

theorem runIn_sayUnless (quiet : Bool) (line : String) (s : Session) :
    (sayUnless quiet line).runIn s = (.ok (), ((sayUnless quiet line).runIn s).2) := by
  cases quiet <;> rfl

/-- Wanted suites are run and reported. -/
theorem runIn_runSuites (tools : Toolchain) (root : Path) (suites : List UnitId) (s : Session) :
    (runSuites tools runner settings project root suites).runIn s =
      match (Suite.runAll tools runner root
          (.path project.layout.target :: project.dependencies) suites).runIn
        ((sayUnless settings.quiet ("   Found " ++ toString suites.length ++
          " suite(s)")).runIn s).2 with
      | (.error e, s') => (.error (.build e), s')
      | (.ok outcomes, s') =>
          (.ok (exitCode outcomes), ((if !settings.quiet then
            Build.sayAll (outcomes.map outcomeLine ++ resultLines outcomes)
            else pure () : Work Unit).runIn s').2) := by
  rw [runSuites, Task.runIn_bind, runIn_sayUnless]
  simp only [Task.runIn_bind, Task.runIn_mapError]
  rcases (Suite.runAll tools runner root
    (.path project.layout.target :: project.dependencies) suites).runIn _ with ⟨result, s'⟩
  cases result with
  | error e => rfl
  | ok outcomes => cases settings.quiet <;> rfl

/-- A command on a project that loads compiles it, looks for suites and runs them. -/
theorem runIn_run (hload : Project.load s.world env settings = .ok project) :
    (run env runner settings name filter).runIn s =
      match compiled env runner settings project s with
      | (.error e, mid) => (.error e, mid)
      | (.ok built, mid) =>
          match selected project name filter mid.world with
          | [] => (.ok 0, ((sayUnless settings.quiet ("warning: no test suites found in " ++
              (selection project).root.display)).runIn (searched project mid)).2)
          | _ :: _ =>
              match suiteRun runner settings project name filter mid built.1 with
              | (.error e, s') => (.error (.build e), s')
              | (.ok outcomes, s') =>
                  (.ok (exitCode outcomes), ((if !settings.quiet then
                    Build.sayAll (outcomes.map outcomeLine ++ resultLines outcomes)
                    else pure () : Work Unit).runIn s').2) := by
  rw [run, Task.runIn_bind, Task.runIn_look]
  simp only [Task.runIn_bind, Task.runIn_ofExcept, id, hload]
  rw [runIn_sayUnless]
  simp only [suiteRun, searched, selected, selection, compiled, compilation]
  rw [Task.runIn_bind, Task.runIn_ofExcept]
  cases project.repository env with
  | error e => rfl
  | ok repository =>
      simp only [Task.mapError_ok]
      rw [Task.runIn_bind]
      rcases (project.compile (project.toolchain repository) runner project.config.cljc
        false).runIn _ with ⟨result, mid⟩
      cases result with
      | error e => rfl
      | ok summary =>
          simp only [Task.runIn_look, Task.runIn_note, Task.runIn_pure]
          generalize List.filter (wanted name filter) _ = suites
          cases suites with
          | nil =>
              simp only
              rw [Task.runIn_bind, runIn_sayUnless]
              rfl
          | cons suite rest => exact runIn_runSuites _ _ _ _

/-! ### The verdict -/

theorem exitCode_eq_zero_iff {outcomes : List SuiteOutcome} :
    exitCode outcomes = 0 ↔ ∀ o ∈ outcomes, o.passed = true := by
  unfold exitCode
  split
  next hall => simpa using hall
  next hsome => simpa using hsome

theorem exitCode_eq_one_iff {outcomes : List SuiteOutcome} :
    exitCode outcomes = 1 ↔ ∃ o ∈ outcomes, o.passed = false := by
  unfold exitCode
  split
  next hall => simpa using hall
  next hsome => simpa using hsome

/-- The command ends well once the compilation did, if there is no suite or all of them came to an
end. -/
theorem run_eq_ok_iff (hload : Project.load s.world env settings = .ok project) {code : Nat} :
    ((run env runner settings name filter).runIn s).1 = .ok code ↔
      ∃ built mid, compiled env runner settings project s = (.ok built, mid) ∧
        (selected project name filter mid.world = [] ∧ code = 0 ∨
          selected project name filter mid.world ≠ [] ∧ ∃ outcomes s',
            suiteRun runner settings project name filter mid built.1 = (.ok outcomes, s') ∧
              exitCode outcomes = code) := by
  rw [runIn_run hload]
  rcases compiled env runner settings project s with ⟨result, mid⟩
  cases result with
  | error e => simp
  | ok built =>
      cases hselected : selected project name filter mid.world with
      | nil =>
          simp only [hselected]
          constructor
          · intro h
            exact ⟨built, mid, rfl, Or.inl ⟨hselected, (Except.ok.inj h).symm⟩⟩
          · rintro ⟨_, _, hsame, ⟨-, rfl⟩ | ⟨hsome, -⟩⟩
            · rfl
            · obtain ⟨-, rfl⟩ := Prod.mk.inj hsame
              exact absurd hselected hsome
      | cons suite rest =>
          rcases hrun : suiteRun runner settings project name filter mid built.1 with ⟨answer, s'⟩
          cases answer with
          | error e => simp [hselected, hrun]
          | ok outcomes => simp [hselected, hrun]

/-- What the exit of a command tells of the project that it works on. -/
structure Verdict (env : Environment) (runner : Runner) (settings : Settings) (project : Project)
    (name filter : Option String) (s : Session) : Prop where
  /-- Nothing is done once the compilation failed. -/
  broken : ∀ e mid, compiled env runner settings project s = (.error e, mid) →
    (run env runner settings name filter).runIn s = (.error e, mid)
  zero_iff : ((run env runner settings name filter).runIn s).1 = .ok 0 ↔
    ∃ built mid, compiled env runner settings project s = (.ok built, mid) ∧
      (selected project name filter mid.world = [] ∨ ∃ outcomes s',
        suiteRun runner settings project name filter mid built.1 = (.ok outcomes, s') ∧
          ∀ o ∈ outcomes, o.passed = true)
  one_iff : ((run env runner settings name filter).runIn s).1 = .ok 1 ↔
    ∃ built mid, compiled env runner settings project s = (.ok built, mid) ∧
      selected project name filter mid.world ≠ [] ∧ ∃ outcomes s',
        suiteRun runner settings project name filter mid built.1 = (.ok outcomes, s') ∧
          ∃ o ∈ outcomes, o.passed = false
  codes : ∀ code, ((run env runner settings name filter).runIn s).1 = .ok code →
    code = 0 ∨ code = 1
  /-- The suites are run behind the compilation, with nothing but notes in between. -/
  begun : ∀ mid repository, ∃ begun, Noted mid begun ∧
    suiteRun runner settings project name filter mid repository =
      (Suite.runAll (project.toolchain repository) runner (selection project).root
        (.path project.layout.target :: project.dependencies)
          (selected project name filter mid.world)).runIn begun
  /-- Behind the suites, or where there is none, nothing is done but noting. -/
  closed : ∀ built mid, compiled env runner settings project s = (.ok built, mid) →
    Noted (if selected project name filter mid.world = [] then mid
      else (suiteRun runner settings project name filter mid built.1).2)
        ((run env runner settings name filter).runIn s).2

theorem noted_sayAll (lines : List String) (s : Session) :
    Noted s ((Build.sayAll lines).runIn s).2 := by
  refine noting_noted.note s fun event hevent => ?_
  obtain ⟨line, -, rfl⟩ := List.mem_map.1 hevent
  rfl

theorem noted_sayUnless (quiet : Bool) (line : String) (s : Session) :
    Noted s ((sayUnless quiet line).runIn s).2 := by
  cases quiet with
  | true => exact Std.Refl.refl s
  | false => exact noted_sayAll [line] s

theorem noted_searched (project : Project) (s : Session) : Noted s (searched project s) := by
  refine noting_noted.note s ?_
  unfold SuiteSelection.events
  split
  · exact quiet_discoverEvents _ _
  · intro event hevent
    exact absurd hevent List.not_mem_nil

theorem verdict (hload : Project.load s.world env settings = .ok project) :
    Verdict env runner settings project name filter s where
  broken e mid h := by rw [runIn_run hload, h]
  zero_iff := by
    rw [run_eq_ok_iff hload]
    refine exists₂_congr fun built mid => and_congr_right fun _ => ?_
    simp only [exitCode_eq_zero_iff, and_true]
    by_cases hnone : selected project name filter mid.world = [] <;> simp [hnone]
  one_iff := by
    rw [run_eq_ok_iff hload]
    refine exists₂_congr fun built mid => and_congr_right fun _ => ?_
    simp [exitCode_eq_one_iff]
  codes code h := by
    obtain ⟨built, mid, -, ⟨-, hcode⟩ | ⟨-, outcomes, s', -, hcode⟩⟩ := (run_eq_ok_iff hload).1 h
    · exact Or.inl hcode
    · rw [← hcode, exitCode]
      split
      · exact Or.inl rfl
      · exact Or.inr rfl
  begun mid repository := ⟨_, Trans.trans (noted_searched project mid) (noted_sayUnless _ _ _), rfl⟩
  closed built mid h := by
    rw [runIn_run hload, h]
    cases hselected : selected project name filter mid.world with
    | nil =>
        simp only [hselected, ↓reduceIte]
        exact Trans.trans (noted_searched project mid) (noted_sayUnless _ _ _)
    | cons suite rest =>
        rcases hrun : suiteRun runner settings project name filter mid built.1 with ⟨answer, s'⟩
        cases answer with
        | error e =>
            simp only [hselected, hrun, reduceCtorEq, ↓reduceIte]
            exact Std.Refl.refl s'
        | ok outcomes =>
            simp only [hselected, hrun, reduceCtorEq, ↓reduceIte]
            cases settings.quiet with
            | true => exact Std.Refl.refl s'
            | false => exact noted_sayAll _ s'

/-- Suites are run and reported faithfully, and the exit of the command on a project that loads
tells what became of them. -/
theorem run_faithful (runner : Runner) :
    (∀ t root dependencies suites s, Suite.Faithful t runner root dependencies suites s) ∧
      ∀ env settings project name filter s, Project.load s.world env settings = .ok project →
        Verdict env runner settings project name filter s :=
  ⟨fun t root dependencies suites s => Suite.faithful t runner root dependencies suites s,
    fun _ _ _ _ _ _ hload => verdict hload⟩

/-- A project with two suites. -/
def twoSession : Session where
  world :=
    let content := "[project]\nname = \"two\"\n\n[clojure]\nspec = [\"rt.jar\"]\n"
    ⟨[(["kiln.toml"], .file content.toUTF8 0 false), (["src"], .dir 0), (["main", "src"], .dir 0),
      (["clojure", "main", "src"], .dir 0), (["test", "src"], .dir 0),
      (["clojure", "test", "src"], .dir 0),
      (["a_test.clj", "clojure", "test", "src"], .file ByteArray.empty 0 false),
      (["b_test.clj", "clojure", "test", "src"], .file ByteArray.empty 0 false)], [], 0⟩
  journal := []

/-- A home directory to begin with. -/
abbrev twoHome : Environment := .homed "/home"

/-- A runner with which the first of the suites fails. -/
def failingRunner : Runner := Scripted.runner [⟨none, some "a-test", .status "exit status: 1"⟩]

/-- The first suite fails, the second one runs and passes, and the command exits with one. -/
theorem run_faithful_two :
    ∃ project built mid s', Project.load twoSession.world twoHome default = .ok project ∧
      compiled twoHome failingRunner default project twoSession = (.ok built, mid) ∧
      suiteRun failingRunner default project none none mid built.1 =
        (.ok [⟨⟨"a-test"⟩, false⟩, ⟨⟨"b-test"⟩, true⟩], s') ∧
      ((run twoHome failingRunner default none none).runIn twoSession).1 = .ok 1 := by
  have hoperated : (Project.load twoSession.world twoHome default).toOption.any (fun project =>
      let compiledIn := compiled twoHome failingRunner default project twoSession
      compiledIn.1.toOption.any fun built =>
        selected project none none compiledIn.2.world ≠ [] ∧
          (suiteRun failingRunner default project none none compiledIn.2 built.1).1.toOption =
            some [⟨⟨"a-test"⟩, false⟩, ⟨⟨"b-test"⟩, true⟩]) = true := by
    decide +kernel
  cases hload : Project.load twoSession.world twoHome default with
  | error e => exact absurd hoperated (by simp [hload, Except.toOption])
  | ok project =>
      rw [hload] at hoperated
      rcases hcompiled : compiled twoHome failingRunner default project twoSession
        with ⟨result, mid⟩
      simp only [Except.toOption, Option.any_some, hcompiled] at hoperated
      cases result with
      | error e => exact absurd hoperated (by simp)
      | ok built =>
          obtain ⟨hsome, houtcomes⟩ := of_decide_eq_true hoperated
          rcases hran : suiteRun failingRunner default project none none mid built.1
            with ⟨answer, s'⟩
          rw [hran] at houtcomes
          cases answer with
          | error e => exact absurd houtcomes (by simp)
          | ok outcomes =>
              obtain rfl := Option.some.inj houtcomes
              have hverdict :=
                (run_faithful failingRunner).2 twoHome default project none none twoSession hload
              exact ⟨project, built, mid, s', rfl, hcompiled, hran,
                hverdict.one_iff.2 ⟨built, mid, hcompiled, hsome, _, s', hran, by simp⟩⟩

end Cli.Test

end ClojureBuild
