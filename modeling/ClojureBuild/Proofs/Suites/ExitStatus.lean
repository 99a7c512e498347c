import ClojureBuild.Process.Launch
import ClojureBuild.Proofs.Cli.Testing
/-!
What the exit status of a suite tells.

The process of a suite exits with the number of its failures and errors, and the system shows eight
bits of that number.  Main statement: suites that come to their ends are reported in their order,
each as passed exactly when 256 divides the number of its problems.  So the report is right unless a
suite has problems and their number is a multiple of 256.
-/

namespace ClojureBuild

theorem ExitStatus.succeeded_ofNumber_iff {n : Nat} : (ofNumber n).succeeded = true ↔ 256 ∣ n := by
  rw [succeeded, beq_iff_eq, ofNumber, exited.injEq, Nat.dvd_iff_mod_eq_zero]

namespace Suite

/-! ### The number that a suite exits with -/

/-- How many assertions of a suite failed, and how many could not be checked. -/
structure Tally where
  failures : Nat
  errors : Nat
deriving DecidableEq, Repr

/-- The number of problems of a suite. -/
def Tally.problems (t : Tally) : Nat := t.failures + t.errors

/-- An expression for a number that the result of a suite holds. -/
inductive CountTerm where
  | failures
  | errors
  | sum (a b : CountTerm)
deriving DecidableEq, Repr

namespace CountTerm

/-- The expression as it is written, where `r` is the result. -/
def text : CountTerm → String
  | failures => "(:fail r)"
  | errors => "(:error r)"
  | sum a b => "(+ " ++ a.text ++ " " ++ b.text ++ ")"

/-- The number that the expression stands for. -/
def value (t : Tally) : CountTerm → Nat
  | failures => t.failures
  | errors => t.errors
  | sum a b => a.value t + b.value t

/-- An expression ends where its text does, so that what is written tells the expression. -/
theorem eq_of_text_append {a b : CountTerm} {x y : List Char}
    (h : a.text.toList ++ x = b.text.toList ++ y) : a = b ∧ x = y := by
  induction a generalizing b x y with
  | failures =>
      cases b with
      | failures => exact ⟨rfl, List.append_cancel_left h⟩
      | errors => simp [text] at h
      | sum b b' => simp [text] at h
  | errors =>
      cases b with
      | failures => simp [text] at h
      | errors => exact ⟨rfl, List.append_cancel_left h⟩
      | sum b b' => simp [text] at h
  | sum a a' ih ih' =>
      cases b with
      | failures => simp [text] at h
      | errors => simp [text] at h
      | sum b b' =>
          simp only [text, String.toList_append, List.append_assoc, List.append_cancel_left_eq] at h
          obtain ⟨rfl, hrest⟩ := ih h
          obtain ⟨rfl, hclosed⟩ := ih' (List.append_cancel_left hrest)
          exact ⟨rfl, List.append_cancel_left hclosed⟩

end CountTerm

/-- The script of a suite up to its name. -/
def scriptFront (suite : UnitId) : String :=
  "(let [r (clojure.test/run-tests (quote " ++ suite.text

/-- The rest of the script, which exits with a number from the result. -/
def scriptBack (term : CountTerm) : String := "))] (System/exit " ++ (term.text ++ "))")

/-- The script that runs a suite and exits with a number from its result. -/
def exitScript (suite : UnitId) (term : CountTerm) : String :=
  scriptFront suite ++ scriptBack term

theorem exitScript_injective {suite : UnitId} {a b : CountTerm}
    (h : exitScript suite a = exitScript suite b) : a = b := by
  have hback : scriptBack a = scriptBack b := (String.append_right_inj (scriptFront suite)).1 h
  have htext : a.text ++ "))" = b.text ++ "))" :=
    (String.append_right_inj "))] (System/exit ").1 hback
  rw [← String.toList_inj, String.toList_append, String.toList_append] at htext
  exact (CountTerm.eq_of_text_append htext).1

/-- What a suite exits with: the sum of its failures and errors. -/
def exitTerm : CountTerm := .sum .failures .errors

theorem value_exitTerm (t : Tally) : exitTerm.value t = t.problems := rfl

theorem scriptBack_exitTerm :
    scriptBack exitTerm = "))] (System/exit (+ (:fail r) (:error r))))" := by
  decide

theorem getLast?_invocation (java : Path) (classpath : List Path) (suite : UnitId) :
    (invocation java classpath suite).args.getLast? =
      some (Octets.ofText (exitScript suite exitTerm)) := by
  rw [exitScript, scriptBack_exitTerm]
  rfl

/-- A process exits with the number that the last argument of its invocation asks for, when its
suite ends with a tally. -/
def ExitsWith (i : Invocation) (suite : UnitId) (t : Tally) (status : ExitStatus) : Prop :=
  ∃ term, i.args.getLast? = some (Octets.ofText (exitScript suite term)) ∧
    status = .ofNumber (term.value t)

theorem succeeded_iff_of_exitsWith {java : Path} {classpath : List Path} {suite : UnitId}
    {t : Tally} {status : ExitStatus}
    (h : ExitsWith (invocation java classpath suite) suite t status) :
    status.succeeded = true ↔ 256 ∣ t.problems := by
  obtain ⟨term, hlast, rfl⟩ := h
  rw [getLast?_invocation, Option.some.injEq] at hlast
  have hterm := exitScript_injective (Octets.ofText_injective hlast)
  rw [ExitStatus.succeeded_ofNumber_iff, ← hterm, value_exitTerm]

/-! ### Running processes -/

section

variable (env : List (String × String)) (java : Path) (classpath : List Path)

/-- The start of the process of a suite. -/
def process (w : World) (suite : UnitId) : Machine × Except OsError ExitStatus :=
  Launch.start env (invocation java classpath suite) (Machine.start w)

/-- The world behind the process of a suite; the current directory is that of the build. -/
def worldAfter (w : World) (suite : UnitId) : World :=
  { (process env java classpath w suite).1.world with cwd := w.cwd }

/-- The processes of suites are run one after the other, and each suite ends with a tally. -/
inductive Plays : World → List (UnitId × Tally) → Prop
  | done {w : World} : Plays w []
  | suite {w : World} {suite : UnitId} {t : Tally} {status : ExitStatus}
      {rest : List (UnitId × Tally)}
      (hends : (process env java classpath w suite).2 = .ok status)
      (hexits : ExitsWith (invocation java classpath suite) suite t status)
      (hrest : Plays (worldAfter env java classpath w suite) rest) :
      Plays w ((suite, t) :: rest)

end

/-- What is reported of a suite that ended with a tally. -/
def reported (run : UnitId × Tally) : SuiteOutcome := ⟨run.1, decide (256 ∣ run.2.problems)⟩

variable {env : List (String × String)} {java : Path} {classpath : List Path}

theorem runIn_runner (i : Invocation) (s : Session) :
    ((Launch.runner env i).runIn s).1 =
        Launch.judge i (Launch.start env i (Machine.start s.world)).2 ∧
      ((Launch.runner env i).runIn s).2.world =
        { (Launch.start env i (Machine.start s.world)).1.world with cwd := s.world.cwd } := by
  rw [Launch.runner, Task.runIn_bind, Task.runIn_log]
  exact ⟨rfl, rfl⟩

theorem judge_judge (i : Invocation) (status : ExitStatus) :
    judge (Launch.judge i (.ok status)) = .ok status.succeeded := by
  rw [Launch.judge]
  cases status.succeeded <;> rfl

/-- A suite whose process comes to its end is reported. -/
theorem runOne_of_ends {suite : UnitId} {status : ExitStatus} {s : Session}
    (h : (process env java classpath s.world suite).2 = .ok status) :
    ∃ s', (runOne (Launch.runner env) java classpath suite).runIn s =
        (.ok ⟨suite, status.succeeded⟩, s') ∧
      s'.world = worldAfter env java classpath s.world suite := by
  obtain ⟨begun, answer, after, noted, hbegun, hrun, hnoted, hone⟩ :=
    exists_runOne (Launch.runner env) java classpath suite s
  obtain ⟨hanswer, hafter⟩ := @runIn_runner env (invocation java classpath suite) begun
  rw [hrun, hbegun.world] at hanswer hafter
  simp only at hanswer hafter
  refine ⟨noted, ?_, hnoted.world.trans hafter⟩
  rw [process] at h
  rw [hone, hanswer, h, judge_judge]
  rfl

/-- Suites that end with tallies are all reported, in their order. -/
theorem runEach_of_plays {runs : List (UnitId × Tally)} {s : Session}
    (h : Plays env java classpath s.world runs) :
    ∃ s', (runEach (Launch.runner env) java classpath (runs.map Prod.fst)).runIn s =
      (.ok (runs.map reported), s') := by
  induction runs generalizing s with
  | nil => exact ⟨s, rfl⟩
  | cons run rest ih =>
      cases h with
      | @suite w suite t status rest hends hexits hrest =>
          obtain ⟨mid, hone, hworld⟩ := runOne_of_ends hends
          obtain ⟨s', heach⟩ := ih (hworld ▸ hrest)
          have hpassed : status.succeeded = decide (256 ∣ t.problems) :=
            Bool.eq_iff_iff.2 ((succeeded_iff_of_exitsWith hexits).trans decide_eq_true_iff.symm)
          refine ⟨s', ?_⟩
          rw [List.map_cons, runEach, Task.runIn_bind, hone]
          simp only [Task.runIn_bind, heach]
          rw [hpassed]
          rfl

/-- Suites that end with tallies are reported in their order, each as passed when 256 divides the
number of its problems.  That is right for a suite unless it has problems and their number is a
multiple of 256. -/
theorem runAll_reports {t : Toolchain} {root : Path} {dependencies : List ClasspathEntry}
    {s : Session} {runs : List (UnitId × Tally)}
    (hclasspath : t.classpath s.world (dependencies ++ [.path root]) = .ok classpath)
    (hplays : Plays env t.java classpath s.world runs) :
    (∃ s', (runAll t (Launch.runner env) root dependencies (runs.map Prod.fst)).runIn s =
      (.ok (runs.map reported), s')) ∧
    ∀ run ∈ runs,
      (((reported run).passed = true ↔ run.2.failures + run.2.errors = 0) ↔
        ¬ (0 < run.2.failures + run.2.errors ∧ 256 ∣ run.2.failures + run.2.errors)) := by
  constructor
  · obtain ⟨s', heach⟩ := runEach_of_plays hplays
    refine ⟨s', ?_⟩
    rw [runAll, Task.runIn_bind, Task.runIn_look]
    simp only [Task.runIn_bind, Task.runIn_ofExcept, id, hclasspath, heach]
  · intro run _
    rw [reported, decide_eq_true_iff, Tally.problems]
    constructor
    · rintro hright ⟨hsome, hmultiple⟩
      exact absurd (hright.1 hmultiple) (Nat.ne_of_gt hsome)
    · intro hnot
      refine ⟨fun hmultiple => ?_, fun hnone => hnone ▸ Nat.dvd_zero 256⟩
      by_contra hsome
      exact hnot ⟨Nat.pos_of_ne_zero hsome, hmultiple⟩

/-- A system whose `java` exits with the number 256, whatever it is asked to run. -/
def wrappingWorld : World where
  nodes := [([], .dir 0), (["bin"], .dir 0), (["sh", "bin"], .file (programImage "sh") 0 true),
    (["java", "bin"], .file "#!/bin/sh\nexit 256\n".toUTF8 0 true)]
  cwd := []
  clock := 0

/-- Tools that are looked up by their names, without a runtime. -/
def bareTools : Toolchain := ⟨⟨"java"⟩, ⟨"javac"⟩, ⟨"scalac"⟩, ⟨"groovyc"⟩, [], ⟨"m2"⟩⟩

/-- A suite of 200 failures and 56 errors is reported as passed. -/
theorem runAll_reports_wrapped :
    Plays [("PATH", "/bin")] ⟨"java"⟩ [⟨"/test"⟩] wrappingWorld [(⟨"a-test"⟩, ⟨200, 56⟩)] ∧
    ∃ s', (runAll bareTools (Launch.runner [("PATH", "/bin")]) ⟨"test"⟩ [] [⟨"a-test"⟩]).runIn
      ⟨wrappingWorld, []⟩ = (.ok [⟨⟨"a-test"⟩, true⟩], s') := by
  have hends : (process [("PATH", "/bin")] ⟨"java"⟩ [⟨"/test"⟩] wrappingWorld ⟨"a-test"⟩).2 =
      .ok (.ofNumber 256) := by decide +kernel
  have hplays : Plays [("PATH", "/bin")] ⟨"java"⟩ [⟨"/test"⟩] wrappingWorld
      [(⟨"a-test"⟩, ⟨200, 56⟩)] :=
    .suite hends ⟨exitTerm, getLast?_invocation _ _ _, rfl⟩ .done
  have hclasspath : bareTools.classpath wrappingWorld [.path ⟨"test"⟩] = .ok [⟨"/test"⟩] := by
    decide +kernel
  exact ⟨hplays, (runAll_reports (t := bareTools) (s := ⟨wrappingWorld, []⟩) hclasspath hplays).1⟩

end Suite

end ClojureBuild
