import ClojureBuild.Namespaces
import ClojureBuild.Toolchain
/-!
Test suites.  Every unit below the test root is a suite, and each suite runs in a process of its
own, which ends well exactly when the suite passes.
-/

namespace ClojureBuild

/-- Which suites are selected. -/
structure SuiteSelection where
  root : Path
  added : List UnitId
  excluded : List UnitId
deriving DecidableEq, Repr, Inhabited

namespace SuiteSelection

def below (root : Path) : SuiteSelection := ⟨root, [], []⟩

def including (s : SuiteSelection) (units : List UnitId) : SuiteSelection :=
  { s with added := s.added ++ units }

def excluding (s : SuiteSelection) (units : List UnitId) : SuiteSelection :=
  { s with excluded := s.excluded ++ units }

/-- The selection that the settings of a project make. -/
def ofSettings (root : Path) (settings : TestSettings) : SuiteSelection :=
  ((below root).including settings.added).excluding settings.excluded

/-- The units of a list that are not left out, each once, in the order of their first place. -/
def choose (excluded : List UnitId) (chosen : List UnitId) : List UnitId → List UnitId
  | [] => chosen
  | unit :: rest =>
      if excluded.contains unit || chosen.contains unit then choose excluded chosen rest
      else choose excluded (chosen ++ [unit]) rest

/-- The units found below the root, if it is a directory. -/
def found (w : World) (s : SuiteSelection) : List UnitId :=
  if w.isDir s.root then discover w s.root else []

def suites (w : World) (s : SuiteSelection) : List UnitId :=
  choose s.excluded [] (found w s ++ s.added)

/-- The warnings of the search for suites. -/
def events (w : World) (s : SuiteSelection) : List Event :=
  if w.isDir s.root then discoverEvents w [s.root] else []

end SuiteSelection

/-- How a suite ended. -/
structure SuiteOutcome where
  suite : UnitId
  passed : Bool
deriving DecidableEq, Repr, Inhabited

namespace Suite

def runnerMain : String := "clojure.main"

/-- The invocation that loads a suite and runs it.  Its exit status counts failures and errors. -/
def invocation (java : Path) (classpath : List Path) (suite : UnitId) : Invocation :=
  ⟨java, ["-classpath", Classpath.join classpath, runnerMain,
    "--eval", Octets.ofText ("(require (quote " ++ suite.text ++ ") :reload-all)"),
    "--eval", Octets.ofText ("(let [r (clojure.test/run-tests (quote " ++ suite.text ++
      "))] (System/exit (+ (:fail r) (:error r))))")]⟩

/-- Whether a suite passed, from what running it gave: a process that failed is a suite that
failed, and any other error ends the run. -/
def judge : Except BuildError Unit → Except BuildError Bool
  | .ok () => .ok true
  | .error (.processFailed _ _) => .ok false
  | .error e => .error e

/-- What is noted about a suite that failed. -/
def failureEvents (suite : UnitId) : Except BuildError Unit → List Event
  | .error (.processFailed _ status) =>
      [.log .suite .debug "suite failed" [("suite", suite.text), ("status", status)]]
  | _ => []

def runOne (run : Runner) (java : Path) (classpath : List Path) (suite : UnitId) :
    Task BuildError SuiteOutcome := do
  if !classpath.isEmpty then Task.note [Classpath.rendered (Classpath.join classpath)]
  Task.log .suite .info "running suite" [("suite", suite.text)]
  let result ← Task.attempt (run (invocation java classpath suite))
  Task.note (failureEvents suite result)
  let passed ← Task.ofExcept (judge result)
  return ⟨suite, passed⟩

def runEach (run : Runner) (java : Path) (classpath : List Path) :
    List UnitId → Task BuildError (List SuiteOutcome)
  | [] => return []
  | suite :: rest => do
      let outcome ← runOne run java classpath suite
      let others ← runEach run java classpath rest
      return outcome :: others

/-- Runs suites with the dependencies, the test root and the runtime on the classpath. -/
def runAll (t : Toolchain) (run : Runner) (root : Path) (dependencies : List ClasspathEntry)
    (suites : List UnitId) : Task BuildError (List SuiteOutcome) := do
  let w ← Task.look id
  let classpath ← Task.ofExcept (t.classpath w (dependencies ++ [.path root]))
  runEach run t.java classpath suites

end Suite

end ClojureBuild
