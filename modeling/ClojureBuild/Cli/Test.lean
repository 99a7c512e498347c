import ClojureBuild.Cli.Build
import ClojureBuild.Suite
/-!
`test`: compiles the project, runs its suites, and says which passed.
-/

namespace ClojureBuild.Cli.Test

/-- Whether a suite is wanted: by its whole name, or else by a part of it. -/
def wanted (name filter : Option String) (suite : UnitId) : Bool :=
  match name, filter with
  | some n, _ => suite.text == n
  | none, some f => Text.occursIn f.toList suite.text.toList
  | none, none => true

def outcomeLine (o : SuiteOutcome) : String :=
  (if o.passed then "   PASS  " else "   FAIL  ") ++ o.suite.text

def resultLines (outcomes : List SuiteOutcome) : List String :=
  let passed := (outcomes.filter (·.passed)).length
  let failed := outcomes.length - passed
  ["", "   Result: " ++ toString passed ++ " passed, " ++ toString failed ++ " failed out of " ++
    toString outcomes.length ++ " suite(s)"]

def exitCode (outcomes : List SuiteOutcome) : Nat :=
  if outcomes.all (·.passed) then 0 else 1

def runSuites (tools : Toolchain) (runner : Runner) (settings : Settings) (project : Project)
    (root : Path) (suites : List UnitId) : Work Nat := do
  sayUnless settings.quiet ("   Found " ++ toString suites.length ++ " suite(s)")
  let dependencies := .path project.layout.target :: project.dependencies
  let outcomes ← (Suite.runAll tools runner root dependencies suites).mapError CommandError.build
  if !settings.quiet then
    Build.sayAll (outcomes.map outcomeLine ++ resultLines outcomes)
  return exitCode outcomes

def run (env : Environment) (runner : Runner) (settings : Settings) (name filter : Option String) :
    Work Nat := do
  let w ← Task.look id
  let project ← Task.ofExcept (Project.load w env settings)
  let about := project.config.project
  sayUnless settings.quiet ("   Testing " ++ about.name ++ " v" ++ about.version)
  let repository ← Task.ofExcept ((project.repository env).mapError CommandError.build)
  let tools := project.toolchain repository
  let _ ← project.compile tools runner project.config.cljc false
  let selection := SuiteSelection.ofSettings project.layout.testRoot project.config.test
  let suites ← Task.look selection.suites
  let events ← Task.look selection.events
  Task.note events
  match suites.filter (wanted name filter) with
  | [] =>
      sayUnless settings.quiet ("warning: no test suites found in " ++ selection.root.display)
      return 0
  | suites => runSuites tools runner settings project selection.root suites

end ClojureBuild.Cli.Test
