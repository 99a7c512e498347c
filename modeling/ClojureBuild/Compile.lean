import ClojureBuild.Delegate
import ClojureBuild.Mirror
import ClojureBuild.Rules.Execute
import ClojureBuild.Text.Json
/-!
Compiling a project.

A compilation first makes a *plan*: the units, the classpath, the compiler's invocation and the
rules of its graph.  Planning changes nothing, so a duplicate unit is found before anything is
written.  Then the rules are carried out, and at most one other compiler runs over the same sources.
-/

namespace ClojureBuild

/-- The system property that names the compiler's output directory. -/
def compilePathProperty : String := "clojure.compile.path"

def compilerMain : String := "clojure.lang.Compile"

def compileInvocation (java : Path) (classpath : OsText) (target : Path) (libs : List UnitId) :
    Invocation :=
  ⟨java, ["-classpath", classpath, "-D" ++ compilePathProperty ++ "=" ++ target.text,
    compilerMain] ++ libs.map fun u => Octets.ofText u.text⟩

def compileLabel : String := "cljc"

def compileAction (run : Runner) (invocation : Invocation) (target : Path) :
    Rules.Action BuildError.ActionCause where
  label := compileLabel
  task := Task.mapError .build do
    Task.change (·.makeDirs target) (BuildError.io target)
    Task.log .invocation .trace "compiling" [("command", invocation.display)]
    run invocation

/-- What a compilation is asked to do. -/
structure CompileRequest where
  sources : List Path
  target : Path
  dependencies : List ClasspathEntry
deriving DecidableEq, Repr, Inhabited

/-- What a compilation is going to do. -/
structure CompilePlan where
  target : Path
  libs : List UnitId
  classpath : List Path
  invocation : Invocation
  survey : Survey
  mirror : Mirror
deriving DecidableEq, Repr

namespace CompilePlan

/-- The units to compile: those asked for, or else all that the roots hold. -/
def chooseLibs (w : World) (o : CompileOptions) (roots : List Path) : List UnitId :=
  match o.libs with
  | some libs => libs
  | none => discoverAll w roots

def entries (request : CompileRequest) (roots : List Path) : List ClasspathEntry :=
  request.dependencies ++ roots.map .path

/-- The rules of a plan: one for each located unit, then one for each mirrored source. -/
def rules (p : CompilePlan) : List Rules.Rule :=
  p.survey.rules p.target 0 ++ p.mirror.rules

def graph (p : CompilePlan) (run : Runner) : Rules.Graph BuildError.ActionCause :=
  ⟨[compileAction run p.invocation p.target], p.rules⟩

end CompilePlan

/-- What one compilation did. -/
structure CompileSummary where
  libs : List UnitId
  /-- The units that had a source and got a rule. -/
  located : List LocatedUnit
  mirrored : Nat
  report : Rules.Report
  mixed : MixedMode
deriving DecidableEq, Repr

/-- The paths that a report of the summary shows. -/
def CompileSummary.paths (s : CompileSummary) : List Path :=
  (s.located.flatMap fun u => [u.root, u.source]) ++
    (s.report.fresh ++ s.report.rebuilt ++ s.report.copied)

def CompileSummary.toJson (s : CompileSummary) : Text.Json :=
  let paths (ps : List Path) : Text.Json := .list (ps.map fun p => .text p.display)
  .object [
    ("libs", .list (s.libs.map fun u => .text u.text)),
    ("located", .list (s.located.map fun u =>
      .object [("id", .text u.id.text), ("root", .text u.root.display),
        ("source", .text u.source.display)])),
    ("mirrored", .number s.mirrored),
    ("report", .object [("fresh", paths s.report.fresh), ("rebuilt", paths s.report.rebuilt),
      ("copied", paths s.report.copied), ("actions_run", .number s.report.actionsRun)]),
    ("mixed", .text s.mixed.tag)]

/-- Plans a compilation, noting what it meets.  The world is only looked at. -/
def planCompile (t : Toolchain) (o : CompileOptions) (request : CompileRequest) :
    Task BuildError CompilePlan := do
  let w ← Task.look id
  let roots := sourceRoots w request.sources
  let target ← Task.ofExcept (absolutePath w request.target)
  Task.log .compiler .trace "target" [("target", target.display)]
  Task.log .compiler .trace "sources"
    [("sources", Text.bracketed (request.sources.map fun p => Text.quoteOctets p.text))]
  let libs := CompilePlan.chooseLibs w o roots
  if o.libs.isNone then Task.note (discoverEvents w roots)
  Task.log .compiler .debug "units to compile" [("count", toString libs.length)]
  let classpath ← Task.ofExcept (t.classpath w (CompilePlan.entries request roots))
  let rendered := Classpath.render classpath target
  Task.note [Classpath.rendered rendered]
  let survey := Survey.ofUnits w roots libs
  Task.note (survey.events target)
  let _ ← Task.ofExcept survey.result
  let mirror := Mirror.ofRoots w libs target roots
  Task.note mirror.events
  let _ ← Task.ofExcept mirror.result
  return {
    target, libs, classpath, survey, mirror
    invocation := compileInvocation t.java rendered target libs }

/-- Compiles a request.  `force` treats every target as stale. -/
def compile (t : Toolchain) (o : CompileOptions) (run : Runner) (force : Bool)
    (request : CompileRequest) : Task BuildError CompileSummary := do
  let plan ← planCompile t o request
  let report ← (Rules.execute force (plan.graph run)).mapError BuildError.ofFailure
  let mixed ← Delegate.dispatch t o run ⟨request.sources, plan.target, plan.classpath⟩
  return {
    libs := plan.libs
    located := plan.survey.located
    mirrored := plan.mirror.copies.length
    report, mixed }

end ClojureBuild
