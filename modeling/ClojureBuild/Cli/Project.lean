import ClojureBuild.Compile
import ClojureBuild.Process.Launch
import ClojureBuild.Cli.Arguments
/-!
Loading the project that a command works on, and compiling it.
-/

namespace ClojureBuild.Cli

/-- Why a command fails. -/
inductive CommandError where
  /-- No directory from here upward holds a configuration. -/
  | noProject (start : Path)
  | noSources (dir : Path)
  | directoryExists (name : String)
  | configurationExists (dir : Path)
  | badUnit (error : UnitId.Malformed)
  | io (cause : OsError)
  /-- A path stands in a report for machines, but is no text. -/
  | notText
  | config (error : ConfigError)
  | build (error : BuildError)
deriving DecidableEq, Repr

def CommandError.message : CommandError → String
  | .noProject start =>
      "could not find " ++ Config.fileName ++ " in " ++ start.display ++ " or any parent directory"
  | .noSources dir => "no source directories found in " ++ dir.display
  | .directoryExists name => "directory '" ++ name ++ "' already exists"
  | .configurationExists dir => Config.fileName ++ " already exists in " ++ dir.display
  | .badUnit e => e.message
  | .io cause => cause.message
  | .notText => "path contains invalid UTF-8 characters"
  | .config e => e.message
  | .build e => e.message

/-- A command's work. -/
abbrev Work (α : Type) := Task CommandError α

def say (line : String) : Work Unit := Task.note [.said (line ++ "\n")]

/-- Writes a line for the user unless they want quiet. -/
def sayUnless (quiet : Bool) (line : String) : Work Unit :=
  if quiet then pure () else say line

/-- What a run finds around it: variables, and the home directory that the system knows of the
user. -/
structure Environment where
  bindings : List (OsText × OsText)
  accountHome : Option Path
deriving DecidableEq, Repr, Inhabited

namespace Environment

/-- The home directory: the one that a variable names, or else that of the account.  The empty path
is none. -/
def home (env : Environment) : Option Path :=
  [(valueIn? "HOME" env.bindings).map Path.mk, env.accountHome].findSome?
    (Option.filter (· ≠ ⟨""⟩))

/-- The home directory and the Java home of a run. -/
def surroundings (env : Environment) : Surroundings :=
  ⟨env.home, (valueIn? "JAVA_HOME" env.bindings).map Path.mk⟩

end Environment

/-- A loaded project. -/
structure Project where
  dir : Path
  config : ProjectConfig
  layout : Layout
  tools : Tools
deriving DecidableEq, Repr, Inhabited

namespace Project

/-- The first of a path and the directories above it that holds a configuration. -/
def findRoot? (w : World) (start : Path) : Option Path :=
  (World.ancestors start).find? fun dir => w.pathExists (dir / Config.fileName)

/-- The configuration that the settings choose, and its directory: a file that is named, a directory
that is named, or the nearest directory from the current one upward. -/
def loadConfig (w : World) (settings : Settings) : Except CommandError (Path × ProjectConfig) :=
  match settings.config with
  | some text => do
      let path := Path.ofText text
      if w.isFile path then
        let content ← (w.readText path).mapError CommandError.io
        let config ← (Config.ofText content).mapError CommandError.config
        return (path.parent?.getD ⟨"."⟩, config)
      else
        let config ← (Config.load w path).mapError CommandError.config
        return (path, config)
  | none =>
      match findRoot? w w.cwdPath with
      | none => .error (.noProject w.cwdPath)
      | some dir => do
          let config ← (Config.load w dir).mapError CommandError.config
          return (dir, config)

def load (w : World) (env : Environment) (settings : Settings) : Except CommandError Project := do
  let (dir, config) ← loadConfig w settings
  let around := env.surroundings
  let layout ← (Layout.resolve w around config dir).mapError CommandError.config
  return ⟨dir, config, layout, .resolve config.toolchain around⟩

def repository (p : Project) (env : Environment) : Except BuildError Path :=
  match p.tools.repository with
  | some dir => .ok dir
  | none => Classpath.defaultRepository env.home

/-- The tools of a project, with the repository that its artifacts are looked for in. -/
def toolchain (p : Project) (repository : Path) : Toolchain :=
  .ofTools p.tools (p.layout.runtime.map ClasspathEntry.parse) repository

def dependencies (p : Project) : List ClasspathEntry :=
  p.layout.dependencies.map ClasspathEntry.parse

def compile (p : Project) (tools : Toolchain) (run : Runner) (options : CompileOptions)
    (force : Bool) : Work CompileSummary :=
  if p.layout.sources.isEmpty then Task.ofExcept (.error (.noSources p.dir))
  else
    (ClojureBuild.compile tools options run force
      ⟨p.layout.sources, p.layout.target, p.dependencies⟩).mapError CommandError.build

end Project

end ClojureBuild.Cli
