import ClojureBuild.Config.Load
import ClojureBuild.Coordinate
/-!
Where a project's files and tools are: configured texts seen from the project directory, the home
directory and the Java home.
-/

namespace ClojureBuild

/-- What a build takes from its surroundings, where it is known. -/
structure Surroundings where
  home : Option Path
  javaHome : Option Path
deriving DecidableEq, Repr, Inhabited

/-- A path in which a leading `~/` stands for the home directory, if that is known. -/
def expandHome (home : Option Path) (text : String) : Path :=
  match Text.dropFront? ['~', '/'] text.toList, home with
  | some rest, some dir => dir / Path.ofText (String.ofList rest)
  | _, _ => .ofText text

/-- The tools to run. -/
structure Tools where
  java : Path
  javac : Path
  scalac : Path
  groovyc : Path
  repository : Option Path
deriving DecidableEq, Repr, Inhabited

/-- The tools that the settings and the surroundings name.  A Java tool that is not configured is
taken from the Java home if there is one; any other tool goes by its bare name. -/
def Tools.resolve (settings : ToolSettings) (around : Surroundings) : Tools :=
  let expand := expandHome around.home
  let plain (configured : Option String) (name : String) : Path :=
    (configured.map expand).getD ⟨name⟩
  let ofJdk (configured : Option String) (name : String) : Path :=
    match configured, around.javaHome with
    | some text, _ => expand text
    | none, some home => home / "bin" / name
    | none, none => ⟨name⟩
  { java := ofJdk settings.java "java"
    javac := ofJdk settings.javac "javac"
    scalac := plain settings.scalac "scalac"
    groovyc := plain settings.groovyc "groovyc"
    repository := settings.repository.map expand }

/-- The places of a project. -/
structure Layout where
  /-- Source directories and single source files, in order. -/
  sources : List Path
  target : Path
  /-- Classpath entries: coordinates as they were written, and paths. -/
  dependencies : List String
  runtime : List String
  testRoot : Path
deriving DecidableEq, Repr, Inhabited

namespace Layout

/-- Source directories of a project that names none; those that exist are used. -/
def defaultSources : List String :=
  ["src/main/clojure", "src/main/java", "src/main/scala", "src/main/groovy"]

/-- The directory of the compiled files, unless one is configured. -/
def defaultTarget : String := "target/classes"

/-- The directory of the suites, unless one is configured. -/
def defaultTestRoot : String := "src/test/clojure"

/-- A classpath entry seen from the project directory, as a text again.  Coordinates stay as they
are. -/
def placeEntry (home : Option Path) (dir : Path) (entry : String) : String :=
  if Coordinate.spells entry then entry else (dir / expandHome home entry).display

/-- Source entries seen from the project directory; each has to exist. -/
def placeSources (w : World) (dir : Path) : List String → Except ConfigError (List Path)
  | [] => .ok []
  | entry :: rest =>
      let path := dir / Path.ofText entry
      if w.pathExists path then do
        let others ← placeSources w dir rest
        return path :: others
      else .error (.missingSource path)

def resolve (w : World) (around : Surroundings) (config : ProjectConfig) (dir : Path) :
    Except ConfigError Layout := do
  let sources ← match config.project.sources with
    | some entries => placeSources w dir entries
    | none => .ok ((defaultSources.map fun (d : String) => dir / d).filter w.isDir)
  return {
    sources
    target := dir / Path.ofText (config.project.target.getD defaultTarget)
    dependencies := config.project.dependencies.map (placeEntry around.home dir)
    runtime := config.runtime.map (placeEntry around.home dir)
    testRoot := dir / Path.ofText (config.test.sources.getD defaultTestRoot) }

end Layout

end ClojureBuild
