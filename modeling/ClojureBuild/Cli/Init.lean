import ClojureBuild.Cli.Project
/-!
`init`: a new project with a configuration, a first namespace and its suite.
-/

namespace ClojureBuild.Cli.Init

/-- A character of a project's name as it stands in its first namespace. -/
def namespaceChar (c : Char) : Char :=
  if c = '_' || c = ' ' || c = '.' then '-' else c.toLower

def namespaceText (project : String) : String :=
  String.ofList (project.toList.map namespaceChar) ++ ".core"

def starterNamespace (project : String) : Except UnitId.Malformed UnitId :=
  UnitId.parse (namespaceText project)

def suiteNamespace (unit : UnitId) : Except UnitId.Malformed UnitId :=
  UnitId.parse (unit.text ++ "-test")

def configText (project : String) : String :=
  "[project]\nname = \"" ++ project ++ "\"\nversion = \"0.1.0\"\n\n[clojure]\nspec = \"" ++
    String.intercalate "" defaultRuntime ++
    "\"\n\n[cljc]\n\n[test]\ninclude = []\nexclude = []\n"

def mainSource (unit : UnitId) : String :=
  "(ns " ++ unit.text ++ ")\n\n" ++
    "(defn greet\n  \"Returns a greeting for \x60name\x60.\"\n  [name]\n" ++
    "  (str \"Hello, \" name \"!\"))\n"

def suiteSource (suite unit : UnitId) : String :=
  "(ns " ++ suite.text ++ "\n  (:use clojure.test\n        " ++ unit.text ++
    "))\n\n(deftest greet-test\n  (is (= \"Hello, kiln!\" (greet \"kiln\"))))\n"

def fallbackName : String := "my_project"

/-- The directory of a new project's sources. -/
def mainRoot : String := "src/main/clojure"

def writeText (p : Path) (text : String) : Work Unit :=
  Task.change (fun w => match w.writeFile p text.toUTF8 with
    | .ok w => (w, .ok ())
    | .error e => (w, .error e)) CommandError.io

/-- Writes the source of a unit below a root, and gives its file. -/
def writeNamespace (root : Path) (unit : UnitId) (text : String) : Work Path := do
  let file := unit.sourceFile root
  match file.parent? with
  | some parent => Task.change (·.makeDirs parent) CommandError.io
  | none => pure ()
  writeText file text
  return file

/-- The directory of the new project, made if it is named. -/
def prepareDirectory (name : Option String) : Work Path := do
  match name with
  | none => Task.look World.cwdPath
  | some n =>
      let dir := Path.ofText n
      if ← Task.look (·.pathExists dir) then Task.ofExcept (.error (.directoryExists n))
      Task.change (·.makeDirs dir) CommandError.io
      return dir

def run (settings : Settings) (name : Option String) : Work Nat := do
  let dir ← prepareDirectory name
  let configFile := dir / Config.fileName
  if ← Task.look (·.pathExists configFile) then
    Task.ofExcept (.error (.configurationExists dir))
  let project := (dir.fileName?.bind Octets.text?).getD fallbackName
  let unit ← Task.ofExcept ((starterNamespace project).mapError CommandError.badUnit)
  let suite ← Task.ofExcept ((suiteNamespace unit).mapError CommandError.badUnit)
  sayUnless settings.quiet ("  Creating new Kiln project \x60" ++ project ++ "\x60")
  writeText configFile (configText project)
  let mainFile ← writeNamespace (dir / mainRoot) unit (mainSource unit)
  let suiteFile ← writeNamespace (dir / Layout.defaultTestRoot) suite (suiteSource suite unit)
  sayUnless settings.quiet ("     Created " ++ configFile.display)
  sayUnless settings.quiet ("     Created " ++ mainFile.display)
  sayUnless settings.quiet ("     Created " ++ suiteFile.display)
  return 0

end ClojureBuild.Cli.Init
