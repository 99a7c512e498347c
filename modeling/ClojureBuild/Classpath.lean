import ClojureBuild.BuildError
import ClojureBuild.Session
/-!
Classpaths: entries are coordinates, found in a repository, or paths.  Resolution makes every path
absolute and keeps the order.
-/

namespace ClojureBuild

/-- An entry of a classpath before resolution. -/
inductive ClasspathEntry where
  | artifact (coordinate : Coordinate)
  | path (path : Path)
deriving DecidableEq, Repr, Inhabited

/-- Reads an entry: what spells a coordinate is one, anything else is a path. -/
def ClasspathEntry.parse (text : String) : ClasspathEntry :=
  if Coordinate.spells text then
    match Coordinate.parse? text with
    | some c => .artifact c
    | none => .path (.ofText text)
  else .path (.ofText text)

/-- The absolute form of a path, seen from the current directory. -/
def absolutePath (w : World) (p : Path) : Except BuildError Path :=
  match Path.absolute? w.cwdPath p with
  | some q => .ok q
  | none => .error (.io p .emptyPath)

theorem absolutePath_eq_ok_iff {w : World} {p q : Path} :
    absolutePath w p = .ok q ↔ Path.absolute? w.cwdPath p = some q := by
  rw [absolutePath]
  cases Path.absolute? w.cwdPath p <;> simp

namespace Classpath

def resolveArtifact (w : World) (repository : Path) (c : Coordinate) : Except BuildError Path :=
  let file := c.repositoryPath repository
  if w.isFile file then absolutePath w file else .error (.unresolvedArtifact c file)

def resolveEntry (w : World) (repository : Path) : ClasspathEntry → Except BuildError Path
  | .artifact c => resolveArtifact w repository c
  | .path p => absolutePath w p

/-- The absolute paths of the entries, in order; the first error wins. -/
def resolve (w : World) (repository : Path) : List ClasspathEntry → Except BuildError (List Path)
  | [] => .ok []
  | entry :: rest => do
      let path ← resolveEntry w repository entry
      let others ← resolve w repository rest
      return path :: others

/-- The repository of a user, who has one if the home directory is known. -/
def defaultRepository (home : Option Path) : Except BuildError Path :=
  match home with
  | some dir => .ok (dir / ".m2" / "repository")
  | none => .error .noRepository

/-- The text of a classpath whose last place is `trailing`. -/
def render (paths : List Path) (trailing : Path) : OsText :=
  String.join (paths.map (·.text ++ ":")) ++ trailing.text

def join (paths : List Path) : OsText :=
  match paths.reverse with
  | [] => ""
  | last :: front => render front.reverse last

def rendered (text : OsText) : Event :=
  .log .classpath .trace "rendered classpath" [("classpath", Text.quoteOctets text)]

end Classpath

end ClojureBuild
