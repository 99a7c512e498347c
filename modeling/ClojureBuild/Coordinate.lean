import ClojureBuild.Path.Basic
import ClojureBuild.Text.Blank
/-!
Artifact coordinates: `group:id[:kind[:classifier]]:version`.

A coordinate names a file in a repository whose directories follow the group, the identifier and
the version.  The kind is `jar` when it is not written.
-/

namespace ClojureBuild

/-- An artifact coordinate. -/
structure Coordinate where
  group : String
  id : String
  kind : String
  classifier : Option String
  version : String
deriving DecidableEq, Repr, Inhabited

namespace Coordinate

/-- A text that is no coordinate. -/
structure Malformed where
  input : String
deriving DecidableEq, Repr

def Malformed.message (e : Malformed) : String :=
  "invalid artifact coordinate: '" ++ e.input ++ "'"

/-- The kind of file when none is named. -/
def defaultKind : String := "jar"

/-- The coordinate that a list of fields spells; three, four or five fields do. -/
def ofFields? : List String → Option Coordinate
  | [group, id, version] => some ⟨group, id, defaultKind, none, version⟩
  | [group, id, kind, version] => some ⟨group, id, kind, none, version⟩
  | [group, id, kind, classifier, version] => some ⟨group, id, kind, some classifier, version⟩
  | _ => none

/-- The fields of a coordinate text: white space around the whole text does not count. -/
def fields (text : String) : List String :=
  Text.splitString ':' (Text.trimString text)

/-- Reads a coordinate of three to five fields. -/
def parse? (text : String) : Option Coordinate :=
  if (fields text).any String.isEmpty then none else ofFields? (fields text)

def parse (text : String) : Except Malformed Coordinate :=
  match parse? text with
  | some c => .ok c
  | none => .error ⟨text⟩

/-- The text of a coordinate; it always names the kind. -/
def render (c : Coordinate) : String :=
  let classifier := match c.classifier with
    | some x => ":" ++ x
    | none => ""
  c.group ++ ":" ++ c.id ++ ":" ++ c.kind ++ classifier ++ ":" ++ c.version

def debug (c : Coordinate) : String := "ArtifactSpec(" ++ c.render ++ ")"

/-- Whether a text is a coordinate rather than a path: it parses, and no separator of either kind
stands in it. -/
def spells (text : String) : Bool :=
  !text.toList.contains '/' && !text.toList.contains '\\' && (parse? text).isSome

def fileName (c : Coordinate) : String :=
  let classifier := match c.classifier with
    | some x => "-" ++ x
    | none => ""
  c.id ++ "-" ++ c.version ++ classifier ++ "." ++ c.kind

/-- The artifact's file in a repository: a directory for each segment of the group, then the
identifier, the version and the file. -/
def repositoryPath (c : Coordinate) (repository : Path) : Path :=
  let group := (Text.splitString '.' c.group).foldl (fun p segment => p / Path.ofText segment)
    repository
  group / Path.ofText c.id / Path.ofText c.version / Path.ofText c.fileName

example : (parse? " org.x:y:jar:sources:2.0\n").map (·.repositoryPath ⟨"/m2"⟩) =
    some ⟨"/m2/org/x/y/2.0/y-2.0-sources.jar"⟩ := by decide

end Coordinate

end ClojureBuild
