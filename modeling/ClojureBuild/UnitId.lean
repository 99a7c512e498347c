import ClojureBuild.Path.Basic
import ClojureBuild.Text.Blank
/-!
Unit identifiers: the dotted names of translatable source files, such as `foo.bar-baz`.

The relative path of a unit writes `/` for `.` and `_` for `-`.  The way back reads every `_` as
`-`, so the two agree exactly on identifiers that hold neither `_` nor `/`.
-/

namespace ClojureBuild

/-- A unit identifier. -/
structure UnitId where
  text : String
deriving DecidableEq, Repr, Inhabited

namespace UnitId

/-- A text that is no unit identifier. -/
structure Malformed where
  input : String
deriving DecidableEq, Repr

def Malformed.message (e : Malformed) : String :=
  "invalid unit identifier: '" ++ e.input ++ "'"

def sourceExtension : String := "clj"

/-- What is appended to the name of a unit's last segment to name its compiled loader. -/
def initSuffix : String := "__init.class"

/-- An identifier is not empty, neither begins nor ends with a dot, has no two dots in a row, and
holds no white space and no separator of either kind. -/
def wellFormed (chars : List Char) : Bool :=
  !chars.isEmpty && chars.head? != some '.' && chars.getLast? != some '.' &&
    !Text.occursIn ['.', '.'] chars &&
    chars.all (fun c => !Text.isBlank c && c != '/' && c != '\\')

def parse (text : String) : Except Malformed UnitId :=
  if wellFormed text.toList then .ok ⟨text⟩ else .error ⟨text⟩

/-- The character of an identifier as it stands in a path. -/
def charToPath (c : Char) : Char :=
  if c = '.' then '/' else if c = '-' then '_' else c

/-- The character of a path as it stands in an identifier. -/
def charOfPath (c : Char) : Char :=
  if c = '/' then '.' else if c = '_' then '-' else c

/-- The relative path of the unit, without an extension. -/
def toPath (unit : UnitId) : String :=
  String.ofList (unit.text.toList.map charToPath)

/-- The unit that a relative path without extension names.  Nothing is checked. -/
def ofPath (path : String) : UnitId :=
  ⟨String.ofList (path.toList.map charOfPath)⟩

/-- The relative path, joined segment by segment. -/
def relativePath (unit : UnitId) : Path :=
  Path.ofPieces ((Text.splitString '/' unit.toPath).map Octets.ofText)

def sourceFile (unit : UnitId) (root : Path) : Path :=
  (root / unit.relativePath).withExtension sourceExtension

/-- The compiled loader of the unit below a target directory. -/
def initArtifact (unit : UnitId) (target : Path) : Path :=
  let relative := unit.relativePath
  let file := relative.fileName?.getD "" ++ initSuffix
  match relative.parent? with
  | some parent => target / parent / file
  | none => target / file

/-- The order of identifiers: by their characters. -/
def before (a b : UnitId) : Bool := a.text < b.text

/-- The text that a debugging print shows. -/
def debug (unit : UnitId) : String := "UnitId(" ++ unit.text ++ ")"

example : (⟨"foo.bar-baz"⟩ : UnitId).sourceFile ⟨"/src"⟩ = ⟨"/src/foo/bar_baz.clj"⟩ := by decide
example : (⟨"foo.bar"⟩ : UnitId).initArtifact ⟨"/out"⟩ = ⟨"/out/foo/bar__init.class"⟩ := by decide

end UnitId

/-- A list in ascending order without repetitions, from any list. -/
def sortUnits (units : List UnitId) : List UnitId :=
  units.foldr insert []
where
  insert (u : UnitId) : List UnitId → List UnitId
    | [] => [u]
    | v :: rest =>
        if u.before v then u :: v :: rest else if u = v then v :: rest else v :: insert u rest

end ClojureBuild
