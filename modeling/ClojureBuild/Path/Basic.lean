import ClojureBuild.Text.Octets
import ClojureBuild.Text.Split
/-!
Slash-separated path names.

A path is its text: nothing is normalised when a path is built, so what is shown is what was
written.  The text is one of octets, since a file may have any bytes but `/` and a zero in its name.
Two paths name the same place when their *components* agree; repeated separators, a separator at the
end and `.` components after the first position do not count.
-/

namespace ClojureBuild

/-- A path name, exactly as it was written or joined. -/
structure Path where
  text : OsText
deriving DecidableEq, Repr, Inhabited

namespace Path

/-- One component of a path. -/
inductive Component where
  /-- The root directory, at the front of an absolute path. -/
  | root
  /-- A `.` at the very front of a relative path. -/
  | here
  /-- The parent directory, written `..`. -/
  | up
  | name (text : OsText)
deriving DecidableEq, Repr, Inhabited

namespace Component

def text : Component → OsText
  | .root => "/"
  | .here => "."
  | .up => ".."
  | .name n => n

/-- Components are ordered by kind, names by their bytes. -/
def before : Component → Component → Bool
  | .name a, .name b => a < b
  | a, b => rank a < rank b
where
  rank : Component → Nat
    | .root => 0
    | .here => 1
    | .up => 2
    | .name _ => 3

end Component

def ofText (text : String) : Path := ⟨Octets.ofText text⟩

def isText (p : Path) : Bool := Octets.isText p.text

/-- The path for a reader, with a stand-in for bytes that are no text. -/
def display (p : Path) : String := Octets.toText p.text

/-- What stands in front of the pieces of a path. -/
inductive Head where
  | root
  | here
  | bare
deriving DecidableEq, Repr

def Head.chars : Head → List Char
  | .root => ['/']
  | .here => ['.']
  | .bare => []

/-- The head of a path and the text behind it.  A leading `.` is a head only when it is a whole
piece. -/
def splitHead : List Char → Head × List Char
  | '/' :: rest => (.root, rest)
  | ['.'] => (.here, [])
  | '.' :: '/' :: rest => (.here, '/' :: rest)
  | text => (.bare, text)

theorem chars_splitHead (text : List Char) :
    (splitHead text).1.chars ++ (splitHead text).2 = text := by
  fun_cases splitHead text <;> simp_all [Head.chars]

def head (p : Path) : Head := (splitHead p.text.toList).1

/-- The text behind the head, cut at every separator. -/
def pieces (p : Path) : List (List Char) :=
  Text.splitOn '/' (splitHead p.text.toList).2

/-- A piece that names something: neither empty nor `.`. -/
def significant (piece : List Char) : Bool :=
  piece != [] && piece != ['.']

/-- The component that a piece between slashes is. -/
def componentOfPiece (piece : List Char) : Component :=
  if piece = ['.', '.'] then .up else .name (String.ofList piece)

/-- The components of a path; two paths with the same components name the same place. -/
def components (p : Path) : List Component :=
  let front := match p.head with
    | .root => [Component.root]
    | .here => [Component.here]
    | .bare => []
  front ++ (p.pieces.filter significant).map componentOfPiece

/-- Equality by components. -/
def same (p q : Path) : Bool :=
  p.components == q.components

/-- The order of paths: by components, the first difference decides. -/
def before (p q : Path) : Bool :=
  go p.components q.components
where
  go : List Component → List Component → Bool
    | [], [] => false
    | [], _ :: _ => true
    | _ :: _, [] => false
    | a :: as, b :: bs => a.before b || (a == b && go as bs)

def isAbsolute (p : Path) : Bool :=
  p.text.toList.head? == some '/'

/-- Joins two path texts: an absolute right side replaces the left one, and otherwise a separator
is added when the left side is not empty and does not end in one. -/
def joinChars (left right : List Char) : List Char :=
  if right.head? = some '/' then right
  else if left = [] ∨ left.getLast? = some '/' then left ++ right
  else left ++ '/' :: right

/-- The path `q` seen from the directory `p`. -/
def join (p q : Path) : Path :=
  ⟨String.ofList (joinChars p.text.toList q.text.toList)⟩

instance : HDiv Path Path Path := ⟨join⟩
instance : HDiv Path OsText Path := ⟨fun p s => p.join ⟨s⟩⟩

/-- The path built by joining the pieces one after the other. -/
def ofPieces (pieces : List OsText) : Path :=
  pieces.foldl (fun p s => p.join ⟨s⟩) ⟨""⟩

/-- The pieces without the insignificant ones at the end. -/
def trimPieces (pieces : List (List Char)) : List (List Char) :=
  (pieces.reverse.dropWhile (fun piece => !significant piece)).reverse

def assemble (head : Head) (pieces : List (List Char)) : Path :=
  ⟨String.ofList (head.chars ++ Text.joinWith '/' pieces)⟩

/-- The directory that holds the path; the root and the empty path have none. -/
def parent? (p : Path) : Option Path :=
  match (trimPieces p.pieces).reverse with
  | [] =>
      match p.head with
      | .here => some ⟨""⟩
      | _ => none
  | _ :: front => some (assemble p.head (trimPieces front.reverse))

/-- The last component, when it is a name. -/
def fileName? (p : Path) : Option OsText :=
  match (trimPieces p.pieces).reverse with
  | [] => none
  | last :: _ => if last = ['.', '.'] then none else some (String.ofList last)

/-- A file name cut at its last dot.  A dot at the front begins no extension. -/
def splitExtension (name : List Char) : List Char × Option (List Char) :=
  match name.reverse.span (· != '.') with
  | (_, []) => (name, none)
  | (_, [_]) => (name, none)
  | (ext, _ :: stem) => (stem.reverse, some ext.reverse)

/-- What stands behind the last dot of the file name. -/
def extension? (p : Path) : Option OsText := do
  let name ← p.fileName?
  let ext ← (splitExtension name.toList).2
  return String.ofList ext

/-- The path with the extension of its file name replaced; an empty extension leaves none.  A path
without a file name is left alone, and separators behind the file name are dropped. -/
def withExtension (p : Path) (ext : OsText) : Path :=
  match (trimPieces p.pieces).reverse with
  | [] => p
  | last :: front =>
      if last = ['.', '.'] then p
      else
        let stem := (splitExtension last).1
        let suffix := if ext.isEmpty then [] else '.' :: ext.toList
        assemble p.head (front.reverse ++ [stem ++ suffix])

/-- The path without the extension of its file name, and then without what the shorter name still
has behind its last dot when that is empty.  What remains may no longer be a file name: `..x` leaves
`..`. -/
def dropExtension (p : Path) : Path :=
  match p.extension? with
  | none => p.withExtension ""
  | some ext =>
      let text := p.text.toList
      (⟨String.ofList (text.take (text.length - ext.toList.length))⟩ : Path).withExtension ""

/-- Drops the pieces up to and including the given number of significant ones. -/
def dropSignificant : Nat → List (List Char) → List (List Char)
  | 0, pieces => pieces
  | _ + 1, [] => []
  | n + 1, piece :: pieces =>
      if significant piece then dropSignificant n pieces else dropSignificant (n + 1) pieces

def below? (base p : Path) : Option Path :=
  if base.components.isPrefixOf p.components then
    match base.components with
    | [] => some (assemble p.head (trimPieces p.pieces))
    | first :: rest =>
        let inPieces := match first with
          | .root | .here => rest.length
          | _ => rest.length + 1
        let remaining := (dropSignificant inPieces p.pieces).dropWhile (fun x => !significant x)
        some (assemble .bare (trimPieces remaining))
  else
    none

/-- The absolute form of a path seen from the directory `cwd`.  It drops `.` and repeated separators
but keeps `..`, a separator at the end, and exactly two separators at the front.  The empty path
has none. -/
def absolute? (cwd p : Path) : Option Path :=
  if p.text.isEmpty then none
  else
    let text := p.text.toList
    let names := (p.pieces.filter significant).map String.ofList
    let start : Path :=
      match text with
      | '/' :: '/' :: '/' :: _ => ⟨"/"⟩
      | '/' :: '/' :: _ => ⟨"//"⟩
      | '/' :: _ => ⟨"/"⟩
      | _ => cwd
    let whole := names.foldl (fun q s => q.join ⟨s⟩) start
    some (if text.getLast? = some '/' then whole.join ⟨""⟩ else whole)

example : (⟨"o/./x"⟩ : Path).parent? = some ⟨"o"⟩ := by decide
example : (⟨"a/b.tar.gz/"⟩ : Path).withExtension "x" = ⟨"a/b.tar.x"⟩ := by decide
example : (⟨"a/..x"⟩ : Path).dropExtension = ⟨"a/.."⟩ := by decide
example : (⟨".rc"⟩ : Path).extension? = none ∧ (⟨"a."⟩ : Path).extension? = some "" := by decide
example : below? ⟨"a/"⟩ ⟨"a//b/./c/"⟩ = some ⟨"b/./c"⟩ := by decide
example : absolute? ⟨"/w"⟩ ⟨"./a/../b//"⟩ = some ⟨"/w/a/../b/"⟩ := by decide

end Path

end ClojureBuild
