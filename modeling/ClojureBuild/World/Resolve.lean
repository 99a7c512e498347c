import ClojureBuild.World.Basic
/-!
Finding the place that a path names.

A path is followed step by step from its start.  A link in the middle is always followed, one at
the end only on demand, and at most forty links are followed in all.  What is found is a place
where something stands, or a vacant place in an existing directory.
-/

namespace ClojureBuild

/-- One step along a path. -/
inductive PathStep where
  /-- A `.`, or a separator at the end: stay, but in a directory. -/
  | stay
  | up
  | down (name : String)
deriving DecidableEq, Repr

/-- Where a path leads. -/
inductive Spot where
  /-- Something stands here. -/
  | taken (loc : Location)
  /-- Nothing stands here, but the directory around it exists. -/
  | vacant (parent : Location) (name : String)
deriving DecidableEq, Repr, Inhabited

namespace World

def stepOfPiece (piece : String) : Option PathStep :=
  if piece = "" then none
  else if piece = "." then some .stay
  else if piece = ".." then some .up
  else some (.down piece)

/-- The steps that a text spells.  A separator at the end asks for a directory. -/
def stepsOf (text : String) : List PathStep :=
  let steps := (Text.splitString '/' text).filterMap stepOfPiece
  if text.toList.getLast? = some '/' then steps ++ [.stay] else steps

/-- The longest file name, in bytes. -/
def nameLimit : Nat := 255

/-- The number of bytes that a path has to stay below. -/
def pathLimit : Nat := 4096

/-- The number of links that one look-up follows. -/
def linkLimit : Nat := 40

/-- Follows the steps from a directory.  `jump` goes on behind a link, from the directory that the
link's target starts at. -/
def traverse (w : World) (followLast : Bool)
    (jump : Location → List PathStep → Except OsError Spot) :
    Location → List PathStep → Except OsError Spot
  | loc, [] => .ok (.taken loc)
  | loc, .stay :: rest => traverse w followLast jump loc rest
  | loc, .up :: rest => traverse w followLast jump loc.tail rest
  | loc, .down name :: rest =>
      if nameLimit < name.length then .error .nameTooLong
      else
        match w.node? (name :: loc) with
        | none =>
            if rest.isEmpty && w.isDirAt loc then .ok (.vacant loc name) else .error .notFound
        | some (.dir _) => traverse w followLast jump (name :: loc) rest
        | some (.file ..) | some (.device _) =>
            if rest.isEmpty then .ok (.taken (name :: loc)) else .error .notADirectory
        | some (.link target) =>
            if rest.isEmpty && !followLast then .ok (.taken (name :: loc))
            else
              let start := if target.toList.head? = some '/' then [] else loc
              jump start (stepsOf target ++ rest)

/-- Follows the steps with a number of links to spare. -/
def resolveFrom (w : World) (followLast : Bool) :
    Nat → Location → List PathStep → Except OsError Spot
  | 0 => traverse w followLast (fun _ _ => .error .tooManyLinks)
  | links + 1 => traverse w followLast (resolveFrom w followLast links)

def resolve (w : World) (followLast : Bool) (p : Path) : Except OsError Spot :=
  if p.text.isEmpty then .error .notFound
  else if p.text.toList.contains (Char.ofNat 0) then .error .nulInPath
  else if pathLimit ≤ p.text.length then .error .nameTooLong
  else
    let start := if p.isAbsolute then [] else w.cwd
    resolveFrom w followLast linkLimit start (stepsOf p.text)

/-- The location and node that a path leads to, behind all links. -/
def stat (w : World) (p : Path) : Except OsError (Location × Node) := do
  match ← w.resolve true p with
  | .vacant .. => .error .notFound
  | .taken loc =>
      match w.node? loc with
      | some node => .ok (loc, node)
      | none => .error .notFound

def pathExists (w : World) (p : Path) : Bool :=
  match w.stat p with
  | .ok _ => true
  | .error _ => false

def isDir (w : World) (p : Path) : Bool :=
  match w.stat p with
  | .ok (_, node) => node.isDir
  | .error _ => false

def isFile (w : World) (p : Path) : Bool :=
  match w.stat p with
  | .ok (_, node) => node.isFile
  | .error _ => false

/-- The time of the last change of what a path leads to. -/
def modified (w : World) (p : Path) : Except OsError Int := do
  let (_, node) ← w.stat p
  return node.modified

end World

end ClojureBuild
