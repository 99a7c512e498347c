import ClojureBuild.Path.Basic
import ClojureBuild.Sorting
import ClojureBuild.OsError
/-!
The world that a build reads and changes: a tree of files, a current directory and a clock.

A *location* is a place in the tree without links or `..`; it lists names, which are octet texts,
from the leaf up, so the directory that holds it is its tail.  Everything the library knows about
the tree it learns through `World.node?`, and each change says what it does to that view.
-/

namespace ClojureBuild

/-- A place in the tree: names from the leaf to the root. -/
abbrev Location := List OsText

/-- What stands at a location.  A time is a whole number, greater for what is later. -/
inductive Node where
  | dir (modified : Int)
  | file (content : ByteArray) (modified : Int) (executable : Bool)
  | link (target : OsText)
  /-- A file of the system that keeps nothing and gives nothing. -/
  | device (modified : Int)
deriving Inhabited

namespace Node

def isDir : Node → Bool
  | .dir _ => true
  | _ => false

def isFile : Node → Bool
  | .file .. => true
  | _ => false

def isDevice : Node → Bool
  | .device _ => true
  | _ => false

/-- The time of the last change; that of a link is never asked for. -/
def modified : Node → Int
  | .dir t => t
  | .file _ t _ => t
  | .link _ => 0
  | .device t => t

/-- The node with another time of change. -/
def touch (now : Int) : Node → Node
  | .dir _ => .dir now
  | .file content _ executable => .file content now executable
  | .link target => .link target
  | .device t => .device t

end Node

/-- The tree, the current directory and the clock. -/
structure World where
  nodes : List (Location × Node)
  cwd : Location
  clock : Int
deriving Inhabited

namespace World

def entryAt (loc : Location) : List (Location × Node) → Option Node
  | [] => none
  | (l, node) :: rest => if l = loc then some node else entryAt loc rest

/-- What stands at a location.  The root is always a directory. -/
def node? (w : World) (loc : Location) : Option Node :=
  match entryAt loc w.nodes with
  | some node => some node
  | none => if loc = [] then some (.dir 0) else none

def isDirAt (w : World) (loc : Location) : Bool :=
  (w.node? loc).any Node.isDir

/-- The list with the entry of one location replaced, or added at its end. -/
def replaceAt (loc : Location) (node : Node) : List (Location × Node) → List (Location × Node)
  | [] => [(loc, node)]
  | (l, n) :: rest => if l = loc then (loc, node) :: rest else (l, n) :: replaceAt loc node rest

theorem entryAt_replaceAt (loc other : Location) (node : Node) (nodes : List (Location × Node)) :
    entryAt other (replaceAt loc node nodes) =
      if loc = other then some node else entryAt other nodes := by
  induction nodes with
  | nil => simp [replaceAt, entryAt]
  | cons entry rest ih =>
      obtain ⟨l, n⟩ := entry
      by_cases hl : l = loc
      · subst hl
        simp only [replaceAt, ↓reduceIte, entryAt]
        split <;> rfl
      · simp only [replaceAt, hl, ↓reduceIte, entryAt, ih]
        by_cases hother : l = other
        · subst hother
          simp [Ne.symm hl]
        · simp [hother]

/-- Puts a node at a location, whatever stood there. -/
def put (w : World) (loc : Location) (node : Node) : World :=
  { w with nodes := replaceAt loc node w.nodes }

theorem node?_put (w : World) (loc other : Location) (node : Node) :
    (w.put loc node).node? other = if loc = other then some node else w.node? other := by
  simp only [node?, put, entryAt_replaceAt]
  by_cases h : loc = other <;> simp [h]

/-- Notes a change of the entries of a directory. -/
def touchDir (w : World) (loc : Location) : World :=
  match w.node? loc with
  | some (.dir _) => w.put loc (.dir w.clock)
  | _ => w

theorem node?_touchDir (w : World) (loc other : Location) :
    (w.touchDir loc).node? other =
      if loc = other ∧ w.isDirAt loc = true then some (.dir w.clock) else w.node? other := by
  simp only [touchDir, isDirAt]
  split
  next t ht => simp [node?_put, ht, Node.isDir]
  next hdir =>
    have hnot : (w.node? loc).any Node.isDir = false := by
      cases hnode : w.node? loc with
      | none => rfl
      | some node =>
          cases node with
          | dir t => exact absurd hnode (hdir t)
          | file content t executable => rfl
          | link target => rfl
          | device t => rfl
    simp [hnot]

/-- Adds an entry to the directory that holds the location, which changes that directory. -/
def create (w : World) (loc : Location) (node : Node) : World :=
  (w.touchDir loc.tail).put loc node

theorem node?_create (w : World) (loc other : Location) (node : Node) :
    (w.create loc node).node? other =
      if loc = other then some node else (w.touchDir loc.tail).node? other := by
  simp [create, node?_put]

/-- Removes a location and everything below it. -/
def removeTree (w : World) (loc : Location) : World :=
  let kept := w.nodes.filter (fun entry => !loc.isSuffixOf entry.1)
  ({ w with nodes := kept } : World).touchDir loc.tail

/-- The names in a directory, in ascending order. -/
def childNames (w : World) (loc : Location) : List OsText :=
  distinctBy (fun a b => decide (a < b)) (w.nodes.filterMap fun entry =>
    match entry.1 with
    | name :: up => if up = loc then some name else none
    | [] => none)

/-- The location that an absolute, link-free text spells. -/
def locationOf (text : OsText) : Location :=
  ((Text.splitString '/' text).filter (fun s => !s.isEmpty)).reverse

def textOf (loc : Location) : OsText :=
  if loc = [] then "/" else String.join (loc.reverse.map ("/" ++ ·))

def cwdPath (w : World) : Path := ⟨textOf w.cwd⟩

def second : Int := 1000000000

def advance (w : World) (time : Int) : World := { w with clock := w.clock + time }

end World

end ClojureBuild
