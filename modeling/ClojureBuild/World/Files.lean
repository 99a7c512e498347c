import ClojureBuild.World.Resolve
/-!
Reading and changing files through paths.

Every operation gives the new world beside its result, because an operation that fails may have
changed something already: making a chain of directories stops where it fails, and a copy empties
its target before it reads the source.
-/

namespace ClojureBuild.World

def readFile (w : World) (p : Path) : Except OsError ByteArray := do
  match ← w.stat p with
  | (_, .file content ..) => .ok content
  | (_, .device _) => .ok ByteArray.empty
  | _ => .error .isADirectory

def readText (w : World) (p : Path) : Except OsError String := do
  let content ← w.readFile p
  match String.fromUTF8? content with
  | some text => .ok text
  | none => .error .invalidUtf8

/-- The path without the separators at its end; the root keeps one. -/
def dropTrailingSeparators (p : Path) : Path :=
  let kept := (p.text.toList.reverse.dropWhile (· == '/')).reverse
  if kept.isEmpty then (if p.isAbsolute then ⟨"/"⟩ else p) else ⟨String.ofList kept⟩

/-- The place behind a path that a file can be written to: an existing file or a vacant place.
A separator at the end asks for a directory, which cannot be written. -/
def openForWriting (w : World) (p : Path) : Except OsError Spot :=
  if p.text.toList.getLast? = some '/' then
    match w.resolve false (dropTrailingSeparators p) with
    | .error e => .error e
    | .ok _ => .error .isADirectory
  else
    match w.resolve true p with
    | .error e => .error e
    | .ok (.vacant parent name) => .ok (.vacant parent name)
    | .ok (.taken loc) => if w.isDirAt loc then .error .isADirectory else .ok (.taken loc)

/-- Writes a file's bytes, creating the file or replacing its content.  An existing file keeps its
permission to be run unless another is given. -/
def store (w : World) (spot : Spot) (content : ByteArray) (executable : Option Bool) : World :=
  match spot with
  | .vacant parent name =>
      w.create (name :: parent) (.file content w.clock (executable.getD false))
  | .taken loc =>
      match w.node? loc with
      | some (.file _ _ old) => w.put loc (.file content w.clock (executable.getD old))
      | _ => w

def writeFile (w : World) (p : Path) (content : ByteArray) : Except OsError World := do
  let spot ← w.openForWriting p
  return w.store spot content none

/-- Makes one directory, at a place where nothing stands.  Separators at the end count for the
length of the path, though not for the place. -/
def makeDir (w : World) (p : Path) : Except OsError World :=
  if pathLimit ≤ p.text.length ∧ Char.ofNat 0 ∉ p.text.toList then .error .nameTooLong
  else
    match w.resolve false (dropTrailingSeparators p) with
    | .error e => .error e
    | .ok (.vacant parent name) => .ok (w.create (name :: parent) (.dir w.clock))
    | .ok (.taken _) => .error .alreadyExists

/-- A path and the directories above it, as far up as the text goes. -/
def ancestors (p : Path) : List Path :=
  go p.text.length p
where
  go : Nat → Path → List Path
    | 0, p => [p]
    | n + 1, p =>
        match p.parent? with
        | some parent => p :: go n parent
        | none => [p]

/-- Goes up from a path to the first directory that exists or can be made, and gives the ones that
are still missing, outermost last. -/
def climb (w : World) : List Path → List Path → Except OsError (World × List Path)
  | [], missing => .ok (w, missing)
  | p :: up, missing =>
      if p.text.isEmpty then .ok (w, missing)
      else
        match w.makeDir p with
        | .ok w => .ok (w, missing)
        | .error .notFound => climb w up (p :: missing)
        | .error e => if e = .alreadyExists && w.isDir p then .ok (w, missing) else .error e

/-- Makes directories one after the other. -/
def makeEach (w : World) : List Path → World × Except OsError Unit
  | [] => (w, .ok ())
  | p :: rest =>
      match w.makeDir p with
      | .ok w => makeEach w rest
      | .error e =>
          if e = .alreadyExists && w.isDir p then makeEach w rest else (w, .error e)

/-- Makes a directory and every missing one above it. -/
def makeDirs (w : World) (p : Path) : World × Except OsError Unit :=
  match w.climb (ancestors p) [] with
  | .error e => (w, .error e)
  | .ok (w, missing) => w.makeEach missing

/-- Copies a file onto another, with its permission to be run.  The target is emptied before the
source is read, so a file copied onto itself ends up empty. -/
def copyFile (w : World) (source target : Path) : World × Except OsError Unit :=
  match w.stat source with
  | .error e => (w, .error e)
  | .ok (origin, .file _ _ executable) =>
      match w.openForWriting target with
      | .error e => (w, .error e)
      | .ok spot =>
          let emptied := w.store spot ByteArray.empty none
          let content := match emptied.node? origin with
            | some (.file content ..) => content
            | _ => ByteArray.empty
          let spot' := match spot with
            | .vacant parent name => .taken (name :: parent)
            | spot => spot
          (emptied.store spot' content (some executable), .ok ())
  | .ok _ => (w, .error .notARegularFile)

def entriesBelow (w : World) (loc : Location) : List (Location × Node) :=
  w.nodes.filterMap fun (l, node) =>
    if loc.isSuffixOf l then some (l.take (l.length - loc.length), node) else none

def putBelow (w : World) (loc : Location) (entries : List (Location × Node)) : World :=
  entries.foldl (fun w (names, node) => w.put (names ++ loc) node) w

/-- Moves what stands at a location, with everything below it, to another one. -/
def moveTree (w : World) (source target : Location) : World :=
  let entries := w.entriesBelow source
  let w := if w.node? target |>.isSome then w.removeTree target else w
  ((w.removeTree source).putBelow target entries).touchDir target.tail

end ClojureBuild.World
