import ClojureBuild.Process.Program.System
import ClojureBuild.Shell.Pattern
/-!
The programs that list directories and go through trees, and the one that shows differences.
-/

namespace ClojureBuild.Program

/-! ### Listing -/

/-- The mark behind a name that tells what it is. -/
def kindMark (a : Arguments) : Node → String
  | .dir _ => if a.has 'F' || a.has 'p' then "/" else ""
  | .file _ _ true => if a.has 'F' then "*" else ""
  | .link _ => if a.has 'F' then "@" else ""
  | _ => ""

/-- The letters for what stands somewhere and what may be done with it. -/
def modeText : Node → String
  | .dir _ => "drwxr-xr-x"
  | .file _ _ true => "-rwxr-xr-x"
  | .file _ _ false => "-rw-r--r--"
  | .link _ => "lrwxrwxrwx"
  | .device _ => "crw-rw-rw-"

def sizeOf : Node → Nat
  | .file content .. => content.size
  | .link target => target.utf8ByteSize
  | .dir _ => 4096
  | .device _ => 0

def monthName (month : Int) : String :=
  (["Jan", "Feb", "Mar", "Apr", "May", "Jun", "Jul", "Aug", "Sep", "Oct", "Nov", "Dec"][
    (month - 1).toNat]?).getD ""

def longLine (width : Nat) (name : String) (node : Node) : String :=
  let seconds := node.modified / World.second
  let (_, month, day) := dateOf (seconds / 86400)
  let time := formatTime seconds "%H:%M".toList
  let target := match node with
    | .link target => " -> " ++ target
    | _ => ""
  modeText node ++ " 1 root root " ++ padLeft width (toString (sizeOf node)) ++ " " ++
    monthName month ++ " " ++ padLeft 2 (toString day) ++ " " ++ time ++ " " ++ name ++ target

def entryLines (a : Arguments) (entries : List (String × Node)) : List String :=
  let byName := sortBy (fun x y => decide (x.1 < y.1)) entries
  let ordered :=
    if a.has 't' then byName.mergeSort fun x y => decide (y.2.modified ≤ x.2.modified)
    else if a.has 'S' then byName.mergeSort fun x y => decide (sizeOf y.2 ≤ sizeOf x.2)
    else byName
  let ordered := if a.has 'r' then ordered.reverse else ordered
  let width := (ordered.map fun e => (toString (sizeOf e.2)).length).foldl max 0
  ordered.map fun (name, node) =>
    if a.has 'l' then longLine width name node else name ++ kindMark a node

def shownEntries (a : Arguments) (w : World) (loc : Location) : List (String × Node) :=
  let own := (w.childNames loc).filterMap fun name =>
    (w.node? (name :: loc)).map fun node => (name, node)
  let dots := if a.has 'a' then
      [(".", (w.node? loc).getD (.dir 0)), ("..", (w.node? loc.tail).getD (.dir 0))]
    else []
  dots ++ own.filter fun (name, _) => a.has 'a' || a.has 'A' || name.toList.head? ≠ some '.'

/-- The directories to list, each with those below it where that is asked for. -/
def listedDirs (a : Arguments) (w : World) : Nat → String → Location → List (String × Location)
  | 0, _, _ => []
  | n + 1, name, loc =>
      (name, loc) ::
        (if a.has 'R' then
          (shownEntries a w loc).flatMap fun (child, node) =>
            if node.isDir && child ≠ "." && child ≠ ".." then
              listedDirs a w n (joinNames name child) (child :: loc)
            else []
        else [])

def ls : Program ExitStatus := do
  let a ← arguments { (Forms.ofLetters "aAbBcCdDfFgGhHiklLmnNopqQrRsStuUvxXZ1" "wIT" [("all", 'a'),
    ("almost-all", 'A'), ("directory", 'd'), ("reverse", 'r'), ("recursive", 'R'),
    ("classify", 'F'), ("color", 'C')]) with fault := 2, joined := "C" }
  let names := if a.operands.isEmpty then ["."] else a.operands
  let found ← names.filterMapM fun name => do
    match ← look (!(a.has 'l' || a.has 'd' || a.has 'F')) name, ← look false name with
    | .ok entry, _ => return some (name, entry)
    | .error _, .ok entry => return some (name, entry)
    | .error e, .error _ =>
        warn ("cannot access " ++ faulty (quoted name) e)
        return none
  let isListed (node : Node) : Bool := node.isDir && !a.has 'd'
  let files := (found.filter fun (_, _, node) => !isListed node).map fun (name, _, node) =>
    (name, node)
  let w ← world
  let dirs := (sortBy (fun x y => decide (x.1 < y.1))
    (found.filter fun (_, _, node) => isListed node)).flatMap
      fun (name, loc, _) => listedDirs a w 2000 name loc
  let headed := 1 < names.length || a.has 'R'
  let total (entries : List (String × Node)) : String :=
    if a.has 'l' then "total " ++ toString ((entries.map fun e =>
      (sizeOf e.2 + 4095) / 4096 * 4).foldl (· + ·) 0) ++ "\n" else ""
  let sections := dirs.map fun (name, loc) =>
    let entries := shownEntries a w loc
    (if headed then name ++ ":\n" else "") ++ total entries ++ joinLines (entryLines a entries)
  let sections := (if files.isEmpty then [] else [joinLines (entryLines a files)]) ++ sections
  say (String.intercalate "\n" sections)
  return statusOf (found.length = names.length) 2

/-! ### Going through trees -/

/-- A condition on what is found, which may do something on the way. -/
inductive Find where
  | always (truth : Bool)
  | named (items : List Shell.PatternItem) (foldsCase : Bool)
  | placed (items : List Shell.PatternItem)
  | kind (letters : List Char)
  | empty
  | newer (time : Int)
  | size (sign : Option Char) (n unit : Nat)
  | print (stop : String)
  | remove
  | prune
  | exec (command : List String) (collects : Bool)
  | not (inner : Find)
  | both (first second : Find)
  | either (first second : Find)
deriving Inhabited

namespace Find

/-- Whether a condition does something, so that what is found need not be shown. -/
def acts : Find → Bool
  | .print _ | .remove | .exec .. => true
  | .not inner => inner.acts
  | .both a b | .either a b => a.acts || b.acts
  | _ => false

/-- Whether directories come behind what is in them. -/
def goesDeep : Find → Bool
  | .remove => true
  | .not inner => inner.goesDeep
  | .both a b | .either a b => a.goesDeep || b.goesDeep
  | _ => false

/-- The commands that are given all that was found at once. -/
def collectors : Find → List (List String)
  | .exec command true => [command]
  | .not inner => inner.collectors
  | .both a b | .either a b => a.collectors ++ b.collectors
  | _ => []

def patternOf (text : String) : List Shell.PatternItem :=
  Shell.patternOf false (text.toList.map (·, false))

/-- The level of an expression: alternatives, conjunctions, or one condition. -/
inductive Level where
  | alternatives
  | conjunction
  | single
deriving DecidableEq

/-- Reads a condition from words; the number bounds them. -/
def read : Nat → Level → List String → Program (Find × List String)
  | 0, _, words => return (.always true, words)
  | n + 1, .alternatives, words => do
      let (a, rest) ← read n .conjunction words
      match rest with
      | "-o" :: rest | "-or" :: rest =>
          let (b, rest) ← read n .alternatives rest
          return (.either a b, rest)
      | rest => return (a, rest)
  | n + 1, .conjunction, words => do
      let (a, rest) ← read n .single words
      let more (rest : List String) : Program (Find × List String) := do
        let (b, rest) ← read n .conjunction rest
        return (.both a b, rest)
      match rest with
      | "-a" :: rest | "-and" :: rest => more rest
      | [] => return (a, [])
      | word :: _ => if ["-o", "-or", ")"].contains word then return (a, rest) else more rest
  | n + 1, .single, words => do
      match words with
      | [] => return (.always true, [])
      | "(" :: rest =>
          match ← read n .alternatives rest with
          | (a, ")" :: rest) => return (a, rest)
          | _ => refuse 1 ("invalid expression; I was expecting to find a ')' somewhere " ++
              "but did not see one.")
      | "!" :: rest | "-not" :: rest =>
          let (a, rest) ← read n .single rest
          return (.not a, rest)
      | "-print" :: rest => return (.print "\n", rest)
      | "-print0" :: rest => return (.print (String.singleton (Char.ofNat 0)), rest)
      | "-delete" :: rest => return (.remove, rest)
      | "-prune" :: rest => return (.prune, rest)
      | "-empty" :: rest => return (.empty, rest)
      | "-true" :: rest => return (.always true, rest)
      | "-false" :: rest => return (.always false, rest)
      | "-depth" :: rest | "-mount" :: rest | "-xdev" :: rest => return (.always true, rest)
      | "-exec" :: rest | "-execdir" :: rest =>
          let command := rest.takeWhile fun word => word ≠ ";" && word ≠ "+"
          match rest.drop command.length with
          | ";" :: rest => return (.exec command false, rest)
          | "+" :: rest => return (.exec (command.filter (· ≠ "\x7b\x7d")) true, rest)
          | _ => refuse 1 "missing argument to \x60-exec'"
      | word :: rest =>
          let known := ["-name", "-iname", "-path", "-wholename", "-type", "-newer", "-size",
            "-maxdepth", "-mindepth"]
          if !known.contains word then
            refuse 1 ((if word.toList.head? = some '-' then "unknown predicate \x60" ++ word ++ "'"
              else "paths must precede expression: \x60" ++ word ++ "'"))
          else
            match rest with
            | [] => refuse 1 ("missing argument to \x60" ++ word ++ "'")
            | value :: rest =>
                match word with
                | "-name" => return (.named (patternOf value) false, rest)
                | "-iname" => return (.named (patternOf (value.map Char.toLower)) true, rest)
                | "-path" | "-wholename" => return (.placed (patternOf value), rest)
                | "-type" => return (.kind (value.toList.filter (· != ',')), rest)
                | "-newer" =>
                    match ← look true value with
                    | .ok (_, node) => return (.newer node.modified, rest)
                    | .error e => refuse 1 (faulty (quoted value) e)
                | "-size" =>
                    let (sign, body) := match value.toList with
                      | '+' :: rest => (some '+', rest)
                      | '-' :: rest => (some '-', rest)
                      | rest => (none, rest)
                    let digits := body.takeWhile Char.isDigit
                    let unit := match body.drop digits.length with
                      | ['c'] => 1
                      | ['k'] => 1024
                      | ['M'] => 1048576
                      | _ => 512
                    return (.size sign (((String.ofList digits).toNat?).getD 0) unit, rest)
                | _ => return (.always true, rest)

/-- What is found somewhere. -/
structure Place where
  path : String
  loc : Location
  node : Node

/-- Whether a condition holds, and whether what is below is left out.  What is done on the way is
done now. -/
def holds (spawn : Spawner) (p : Place) : Find → Program (Bool × Bool)
  | .always truth => return (truth, false)
  | .named items folds =>
      let base := baseName p.path
      return (Shell.matchesAll items (if folds then base.map Char.toLower else base).toList, false)
  | .placed items => return (Shell.matchesAll items p.path.toList, false)
  | .kind letters =>
      let letter := match p.node with
        | .dir _ => 'd'
        | .file .. => 'f'
        | .link _ => 'l'
        | .device _ => 'c'
      return (letters.contains letter, false)
  | .empty => do
      let w ← world
      return (match p.node with
        | .dir _ => (w.childNames p.loc).isEmpty
        | .file content .. => content.size == 0
        | .link _ | .device _ => false, false)
  | .newer time => return (decide (time < p.node.modified), false)
  | .size sign n unit =>
      let blocks := (sizeOf p.node + unit - 1) / unit
      return (match sign with
        | some '+' => n < blocks
        | some _ => blocks < n
        | none => blocks == n, false)
  | .print stop => do
      say (p.path ++ stop)
      return (true, false)
  | .remove => do
      let w ← world
      if !(w.childNames p.loc).isEmpty then
        warn ("cannot delete " ++ faulty (quoted p.path) .notEmpty)
        return (false, false)
      else
        changeWorld (·.removeTree p.loc)
        return (true, false)
  | .prune => return (true, p.node.isDir)
  | .exec command collects => do
      if collects then return (true, false)
      else
        match command.map (replaceMark "\x7b\x7d" p.path) with
        | [] => return (true, false)
        | name :: args =>
            match ← start spawn false (← ReaderT.read).environment name args with
            | .ok status => return (status.succeeded, false)
            | .error e =>
                warn (faulty (quoted name) e)
                return (false, false)
  | .not inner => do
      let (truth, pruned) ← holds spawn p inner
      return (!truth, pruned)
  | .both a b => do
      let (truth, pruned) ← holds spawn p a
      if truth then
        let (truth, more) ← holds spawn p b
        return (truth, pruned || more)
      else return (false, pruned)
  | .either a b => do
      let (truth, pruned) ← holds spawn p a
      if truth then return (true, pruned)
      else
        let (truth, more) ← holds spawn p b
        return (truth, pruned || more)

/-- The levels that are looked at, and whether directories come last. -/
structure Bounds where
  least : Nat
  most : Nat
  deep : Bool

/-- Goes through a tree, and gives the paths for which the condition holds. -/
def walk (spawn : Spawner) (f : Find) (b : Bounds) : Nat → Nat → String → Location →
    Program (List String)
  | 0, _, _, _ => return []
  | n + 1, level, path, loc => do
      match (← world).node? loc with
      | none => return []
      | some node =>
          let check : Program (Bool × Bool) := do
            if level < b.least then return (false, false) else holds spawn ⟨path, loc, node⟩ f
          let below : Program (List String) := do
            if !node.isDir || b.most ≤ level then return []
            else
              let names := (← world).childNames loc
              return (← names.mapM fun name =>
                walk spawn f b n (level + 1) (joinNames path name)
                  (name :: loc)).flatten
          if b.deep then
            let inner ← below
            let (truth, _) ← check
            return inner ++ (if truth then [path] else [])
          else
            let (truth, pruned) ← check
            let inner ← if pruned then pure [] else below
            return (if truth then [path] else []) ++ inner

end Find

def valueBehind? (word : String) : List String → Option String
  | a :: b :: rest => if a = word then some b else valueBehind? word (b :: rest)
  | _ => none

/-- Goes through trees and does something with the names that meet a condition. -/
def find (spawn : Spawner) : Program ExitStatus := do
  let call ← read
  let args := call.args.dropWhile fun arg => ["-H", "-L", "-P"].contains arg
  let roots := args.takeWhile fun arg =>
    arg.toList.head? ≠ some '-' && arg ≠ "(" && arg ≠ "!"
  let words := args.drop roots.length
  let roots := if roots.isEmpty then ["."] else roots
  let (f, rest) ← Find.read (10 * words.length + 10) .alternatives words
  match rest with
  | [] => pure ()
  | word :: _ => refuse 1 ("paths must precede expression: \x60" ++ word ++ "'")
  let f := if f.acts then f else .both f (.print "\n")
  let number (word : String) (usual : Nat) : Nat :=
    ((valueBehind? word words).bind String.toNat?).getD usual
  let bounds : Find.Bounds :=
    ⟨number "-mindepth" 0, number "-maxdepth" 100000, f.goesDeep || words.contains "-depth"⟩
  let found ← roots.mapM fun root => do
    match ← look false root with
    | .ok (loc, _) => return some (← Find.walk spawn f bounds 2000 0 root loc)
    | .error e =>
        warn (faulty (quoted root) e)
        return none
  let paths := (found.filterMap id).flatten
  let fine ← each f.collectors fun command => do
    match command with
    | [] => return true
    | name :: args =>
        if paths.isEmpty then return true
        else
          match ← start spawn false call.environment name (args ++ paths) with
          | .ok status => return status.succeeded
          | .error e =>
              warn (faulty (quoted name) e)
              return false
  return statusOf (fine && found.all Option.isSome) 1

/-! ### Differences -/

/-- The lengths of the longest common parts of the ends of two lists: a row for each end of the
first one, the whole of it first. -/
def commonRows (ys : List String) : List String → List (List Nat)
  | [] => [List.replicate (ys.length + 1) 0]
  | x :: xs =>
      match commonRows ys xs with
      | [] => []
      | below :: rows =>
          let rec row : List String → List Nat → List Nat
            | y :: ys, b :: c :: bs =>
                let right := row ys (c :: bs)
                let n := if x = y then c + 1 else max b ((right.head?).getD 0)
                n :: right
            | _, _ => [0]
          row ys below :: below :: rows

/-- One step from one text to another. -/
inductive Difference where
  | keep
  | drop (line : String)
  | add (line : String)
deriving DecidableEq, Repr, Inhabited

def stepsBetween : Nat → List String → List String → List (List Nat) → List Difference
  | 0, _, _, _ => []
  | _, [], ys, _ => ys.map .add
  | _, xs, [], _ => xs.map .drop
  | n + 1, x :: xs, y :: ys, rows =>
      let value (i j : Nat) : Nat := ((rows[i]?).bind (·[j]?)).getD 0
      if x = y then .keep :: stepsBetween n xs ys ((rows.drop 1).map (·.drop 1))
      else if value 0 1 ≤ value 1 0 then .drop x :: stepsBetween n xs (y :: ys) (rows.drop 1)
      else .add y :: stepsBetween n (x :: xs) ys (rows.map (·.drop 1))

def rangeText (start count : Nat) : String :=
  if count ≤ 1 then toString (start + count)
  else toString (start + 1) ++ "," ++ toString (start + count)

/-- The changes between two texts, as they are shown; the numbers are the lines passed so far. -/
def showChanges : Nat → Nat → Nat → List Difference → List String
  | 0, _, _, _ => []
  | _, _, _, [] => []
  | n + 1, i, j, steps =>
      let kept := steps.takeWhile (· == .keep)
      let i := i + kept.length
      let j := j + kept.length
      let changed := (steps.drop kept.length).takeWhile (· != .keep)
      let dropped := changed.filterMap fun
        | .drop line => some line
        | _ => none
      let added := changed.filterMap fun
        | .add line => some line
        | _ => none
      if changed.isEmpty then []
      else
        let letter := if dropped.isEmpty then "a" else if added.isEmpty then "d" else "c"
        let left := if dropped.isEmpty then toString i else rangeText i dropped.length
        let right := if added.isEmpty then toString j else rangeText j added.length
        (left ++ letter ++ right) :: dropped.map ("< " ++ ·) ++
          (if dropped.isEmpty || added.isEmpty then [] else ["---"]) ++ added.map ("> " ++ ·) ++
          showChanges n (i + dropped.length) (j + added.length)
            (steps.drop (kept.length + changed.length))

/-- Shows which lines differ between two files. -/
def diff : Program ExitStatus := do
  let a ← arguments { (Forms.ofLetters "abBqrsuiwN" "U" [("brief", 'q'), ("unified", 'u'),
    ("report-identical-files", 's')]) with fault := 2 }
  match a.operands with
  | [one, two] =>
      let x := ← wholeInput [one] 2 faulty
      let y := ← wholeInput [two] 2 faulty
      if x = y then
        if a.has 's' then say ("Files " ++ one ++ " and " ++ two ++ " are identical\n")
        return .exited 0
      else
        if a.has 'q' then say ("Files " ++ one ++ " and " ++ two ++ " differ\n")
        else
          let mark (text : String) : List String :=
            let (lines, complete) := linesOf text
            if complete then lines
            else lines.dropLast ++ (lines.getLast?.map
              (· ++ "\n\\ No newline at end of file")).toList
          let (xs, ys) := (mark x, mark y)
          let steps := stepsBetween (xs.length + ys.length + 1) xs ys (commonRows ys xs)
          say (joinLines (showChanges (steps.length + 1) 0 0 steps))
        return .exited 1
  | operands => refuseUsage 2 ("missing operand after " ++
      quoted (operands.getLast?.getD (← read).name))

end ClojureBuild.Program
