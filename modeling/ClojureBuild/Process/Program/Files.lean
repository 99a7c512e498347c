import ClojureBuild.Process.Program.Basic
import ClojureBuild.Shell.Arithmetic
/-!
The programs that make, copy, move and remove files.
-/

namespace ClojureBuild.Program

/-! ### Places -/

/-- The place behind a name, where a link at the end may be looked through. -/
def place (follow : Bool) (name : String) : Program (Except OsError Spot) :=
  return (← world).resolve follow ⟨name⟩

def look (follow : Bool) (name : String) : Program (Except OsError (Location × Node)) := do
  let w ← world
  match w.resolve follow ⟨name⟩ with
  | .error e => return .error e
  | .ok (.vacant ..) => return .error .notFound
  | .ok (.taken loc) =>
      match w.node? loc with
      | some node => return .ok (loc, node)
      | none => return .error .notFound

def isDirectory (name : String) : Program Bool := return (← world).isDir ⟨name⟩

/-- Copies and moves are made to a place, or into a directory. -/
inductive Destination where
  | exactly (name : String)
  | within (dir : String)

/-- The sources and the destination that operands mean. -/
def destination (a : Arguments) : Program (List String × Destination) := do
  let extra : Program (List String × Destination) := do
    match a.operands with
    | [] => refuseUsage 1 "missing file operand"
    | [source] => refuseUsage 1 ("missing destination file operand after " ++ quoted source)
    | operands =>
        let target := operands.getLast?.getD ""
        let sources := operands.dropLast
        if a.has 'T' then
          match sources with
          | [source] => return ([source], .exactly target)
          | _ => refuseUsage 1 ("extra operand " ++ quoted target)
        else if ← isDirectory target then return (sources, .within target)
        else
          match sources with
          | [source] => return ([source], .exactly target)
          | _ =>
              let cause := match ← look true target with
                | .ok _ => OsError.notADirectory
                | .error e => e
              refuse 1 ("target " ++ faulty (quoted target) cause)
  match a.value? 't' with
  | none => extra
  | some dir =>
      if a.operands.isEmpty then refuseUsage 1 "missing file operand"
      else
        match ← look true dir with
        | .ok (_, .dir _) => return (a.operands, .within dir)
        | .ok _ => refuse 1 ("target directory " ++ faulty (quoted dir) .notADirectory)
        | .error e => refuse 1 ("target directory " ++ faulty (quoted dir) e)

def Destination.nameFor (d : Destination) (source : String) : String :=
  match d with
  | .exactly name => name
  | .within dir => joinNames dir (baseName source)

/-! ### Copying -/

/-- How files are copied. -/
structure CopyStyle where
  recursive : Bool
  follows : Bool
  keepsTimes : Bool
  neverReplaces : Bool
  shows : Bool

/-- The manner of copying that the options of `cp` ask for. -/
def CopyStyle.ofArguments (a : Arguments) : CopyStyle :=
  let recursive := a.has 'r' || a.has 'R' || a.has 'a'
  { recursive
    follows := if a.has 'L' then true else !(recursive || a.has 'P' || a.has 'd')
    keepsTimes := a.has 'p' || a.has 'a'
    neverReplaces := a.has 'n'
    shows := a.has 'v' }

def showCopy (style : CopyStyle) (source target : String) : Program Unit :=
  if style.shows then say (quoted source ++ " -> " ++ quoted target ++ "\n") else pure ()

def copyContent (style : CopyStyle) (source target : String) (node : Node) : Program Bool := do
  let w ← world
  match w.openForWriting ⟨target⟩, node with
  | .ok spot, .file content time executable =>
      let isNew := match spot with
        | .vacant .. => true
        | .taken _ => false
      let loc := match spot with
        | .vacant parent name => name :: parent
        | .taken loc => loc
      showCopy style source target
      changeWorld fun w =>
        let w := w.store spot content (if isNew || style.keepsTimes then some executable else none)
        if style.keepsTimes then
          match w.node? loc with
          | some copied => w.put loc (copied.touch time)
          | none => w
        else w
      return true
  | .error e, _ =>
      let e := if e = .isADirectory then OsError.notADirectory else e
      warn ("cannot create regular file " ++ faulty (quoted target) e)
      return false
  | _, _ => return true

def copyLink (style : CopyStyle) (source target text : String) : Program Bool := do
  match ← place false target with
  | .error e =>
      warn ("cannot create symbolic link " ++ faulty (quoted target) e)
      return false
  | .ok (.taken loc) =>
      if style.neverReplaces then return true
      else
        showCopy style source target
        changeWorld (·.put loc (.link text))
        return true
  | .ok (.vacant parent name) =>
      showCopy style source target
      changeWorld (·.create (name :: parent) (.link text))
      return true

/-- Copies what a directory holds into another one. -/
def copyInside (copy : String → String → Program Bool) (source target : String)
    (origin loc : Location) : Program Bool := do
  if origin.isSuffixOf loc then
    warn ("cannot copy a directory, " ++ quoted source ++ ", into itself, " ++ quoted target)
    return false
  else
    let names := (← world).childNames origin
    each names fun name => copy (joinNames source name) (joinNames target name)

def copyDirectory (style : CopyStyle) (copy : String → String → Program Bool)
    (source target : String) (origin : Location) : Program Bool := do
  match ← look true target with
  | .ok (loc, .dir _) => copyInside copy source target origin loc
  | .ok _ =>
      warn ("cannot overwrite non-directory " ++ quoted target ++ " with directory " ++
        quoted source)
      return false
  | .error _ =>
      match (← world).makeDir ⟨target⟩ with
      | .error e =>
          warn ("cannot create directory " ++ faulty (quoted target) e)
          return false
      | .ok w =>
          changeWorld fun _ => w
          showCopy style source target
          match ← look true target with
          | .ok (loc, _) => copyInside copy source target origin loc
          | .error _ => return false

def copyFile (style : CopyStyle) (source target : String) (origin : Location) (node : Node) :
    Program Bool := do
  match ← look true target, node with
  | .ok (_, .dir _), _ =>
      warn ("cannot overwrite directory " ++ quoted target ++ " with non-directory")
      return false
  | _, .link text => copyLink style source target text
  | .ok (loc, _), node =>
      if loc = origin then
        warn (quoted source ++ " and " ++ quoted target ++ " are the same file")
        return false
      else if style.neverReplaces then return true
      else copyContent style source target node
  | .error _, node =>
      match ← look false target with
      | .ok _ =>
          warn ("not writing through dangling symlink " ++ quoted target)
          return false
      | .error _ => copyContent style source target node

/-- Copies one thing to a name; the number bounds how deep directories stand in one another. -/
def copyTo (style : CopyStyle) : Nat → Bool → String → String → Program Bool
  | 0, _, _, _ => return false
  | n + 1, top, source, target => do
      match ← look (style.follows && (top || style.recursive)) source with
      | .error e =>
          warn ("cannot stat " ++ faulty (quoted source) e)
          return false
      | .ok (origin, .dir _) =>
          if style.recursive then copyDirectory style (copyTo style n false) source target origin
          else
            warn ("-r not specified; omitting directory " ++ quoted source)
            return false
      | .ok (origin, node) => copyFile style source target origin node

/-- How deep trees may be that programs go through. -/
def treeDepth : Nat := 2000

def copyForms : Forms :=
  .ofLetters "abdfHilLnPpRrsTuvxZ" "tS"
    [("recursive", 'r'), ("archive", 'a'), ("force", 'f'), ("verbose", 'v'), ("no-clobber", 'n'),
      ("preserve", 'p'), ("target-directory", 't'), ("no-target-directory", 'T'), ("update", 'u'),
      ("dereference", 'L'), ("no-dereference", 'P'), ("parents", 'Z')]

/-- Copies files, and with `-r` trees, to a name or into a directory. -/
def cp : Program ExitStatus := do
  let a ← arguments copyForms
  let style := CopyStyle.ofArguments a
  let (sources, d) ← destination a
  if style.neverReplaces then
    warn ("warning: behavior of -n is non-portable and may change in future; " ++
      "use --update=none instead")
  let fine ← each sources fun source => copyTo style treeDepth true source (d.nameFor source)
  return statusOf fine 1

/-! ### Moving -/

def moveTo (a : Arguments) (source target : String) : Program Bool := do
  match ← look false source with
  | .error e =>
      warn ("cannot stat " ++ faulty (quoted source) e)
      return false
  | .ok (origin, node) =>
      let fail (text : String) : Program Bool := do
        warn text
        return false
      let go (loc : Location) : Program Bool := do
        changeWorld (·.moveTree origin loc)
        if a.has 'v' then say ("renamed " ++ quoted source ++ " -> " ++ quoted target ++ "\n")
        return true
      match ← place false target with
      | .error e => fail ("cannot move " ++ quoted source ++ " to " ++ faulty (quoted target) e)
      | .ok (.vacant parent name) =>
          if target.toList.getLast? = some '/' && !node.isDir then
            fail ("cannot move " ++ quoted source ++ " to " ++
              faulty (quoted target) .notADirectory)
          else if origin.isSuffixOf (name :: parent) then
            fail ("cannot move " ++ quoted source ++ " to a subdirectory of itself, " ++
              quoted target)
          else go (name :: parent)
      | .ok (.taken loc) =>
          let w ← world
          if a.has 'n' then return true
          else if loc = origin then
            fail (quoted source ++ " and " ++ quoted target ++ " are the same file")
          else if node.isDir && origin.isSuffixOf loc then
            fail ("cannot move " ++ quoted source ++ " to a subdirectory of itself, " ++
              quoted target)
          else if node.isDir && !w.isDirAt loc then
            fail ("cannot overwrite non-directory " ++ quoted target ++ " with directory " ++
              quoted source)
          else if !node.isDir && w.isDirAt loc then
            fail ("cannot overwrite directory " ++ quoted target ++ " with non-directory")
          else if !(w.childNames loc).isEmpty then
            fail ("cannot overwrite " ++ faulty (quoted target) .notEmpty)
          else go loc

/-- Moves files and trees to a name or into a directory. -/
def mv : Program ExitStatus := do
  let a ← arguments (.ofLetters "bfinTuvZ" "tS"
    [("force", 'f'), ("verbose", 'v'), ("no-clobber", 'n'), ("target-directory", 't'),
      ("no-target-directory", 'T'), ("update", 'u')])
  let (sources, d) ← destination a
  let fine ← each sources fun source => do
    let target := match d, (← look false (d.nameFor source)) with
      | .within _, .ok (loc, _) => (d.nameFor source, some loc)
      | d, _ => (d.nameFor source, none)
    match target.2, ← look false source with
    | some loc, .ok (origin, .dir _) =>
        if loc = origin then
          warn ("cannot move " ++ quoted source ++ " to a subdirectory of itself, " ++
            quoted target.1)
          return false
        else moveTo a source target.1
    | _, _ => moveTo a source target.1
  return statusOf fine 1

/-! ### Links -/

/-- Makes a link; one that is not symbolic is a copy that stands by itself. -/
def linkTo (a : Arguments) (source target : String) : Program Bool := do
  let kind := if a.has 's' then "symbolic link" else "hard link"
  let fail (e : OsError) : Program Bool := do
    let shown := if a.has 's' then faulty (quoted target) e
      else quoted target ++ " => " ++ faulty (quoted source) e
    warn ("failed to create " ++ kind ++ " " ++ shown)
    return false
  let make (spot : Spot) (node : Node) : Program Bool := do
    changeWorld fun w => match spot with
      | .taken loc => w.put loc node
      | .vacant parent name => w.create (name :: parent) node
    if a.has 'v' then
      say (quoted target ++ (if a.has 's' then " -> " else " => ") ++ quoted source ++ "\n")
    return true
  let put (node : Node) : Program Bool := do
    match ← place false target with
    | .error e => fail e
    | .ok (.taken loc) =>
        if (← world).isDirAt loc then
          if a.has 'f' then
            warn (quoted target ++ ": cannot overwrite directory")
            return false
          else fail .alreadyExists
        else if a.has 'f' then make (.taken loc) node
        else fail .alreadyExists
    | .ok spot => make spot node
  if a.has 's' then
    if source.isEmpty then fail .notFound else put (.link source)
  else
    match ← look false source with
    | .error e =>
        warn ("failed to access " ++ faulty (quoted source) e)
        return false
    | .ok (_, .dir _) =>
        warn (source ++ ": hard link not allowed for directory")
        return false
    | .ok (_, node) => put node

/-- Makes links, and with `-s` symbolic ones. -/
def ln : Program ExitStatus := do
  let a ← arguments (.ofLetters "bdFfiLnPrsTv" "tS"
    [("symbolic", 's'), ("force", 'f'), ("no-dereference", 'n'), ("verbose", 'v'),
      ("target-directory", 't'), ("no-target-directory", 'T')])
  let intoDir (name : String) : Program Bool := do
    if a.has 'T' then return false
    else if a.has 'n' then
      match ← look false name with
      | .ok (_, .dir _) => return true
      | _ => return false
    else isDirectory name
  let fine ← match a.value? 't', a.operands with
    | some dir, sources =>
        each sources fun source => linkTo a source (joinNames dir (baseName source))
    | none, [] => refuseUsage 1 "missing file operand"
    | none, [source] => linkTo a source (joinNames "." (baseName source))
    | none, [source, target] => do
        if ← intoDir target then linkTo a source (joinNames target (baseName source))
        else linkTo a source target
    | none, operands => do
        let target := operands.getLast?.getD ""
        if ← intoDir target then
          each operands.dropLast fun source => linkTo a source (joinNames target (baseName source))
        else
          let cause := match ← look true target with
            | .ok _ => OsError.notADirectory
            | .error e => e
          refuse 1 ("target " ++ faulty (quoted target) cause)
  return statusOf fine 1

/-! ### Removing -/

def removeOne (a : Arguments) (name : String) : Program Bool := do
  let recursive := a.has 'r' || a.has 'R'
  let fail (e : OsError) : Program Bool := do
    warn ("cannot remove " ++ faulty (quoted name) e)
    return false
  let base := baseName name
  if recursive && (base = "." || base = "..") then
    warn ("refusing to remove '.' or '..' directory: skipping " ++ quoted name)
    return false
  else
    match ← look false name with
    | .error e =>
        if a.has 'f' && (e = .notFound || e = .notADirectory) then return true else fail e
    | .ok ([], _) =>
        warn "it is dangerous to operate recursively on '/'"
        warn "use --no-preserve-root to override this failsafe"
        return false
    | .ok (loc, node) =>
        let empty := ((← world).childNames loc).isEmpty
        if node.isDir && !recursive && !a.has 'd' then fail .isADirectory
        else if node.isDir && !recursive && !empty then fail .notEmpty
        else
          if a.has 'v' then
            say ("removed " ++ (if node.isDir then "directory " else "") ++ quoted name ++ "\n")
          changeWorld (·.removeTree loc)
          return true

def rm : Program ExitStatus := do
  let a ← arguments (.ofLetters "dfirRIv" ""
    [("recursive", 'r'), ("force", 'f'), ("dir", 'd'), ("verbose", 'v')])
  if a.operands.isEmpty && !a.has 'f' then refuseUsage 1 "missing operand"
  return statusOf (← each a.operands (removeOne a)) 1

def removeDirectory (a : Arguments) (name : String) : Program Bool := do
  let fail (e : OsError) : Program Bool := do
    warn ("failed to remove " ++ faulty (quoted name) e)
    return false
  match ← look false name with
  | .error e => fail e
  | .ok (loc, node) =>
      if !node.isDir then fail .notADirectory
      else if !((← world).childNames loc).isEmpty then
        if a.has 'q' then return true else fail .notEmpty
      else
        if a.has 'v' then say ("rmdir: removing directory, " ++ quoted name ++ "\n")
        changeWorld (·.removeTree loc)
        return true

/-- A name, and the directories above it as far as the name goes. -/
def upwards : Nat → String → List String
  | 0, _ => []
  | n + 1, name =>
      let up := directoryName name
      if up = "." || up = "/" || up = name then [name] else name :: upwards n up

/-- Removes empty directories, and with `-p` those around them that become empty. -/
def rmdir : Program ExitStatus := do
  let a ← arguments (.ofLetters "pvq" ""
    [("parents", 'p'), ("verbose", 'v'), ("ignore-fail-on-non-empty", 'q')])
  if a.operands.isEmpty then refuseUsage 1 "missing operand"
  let fine ← each a.operands fun name => do
    let names := if a.has 'p' then upwards name.length name else [name]
    names.foldlM (fun fine name => do
      if fine then removeDirectory a name else return false) true
  return statusOf fine 1

/-! ### Making -/

def isMode (text : String) : Bool :=
  let chars := text.toList
  if chars.all Char.isDigit then !text.isEmpty && chars.all (fun c => c < '8')
  else (Text.splitString ',' text).all fun clause =>
    let operation := clause.toList.dropWhile fun c => "ugoa".toList.contains c
    match operation with
    | c :: rest => "+-=".toList.contains c &&
        rest.all fun d => "rwxXstugo+-=".toList.contains d
    | [] => false

/-- Makes a directory and what is missing above it. -/
def makeWithParents (a : Arguments) (name : String) : Program Bool := do
  let chain := (upwards name.length name).reverse
  let chain := if name.isEmpty then [""] else chain
  chain.foldlM (fun fine dir => do
    if !fine then return false
    else
      match (← world).makeDir ⟨dir⟩ with
      | .ok w =>
          changeWorld fun _ => w
          if a.has 'v' then
            say ((← read).name ++ ": created directory " ++ quoted dir ++ "\n")
          return true
      | .error e =>
          if e = .alreadyExists && (← isDirectory dir) then return true
          else
            let e := if e = .alreadyExists && dir ≠ name then OsError.notADirectory else e
            warn ("cannot create directory " ++ faulty (quoted dir) e)
            return false) true

/-- Makes directories, and with `-p` those that lead to them. -/
def mkdir : Program ExitStatus := do
  let a ← arguments (.ofLetters "pvZ" "m"
    [("parents", 'p'), ("verbose", 'v'), ("mode", 'm')])
  if a.operands.isEmpty then refuseUsage 1 "missing operand"
  match a.value? 'm' with
  | some mode => unless isMode mode do refuse 1 ("invalid mode " ++ quoted mode)
  | none => pure ()
  let fine ← each a.operands fun name => do
    if a.has 'p' then makeWithParents a name
    else
      match (← world).makeDir ⟨name⟩ with
      | .ok w =>
          changeWorld fun _ => w
          if a.has 'v' then
            say ((← read).name ++ ": created directory " ++ quoted name ++ "\n")
          return true
      | .error e =>
          warn ("cannot create directory " ++ faulty (quoted name) e)
          return false
  return statusOf fine 1

/-- The days from the first of January 1970 to a date. -/
def daysTo (year month day : Int) : Int :=
  let y := if month ≤ 2 then year - 1 else year
  let era := y / 400
  let yearOfEra := y - era * 400
  let m := (month + 9) % 12
  let dayOfYear := (153 * m + 2) / 5 + day - 1
  era * 146097 + yearOfEra * 365 + yearOfEra / 4 - yearOfEra / 100 + dayOfYear - 719468

def secondsOf (year month day hour minute second : Nat) : Int :=
  daysTo year month day * 86400 + hour * 3600 + minute * 60 + second

def numbersIn (text : String) : List Nat :=
  let pieces := (text.toList.map fun c => if c.isDigit then c else ' ')
  ((Text.splitString ' ' (String.ofList pieces)).filter (· != "")).filterMap String.toNat?

def timeOf? (now : Int) (text : String) : Option Int :=
  match text.toList with
  | '@' :: digits => (String.ofList digits).toInt?.map (· * World.second)
  | _ =>
      if text = "now" then some now
      else
        match numbersIn text, text.toList.take 4 |>.all Char.isDigit with
        | [y, m, d], true => some (secondsOf y m d 0 0 0 * World.second)
        | [y, m, d, h, min], true => some (secondsOf y m d h min 0 * World.second)
        | y :: m :: d :: h :: min :: s :: _, true => some (secondsOf y m d h min s * World.second)
        | _, _ => none

def stampOf? (text : String) : Option Int :=
  let (digits, behind) := Text.breakAt '.' text.toList
  let second := ((behind.map String.ofList).bind String.toNat?).getD 0
  let pair (k : Nat) : Nat := ((String.ofList ((digits.drop k).take 2)).toNat?).getD 0
  if !digits.all Char.isDigit then none
  else if digits.length = 12 then
    some (secondsOf (pair 0 * 100 + pair 2) (pair 4) (pair 6) (pair 8) (pair 10) second *
      World.second)
  else none

/-- Sets the time of files to now or to that of another file, and makes those that are missing. -/
def touch : Program ExitStatus := do
  let a ← arguments (.ofLetters "acfhm" "drt"
    [("no-create", 'c'), ("date", 'd'), ("reference", 'r')])
  let now := (← world).clock
  let time ← match a.value? 'd', a.value? 't', a.value? 'r' with
    | some text, _, _ =>
        match timeOf? now text with
        | some t => pure t
        | none => refuse 1 ("invalid date format " ++ quoted text)
    | none, some text, _ =>
        match stampOf? text with
        | some t => pure t
        | none => refuse 1 ("invalid date format " ++ quoted text)
    | none, none, some name =>
        match ← look true name with
        | .ok (_, node) => pure node.modified
        | .error e => refuse 1 ("failed to get attributes of " ++ faulty (quoted name) e)
    | none, none, none => pure now
  if a.operands.isEmpty then refuseUsage 1 "missing file operand"
  let fine ← each a.operands fun name => do
    let set (loc : Location) : Program Bool := do
      unless a.has 'a' && !a.has 'm' do
        changeWorld fun w => match w.node? loc with
          | some node => w.put loc (node.touch time)
          | none => w
      return true
    match ← look true name with
    | .ok (loc, _) => set loc
    | .error _ =>
        if a.has 'c' then return true
        else if name.toList.getLast? = some '/' then
          warn ("setting times of " ++ faulty (quoted name) .notFound)
          return false
        else
          match (← world).openForWriting ⟨name⟩ with
          | .ok spot =>
              changeWorld fun w => w.store spot ByteArray.empty none
              match ← look true name with
              | .ok (loc, _) => set loc
              | .error _ => return true
          | .error e =>
              warn ("cannot touch " ++ faulty (quoted name) e)
              return false
  return statusOf fine 1

/-- Whether a file can be run after its mode was changed. -/
def runnableAfter (mode : String) (isDir runnable : Bool) : Bool :=
  if mode.toList.all Char.isDigit then
    mode.toList.reverse.take 3 |>.any fun c => (c.toNat - 48) % 2 = 1
  else (Text.splitString ',' mode).foldl (fun runnable clause =>
    let operation := clause.toList.dropWhile fun c => "ugoa".toList.contains c
    let named := operation.tail.any fun c => c = 'x' || (c = 'X' && (runnable || isDir))
    match operation.head? with
    | some '+' => runnable || named
    | some '-' => runnable && !named
    | _ => named) runnable

/-- The options of `chmod`, where a mode may begin with a dash. -/
def splitMode (args : List String) : List String × List String :=
  let isDashMode (arg : String) : Bool :=
    match arg.toList with
    | '-' :: c :: rest =>
        "rwxXst".toList.contains c && rest.all fun d => "rwxXst,+-=ugoa".toList.contains d
    | _ => false
  match args.find? isDashMode with
  | some mode => ([mode], args.erase mode)
  | none => ([], args)

/-- Changes the rights of files; only whether one can be run is kept. -/
def chmod : Program ExitStatus := do
  let (dashed, args) := splitMode (← read).args
  let a ← readArguments (.ofLetters "cfRv" "" [("recursive", 'R'), ("verbose", 'v'),
    ("quiet", 'f'), ("silent", 'f'), ("changes", 'c')]) args
  let operands := dashed ++ a.operands
  match operands with
  | [] => refuseUsage 1 "missing operand"
  | [mode] => refuseUsage 1 ("missing operand after " ++ quoted mode)
  | mode :: names =>
      unless isMode mode || dashed ≠ [] do refuseUsage 1 ("invalid mode: " ++ quoted mode)
      let change (loc : Location) : Program Unit :=
        changeWorld fun w => match w.node? loc with
          | some (.file content time runnable) =>
              w.put loc (.file content time (runnableAfter mode false runnable))
          | _ => w
      let fine ← each names fun name => do
        match ← look true name with
        | .error e =>
            unless a.has 'f' do warn ("cannot access " ++ faulty (quoted name) e)
            return false
        | .ok (loc, _) =>
            if a.has 'R' then
              ((← world).entriesBelow loc).forM fun (names, _) => change (names ++ loc)
            else change loc
            return true
      return statusOf fine 1

/-! ### Names -/

/-- Shows the last part of names, without a suffix if one is given. -/
def basename : Program ExitStatus := do
  let a ← arguments { (Forms.ofLetters "az" "s" [("multiple", 'a'), ("suffix", 's'),
    ("zero", 'z')]) with leading := true }
  let stripped (name suffix : String) : String :=
    let base := baseName name
    if suffix ≠ base && suffix.toList.isSuffixOf base.toList then
      String.ofList (base.toList.take (base.length - suffix.length))
    else base
  match a.operands, a.has 'a' || a.has 's' with
  | [], _ => refuseUsage 1 "missing operand"
  | names, true =>
      let suffix := (a.value? 's').getD ""
      say (joinLines (names.map fun name => stripped name suffix))
  | [name], false => say (baseName name ++ "\n")
  | [name, suffix], false => say (stripped name suffix ++ "\n")
  | _ :: _ :: extra :: _, false => refuseUsage 1 ("extra operand " ++ quoted extra)
  return .exited 0

/-- Shows names without their last part. -/
def dirname : Program ExitStatus := do
  let a ← arguments (.ofLetters "z" "" [("zero", 'z')])
  if a.operands.isEmpty then refuseUsage 1 "missing operand"
  say (joinLines (a.operands.map directoryName))
  return .exited 0

/-- The location that a name stands for when some of it is missing: all of it but the last piece has
to be there, or any number of pieces may be missing. -/
def realName (lenient : Bool) (name : String) : Program (Except OsError String) := do
  let w ← world
  match w.resolve true ⟨name⟩ with
  | .ok (.taken loc) => return .ok (World.textOf loc)
  | .ok (.vacant parent leaf) => return .ok (World.textOf (leaf :: parent))
  | .error e =>
      if !lenient || name.isEmpty then return .error e
      else
        let start := if (Path.mk name).isAbsolute then [] else w.cwd
        let pieces := (Text.splitString '/' name).filter
          fun piece => piece ≠ "" && piece ≠ "."
        let loc := pieces.foldl (fun (loc : Location) piece =>
          if piece = ".." then loc.tail else piece :: loc) start
        return .ok (World.textOf loc)

def readlink : Program ExitStatus := do
  let a ← arguments (.ofLetters "femnqsvz" "" [("canonicalize", 'f'),
    ("canonicalize-existing", 'e'), ("canonicalize-missing", 'm'), ("no-newline", 'n'),
    ("verbose", 'v')])
  if a.operands.isEmpty then refuseUsage 1 "missing operand"
  let fine ← each a.operands fun name => do
    let found : Except OsError String ←
      if a.has 'm' then realName true name
      else if a.has 'e' then do
        match ← look true name with
        | .ok (loc, _) => pure (.ok (World.textOf loc))
        | .error e => pure (.error e)
      else if a.has 'f' then realName false name
      else do
        match ← look false name with
        | .ok (_, .link target) => pure (.ok target)
        | .ok _ => pure (.error .invalidArgument)
        | .error e => pure (.error e)
    match found with
    | .ok text =>
        say (text ++ (if a.has 'n' then "" else "\n"))
        return true
    | .error e =>
        if a.has 'v' then warn (faulty name e)
        return false
  return statusOf fine 1

/-- Shows the places that names lead to, without links. -/
def realpath : Program ExitStatus := do
  let a ← arguments (.ofLetters "emqszLP" "" [("canonicalize-existing", 'e'),
    ("canonicalize-missing", 'm'), ("quiet", 'q'), ("no-symlinks", 's'), ("strip", 's')])
  if a.operands.isEmpty then refuseUsage 1 "missing operand"
  let fine ← each a.operands fun name => do
    let found : Except OsError String ←
      if a.has 'e' then do
        match ← look true name with
        | .ok (loc, _) => pure (.ok (World.textOf loc))
        | .error e => pure (.error e)
      else if a.has 's' then do
        let w ← world
        let parent ← realName (a.has 'm') (directoryName name)
        pure (if name = "/" then .ok "/" else match parent with
          | .ok dir => .ok (joinNames dir (baseName name))
          | .error e => if w.pathExists ⟨name⟩ then .ok name else .error e)
      else realName (a.has 'm') name
    match found with
    | .ok text =>
        say (text ++ "\n")
        return true
    | .error e =>
        unless a.has 'q' do warn (faulty name e)
        return false
  return statusOf fine 1

def pwd : Program ExitStatus := do
  let a ← arguments (.ofLetters "LP" "" [("logical", 'L'), ("physical", 'P')])
  unless a.operands.isEmpty do warn "ignoring non-option arguments"
  let physical := World.textOf (← world).cwd
  let logical := (valueIn? "PWD" (← read).environment).getD physical
  say ((if a.lastOf? "LP" = some 'L' then logical else physical) ++ "\n")
  return .exited 0

/-! ### Others -/

def unlink : Program ExitStatus := do
  let a ← arguments (.ofLetters "" "" [])
  match a.operands with
  | [] => refuseUsage 1 "missing operand"
  | [name] =>
      match ← look false name with
      | .ok (_, .dir _) => refuse 1 ("cannot unlink " ++ faulty (quoted name) .isADirectory)
      | .ok (loc, _) =>
          changeWorld (·.removeTree loc)
          return .exited 0
      | .error e => refuse 1 ("cannot unlink " ++ faulty (quoted name) e)
  | _ :: extra :: _ => refuseUsage 1 ("extra operand " ++ quoted extra)

/-- The end of a name that stands for a random one. -/
def filledTemplate (template : String) : String :=
  let xs := template.toList.reverse.takeWhile (· == 'X')
  let letters := "kQ7bTz2mWd9R".toList
  String.ofList (template.toList.take (template.length - xs.length) ++
    (List.range xs.length).map fun i => letters[i % letters.length]?.getD 'a')

/-- Makes a new file or directory whose name follows a template. -/
def mktemp : Program ExitStatus := do
  let a ← arguments (.ofLetters "dqtu" "p" [("directory", 'd'), ("dry-run", 'u'), ("quiet", 'q'),
    ("tmpdir", 'p')])
  let template := a.operands.headD "/tmp/tmp.XXXXXXXXXX"
  let template := match a.value? 'p' with
    | some dir => joinNames dir (a.operands.headD "tmp.XXXXXXXXXX")
    | none => template
  if (template.toList.reverse.takeWhile (· == 'X')).length < 3 then
    refuse 1 ("too few X's in template " ++ quoted template)
  let name := filledTemplate template
  let w ← world
  let made : Except OsError World :=
    if a.has 'u' then .ok w
    else if a.has 'd' then w.makeDir ⟨name⟩
    else w.writeFile ⟨name⟩ ByteArray.empty
  match made with
  | .ok w =>
      changeWorld fun _ => w
      say (name ++ "\n")
      return .exited 0
  | .error e =>
      refuse 1 ("failed to create " ++ (if a.has 'd' then "directory" else "file") ++
        " via template " ++ faulty (quoted template) e)

/-- Copies files with rights of their own, or makes directories. -/
def install : Program ExitStatus := do
  let a ← arguments (.ofLetters "bcCdDpsTv" "gmotS" [("directory", 'd'), ("mode", 'm'),
    ("target-directory", 't'), ("verbose", 'v')])
  if a.has 'd' then
    if a.operands.isEmpty then refuseUsage 1 "missing file operand"
    return statusOf (← each a.operands (makeWithParents { a with options := [] })) 1
  else
    let (sources, d) ← destination a
    let style : CopyStyle := ⟨false, true, a.has 'p', false, a.has 'v'⟩
    let fine ← each sources fun source => do
      let target := d.nameFor source
      match ← look true source with
      | .error e =>
          warn ("cannot stat " ++ faulty (quoted source) e)
          return false
      | .ok (_, .dir _) =>
          warn ("omitting directory " ++ quoted source)
          return false
      | .ok _ =>
          if a.has 'D' then
            let _ ← makeWithParents { a with options := [] } (directoryName target)
          if ← copyTo style treeDepth true source target then
            match ← look true target with
            | .ok (loc, .file content time _) =>
                let runnable := runnableAfter ((a.value? 'm').getD "755") false false
                changeWorld (·.put loc (.file content time runnable))
            | _ => pure ()
            return true
          else return false
    return statusOf fine 1

def truncate : Program ExitStatus := do
  let a ← arguments (.ofLetters "co" "rs" [("size", 's'), ("no-create", 'c'), ("reference", 'r')])
  match (a.value? 's').bind String.toNat? with
  | none => refuseUsage 1 "you must specify either '--size' or '--reference'"
  | some size =>
      if a.operands.isEmpty then refuseUsage 1 "missing file operand"
      let fine ← each a.operands fun name => do
        let w ← world
        match w.openForWriting ⟨name⟩ with
        | .error e =>
            warn ("cannot open " ++ quoted name ++ " for writing: " ++ e.reason)
            return false
        | .ok spot =>
            let old := match w.readFile ⟨name⟩ with
              | .ok content => content.extract 0 size
              | .error _ => ByteArray.empty
            let gap : ByteArray := ⟨Array.replicate (size - old.size) 0⟩
            changeWorld fun w => w.store spot (old ++ gap) none
            return true
      return statusOf fine 1

end ClojureBuild.Program
