import ClojureBuild.Process.Program.Basic
import ClojureBuild.Shell.Arithmetic
/-!
The programs that show, count, choose and order lines.
-/

namespace ClojureBuild.Program

/-- The operands, or the standard input where there are none. -/
def sources (a : Arguments) : List String := if a.operands.isEmpty then ["-"] else a.operands

/-- Does something with the content of each source; whether all went well. -/
def withSources (names : List String) (missing : String → OsError → String)
    (act : String → String → Program Unit) : Program Bool :=
  each names fun name => do
    match ← content name with
    | .ok text =>
        act name text
        return true
    | .error e =>
        warn (missing name e)
        return false

/-- The content of all sources together; what cannot be read ends the program. -/
def wholeInput (names : List String) (status : Nat) (missing : String → OsError → String) :
    Program String := do
  let texts ← names.mapM fun name => do
    match ← content name with
    | .ok text => return text
    | .error e => refuse status (missing name e)
  return String.join texts

def padLeft (width : Nat) (text : String) : String :=
  String.ofList (List.replicate (width - text.length) ' ') ++ text

def wholeLines (text : String) : List String :=
  let (lines, complete) := linesOf text
  if complete then lines.map (· ++ "\n")
  else lines.dropLast.map (· ++ "\n") ++ (lines.getLast?).toList

/-! ### Showing -/

def visibleChar (tabs : Bool) (c : Char) : List Char :=
  let n := c.toNat
  let low (n : Nat) : List Char :=
    if n < 32 then ['^', Char.ofNat (n + 64)]
    else if n = 127 then ['^', '?'] else [Char.ofNat n]
  if c = '\n' || (c = '\t' && !tabs) then [c]
  else if n < 128 then low n
  else 'M' :: '-' :: low (n - 128)

/-- What `cat` has shown: the number of lines, whether a line is under way, and how many lines were
empty just now. -/
structure CatState where
  number : Nat
  inLine : Bool
  empty : Nat

def catLine (a : Arguments) (line : String) (s : CatState) : String × CatState :=
  let isEmpty := line = "\n" && !s.inLine
  let empty := if isEmpty then s.empty + 1 else 0
  if a.has 's' && 1 < empty then ("", { s with empty })
  else
    let all := a.has 'A'
    let visible := all || a.has 'v' || a.has 'e' || a.has 't'
    let ends := all || a.has 'E' || a.has 'e'
    let tabs := all || a.has 'T' || a.has 't'
    let numbered := !s.inLine && ((a.has 'n' && !a.has 'b') || (a.has 'b' && !isEmpty))
    let complete := line.toList.getLast? = some '\n'
    let body := (if complete then line.toList.dropLast else line.toList).flatMap fun c =>
      if c = '\t' && tabs then ['^', 'I'] else if visible then visibleChar false c else [c]
    let number := if numbered then s.number + 1 else s.number
    ((if numbered then padLeft 6 (toString number) ++ "\t" else "") ++ String.ofList body ++
      (if complete then (if ends then "$\n" else "\n") else ""), ⟨number, !complete, empty⟩)

def cat : Program ExitStatus := do
  let a ← arguments (.ofLetters "AbeEnstTuv" "" [("show-all", 'A'), ("number-nonblank", 'b'),
    ("show-ends", 'E'), ("number", 'n'), ("squeeze-blank", 's'), ("show-tabs", 'T'),
    ("show-nonprinting", 'v')])
  let plain := a.options.all (·.1 == 'u')
  let call ← read
  let target (m : Machine) : Option Location :=
    match (call.descriptors.lookup 1).bind (m.files[·]?) with
    | some file => (match file.target with
        | .file loc => some loc
        | _ => none)
    | none => none
  let step (sofar : CatState × Bool) (name : String) : Program (CatState × Bool) := do
    let (s, fine) := sofar
    let m ← get
    let ownOutput := match m.world.stat ⟨name⟩, target m with
      | .ok (loc, .file bytes ..), some out => loc = out && 0 < bytes.size
      | _, _ => false
    if name ≠ "-" && ownOutput then
      warn (name ++ ": input file is output file")
      return (s, false)
    else
      match ← content name with
      | .error e =>
          warn (faulty name e)
          return (s, false)
      | .ok text =>
          if plain then
            say text
            return (s, fine)
          else
            let (shown, s) := (wholeLines text).foldl (fun (acc : List String × CatState) line =>
              let (text, s) := catLine a line acc.2
              (text :: acc.1, s)) ([], s)
            say (String.join shown.reverse)
            return (s, fine)
  let (_, fine) ← (sources a).foldlM step (⟨0, false, 0⟩, true)
  return statusOf fine 1

/-- The arguments of `head` and `tail` with a number at the front written as an option. -/
def withCount (plus : Bool) (args : List String) : List String :=
  match args with
  | first :: rest =>
      match first.toList with
      | '-' :: c :: digits =>
          if c.isDigit then
            let number := (c :: digits).takeWhile Char.isDigit
            let letters := (c :: digits).drop number.length
            let option := if letters.contains 'c' then "-c" else "-n"
            option :: String.ofList number :: rest
          else args
      | '+' :: c :: digits =>
          if plus && (c :: digits).all Char.isDigit then "-n" :: first :: rest else args
      | _ => args
  | [] => []

/-- A count with its sign. -/
structure Count where
  sign : Option Char
  size : Nat

/-- The factor that the end of a count stands for. -/
def countUnit? (text : List Char) : Option Nat :=
  match String.ofList text with
  | "" => some 1
  | "b" => some 512
  | "k" | "K" | "KiB" => some 1024
  | "kB" | "KB" => some 1000
  | "M" | "MiB" => some 1048576
  | "MB" => some 1000000
  | _ => none

/-- The count that an argument of `head` or `tail` stands for. -/
def count? (text : String) : Option Count :=
  let (sign, body) := match text.toList with
    | '-' :: rest => (some '-', rest)
    | '+' :: rest => (some '+', rest)
    | rest => (none, rest)
  let digits := body.takeWhile Char.isDigit
  match (String.ofList digits).toNat?, countUnit? (body.drop digits.length) with
  | some n, some unit => some ⟨sign, n * unit⟩
  | _, _ => none

/-- How much is shown: of lines or of characters. -/
def readCount (a : Arguments) : Program (Bool × Count) := do
  let (bytes, text) := match a.lastOf? "nc" with
    | some 'c' => (true, (a.value? 'c').getD "")
    | some _ => (false, (a.value? 'n').getD "")
    | none => (false, "10")
  match count? text with
  | some c => return (bytes, c)
  | none => refuse 1 ("invalid number of " ++ (if bytes then "bytes" else "lines") ++ ": " ++
      quoted text)

def partOf {α : Type} (front : Bool) (c : Count) (items : List α) : List α :=
  if front then
    (if c.sign = some '-' then items.take (items.length - c.size) else items.take c.size)
  else if c.sign = some '+' then items.drop (c.size - 1)
  else items.drop (items.length - c.size)

def showParts (front : Bool) (a : Arguments) : Program ExitStatus := do
  let (bytes, c) ← readCount a
  let names := sources a
  let headers := a.has 'v' || (1 < names.length && !a.has 'q')
  let step (sofar : Bool × Bool) (name : String) : Program (Bool × Bool) := do
    let (first, fine) := sofar
    match ← content name with
    | .error e =>
        if cannotOpen e then warn ("cannot open " ++ quoted name ++ " for reading: " ++ e.reason)
        else warn ("error reading " ++ faulty (quoted name) e)
        return (first, false)
    | .ok text =>
        if headers then
          let shown := if name = "-" then "standard input" else name
          say ((if first then "" else "\n") ++ "==> " ++ shown ++ " <==\n")
        let part := if bytes then String.ofList (partOf front c text.toList)
          else String.join (partOf front c (wholeLines text))
        say part
        -- What was read too much of a file can be read again by those who share it.
        if front && name = "-" then
          match (← read).descriptors.lookup 0 with
          | some number => modify fun m => match m.files[number]? with
              | some file => (match file.target with
                  | .file _ => { m with files := m.files.setIfInBounds number { file with
                      offset := file.offset - (text.length - part.length) } }
                  | _ => m)
              | none => m
          | none => pure ()
        return (false, fine)
  let (_, fine) ← names.foldlM step (true, true)
  return statusOf fine 1

def partForms : Forms :=
  .ofLetters "fFqvz" "ncs" [("lines", 'n'), ("bytes", 'c'), ("quiet", 'q'), ("silent", 'q'),
    ("verbose", 'v')]

/-- Shows the first lines or bytes of files. -/
def head : Program ExitStatus := do
  showParts true (← readArguments partForms (withCount false (← read).args))

/-- Shows the last lines or bytes of files. -/
def tail : Program ExitStatus := do
  showParts false (← readArguments partForms (withCount true (← read).args))

/-! ### Counting -/

def wordCount (text : List Char) : Nat :=
  (text.foldl (fun (acc : Nat × Bool) c =>
    if Shell.Arithmetic.isSpace c then (acc.1, false)
    else ((if acc.2 then acc.1 else acc.1 + 1), true)) (0, false)).1

/-- Whether a source is a file whose size is known, and that size. -/
def knownSize? (name : String) : Program (Option Nat) := do
  let m ← get
  let sizeAt (loc : Location) : Option Nat := match m.world.node? loc with
    | some (.file bytes ..) => some bytes.size
    | _ => none
  if name = "-" then
    match ((← read).descriptors.lookup 0).bind (m.files[·]?) with
    | some file => return (match file.target with
        | .file loc => sizeAt loc
        | _ => none)
    | none => return none
  else
    match m.world.stat ⟨name⟩ with
    | .ok (loc, _) => return sizeAt loc
    | .error _ => return none

/-- Counts lines, words, characters and bytes. -/
def wc : Program ExitStatus := do
  let a ← arguments (.ofLetters "lwcmL" "" [("lines", 'l'), ("words", 'w'), ("bytes", 'c'),
    ("chars", 'm'), ("max-line-length", 'L')])
  let all := !("lwcmL".toList.any a.has)
  let wanted (c : Char) : Bool := a.has c || (all && "lwc".toList.contains c)
  let names := sources a
  let kinds := ("lwmcL".toList.filter wanted).length
  let sizes ← names.filterMapM fun name => do
    match ← look name with
    | true => return some (← knownSize? name)
    | false => return none
  let total := (sizes.filterMap id).foldl (· + ·) 0
  let width := if names.length = 1 && kinds = 1 then 1
    else max (toString total).length (if sizes.any Option.isNone then 7 else 1)
  let counts (text : String) : List Nat :=
    let chars := text.toList
    let lines := (linesOf text).1
    (if wanted 'l' then [chars.count '\n'] else []) ++
      (if wanted 'w' then [wordCount chars] else []) ++
      (if wanted 'm' then [text.length] else []) ++ (if wanted 'c' then [text.length] else []) ++
      (if wanted 'L' then [(lines.map String.length).foldl max 0] else [])
  let row (ns : List Nat) (name : String) : String :=
    String.intercalate " " (ns.map fun n => padLeft width (toString n)) ++
      (if name.isEmpty then "" else " " ++ name) ++ "\n"
  let step (sofar : List Nat × Bool) (name : String) : Program (List Nat × Bool) := do
    let (sums, fine) := sofar
    let shown := if a.operands.isEmpty then "" else name
    let (text, good) ← match ← content name with
      | .ok text => pure (some text, true)
      | .error e => do
          warn (faulty name e)
          pure (if cannotOpen e then none else some "", false)
    match text with
    | none => return (sums, false)
    | some text =>
        let ns := counts text
        say (row ns shown)
        return (sums.zipWith (· + ·) ns, fine && good)
  let (sums, fine) ← names.foldlM step (List.replicate kinds 0, true)
  if 1 < names.length then say (row sums "total")
  return statusOf fine 1
where
  /-- Whether there is something of a name. -/
  look (name : String) : Program Bool := do
    return name = "-" || (← world).pathExists ⟨name⟩

/-! ### Ordering -/

/-- The number at the front of a text, in units that leave room for a fraction. -/
def numericValue (text : List Char) : Int :=
  let body := text.dropWhile fun c => c = ' ' || c = '\t'
  let (negative, body) := match body with
    | '-' :: rest => (true, rest)
    | rest => (false, rest)
  let whole := body.takeWhile Char.isDigit
  let fraction := match body.drop whole.length with
    | '.' :: rest => rest.takeWhile Char.isDigit
    | _ => []
  let digits := whole ++ (fraction ++ List.replicate 20 '0').take 20
  let n : Int := (Shell.Arithmetic.readDigits 10 digits).1
  if negative then -n else n

/-- A part of lines that decides their order. -/
structure SortKey where
  first : Nat
  firstChar : Nat
  last : Option (Nat × Nat)
  flags : List Char
deriving DecidableEq, Repr, Inhabited

/-- A place in a line: a field, a character in it, and the flags behind. -/
def sortPlace? (text : List Char) : Option (Nat × Nat × List Char) :=
  let digits := text.takeWhile Char.isDigit
  match (String.ofList digits).toNat?, text.drop digits.length with
  | some field, '.' :: rest =>
      let more := rest.takeWhile Char.isDigit
      ((String.ofList more).toNat?).map fun c => (field, c, rest.drop more.length)
  | some field, rest => some (field, 0, rest)
  | none, _ => none

def sortKey? (text : String) : Option SortKey := do
  let (front, back) := Text.breakAt ',' text.toList
  let (first, firstChar, flags) ← sortPlace? front
  match back with
  | none => return ⟨first, firstChar, none, flags⟩
  | some back =>
      let (last, lastChar, more) ← sortPlace? back
      return ⟨first, firstChar, some (last, lastChar), flags ++ more⟩

/-- The fields of a line.  Without a separator the blanks in front belong to a field. -/
def sortFields (separator : Option Char) (line : List Char) : List (List Char) :=
  match separator with
  | some c => (Text.splitString c (String.ofList line)).map String.toList
  | none => blankFields (line.length + 1) line
where
  blankFields : Nat → List Char → List (List Char)
    | 0, _ => []
    | _, [] => []
    | n + 1, text =>
        let blanks := text.takeWhile fun c => c = ' ' || c = '\t'
        let body := (text.drop blanks.length).takeWhile fun c => c ≠ ' ' && c ≠ '\t'
        (blanks ++ body) :: blankFields n (text.drop (blanks.length + body.length))

def keyText (separator : Option Char) (k : SortKey) (line : List Char) : List Char :=
  let fields := sortFields separator line
  let between := if separator.isSome then 1 else 0
  let startOf (field : Nat) : Nat :=
    ((fields.take (field - 1)).map fun f => f.length + between).foldl (· + ·) 0
  let start := startOf k.first + (k.firstChar - 1)
  let stop := match k.last with
    | none => line.length
    | some (field, 0) => startOf field + ((fields[field - 1]?).getD []).length
    | some (field, c) => startOf field + c
  (line.take stop).drop start

def compareKeys (flags : List Char) (a b : List Char) : Ordering :=
  let trim (text : List Char) : List Char :=
    if flags.contains 'b' then text.dropWhile fun c => c = ' ' || c = '\t' else text
  let fold (text : List Char) : List Char :=
    if flags.contains 'f' then text.map Char.toUpper else text
  let result :=
    if flags.contains 'n' || flags.contains 'g' then compare (numericValue a) (numericValue b)
    else compare (String.ofList (fold (trim a))) (String.ofList (fold (trim b)))
  if flags.contains 'r' then result.swap else result

def sortFlags : List Char := "bdfgiMhnRrV".toList

def sort : Program ExitStatus := do
  let a ← arguments { (Forms.ofLetters "bdfgiMhnRrVcCmsuz" "koStT" [("reverse", 'r'),
    ("numeric-sort", 'n'), ("unique", 'u'), ("key", 'k'), ("field-separator", 't'), ("output", 'o'),
    ("ignore-case", 'f'), ("stable", 's'), ("check", 'c')]) with fault := 2 }
  let globals := (a.options.map (·.1)).filter sortFlags.contains
  let keys ← (a.options.filter (·.1 == 'k')).mapM fun (_, text) => do
    match sortKey? text with
    | some k => return { k with flags := if k.flags.isEmpty then globals else k.flags }
    | none => refuse 2 ("invalid number at field start: invalid count at start of " ++ quoted text)
  let separator := (a.value? 't').bind (·.toList.head?)
  let missing (name : String) (e : OsError) : String :=
    if cannotOpen e then "cannot read: " ++ faulty name e else "read failed: " ++ faulty name e
  let texts ← (sources a).mapM fun name => do
    match ← content name with
    | .ok text => return (linesOf text).1
    | .error e => refuse 2 (missing name e)
  let byKeys (x y : String) : Ordering :=
    if keys.isEmpty then
      if globals.filter (· != 'r') |>.isEmpty then .eq else compareKeys globals x.toList y.toList
    else
      keys.foldl (fun result k => result.then (compareKeys k.flags
        (keyText separator k x.toList) (keyText separator k y.toList))) .eq
  let whole (x y : String) : Ordering :=
    if globals.contains 'r' then (compare x y).swap else compare x y
  let plain := keys.isEmpty && (globals.filter (· != 'r')).isEmpty
  let order (x y : String) : Ordering :=
    if plain then whole x y
    else if a.has 's' || a.has 'u' then byKeys x y
    else (byKeys x y).then (whole x y)
  let lines := texts.flatten
  if a.has 'c' || a.has 'C' then
    let pairs := lines.zip lines.tail
    match pairs.zipIdx.find? fun ((x, y), _) =>
        order x y = .gt || (a.has 'u' && order x y = .eq) with
    | some ((_, y), i) =>
        unless a.has 'C' do
          warn ((sources a).headD "-" ++ ":" ++ toString (i + 2) ++ ": disorder: " ++ y)
        return .exited 1
    | none => return .exited 0
  else
    let sorted := lines.mergeSort fun x y => order x y != .gt
    let distinct := if a.has 'u' then sorted.foldr (fun x kept =>
        match kept with
        | y :: rest => if order x y = .eq then x :: rest else x :: kept
        | [] => [x]) []
      else sorted
    let text := joinLines distinct
    match a.value? 'o' with
    | none =>
        say text
        return .exited 0
    | some name =>
        match (← world).writeFile ⟨name⟩ (Octets.toBytes text) with
        | .ok w =>
            changeWorld fun _ => w
            return .exited 0
        | .error e => refuse 2 ("open failed: " ++ faulty name e)

/-- Equal lines that stand together, with their number. -/
def runsOf (same : String → String → Bool) : List String → List (String × Nat)
  | [] => []
  | line :: rest =>
      match runsOf same rest with
      | (other, n) :: runs => if same line other then (line, n + 1) :: runs
          else (line, 1) :: (other, n) :: runs
      | [] => [(line, 1)]

/-- Shows lines without the repetitions that follow each other. -/
def uniq : Program ExitStatus := do
  let a ← arguments (.ofLetters "cdDiuz" "fsw" [("count", 'c'), ("repeated", 'd'), ("unique", 'u'),
    ("ignore-case", 'i'), ("skip-fields", 'f'), ("skip-chars", 's'), ("check-chars", 'w')])
  let (source, target) ← match a.operands with
    | [] => pure ("-", none)
    | [source] => pure (source, none)
    | [source, target] => pure (source, some target)
    | _ :: _ :: extra :: _ => refuseUsage 1 ("extra operand " ++ quoted extra)
  match ← content source with
  | .error e =>
      if cannotOpen e then refuse 1 (faulty source e)
      else refuse 1 ("error reading " ++ faulty (quoted source) e)
  | .ok text =>
      let number (c : Char) : Nat := ((a.value? c).bind String.toNat?).getD 0
      let key (line : String) : List Char :=
        let fields := sortFields none line.toList
        let chars := (fields.drop (number 'f')).flatten.drop (number 's')
        let chars := match a.value? 'w' with
          | some _ => chars.take (number 'w')
          | none => chars
        if a.has 'i' then chars.map Char.toLower else chars
      let runs := runsOf (fun x y => key x == key y) (linesOf text).1
      let kept := runs.filter fun (_, n) => (!a.has 'd' || 1 < n) && (!a.has 'u' || n = 1)
      let shown := joinLines (kept.map fun (line, n) =>
        if a.has 'c' then padLeft 7 (toString n) ++ " " ++ line else line)
      match target with
      | none => say shown
      | some name =>
          match (← world).writeFile ⟨name⟩ (Octets.toBytes shown) with
          | .ok w => changeWorld fun _ => w
          | .error e => refuse 1 (faulty name e)
      return .exited 0

/-! ### Choosing columns -/

/-- The ranges of a list; the end of the last one may be open. -/
def ranges? (kind : String) (text : String) : Except String (List (Nat × Option Nat)) :=
  (Text.splitString ',' text).mapM fun piece => do
    let (front, back) := Text.breakAt '-' piece.toList
    let numberOf (digits : List Char) : Except String Nat :=
      match (String.ofList digits).toNat? with
      | some 0 => .error ((if kind = "field" then "fields" else "byte/character positions") ++
          " are numbered from 1")
      | some n => .ok n
      | none => .error ("invalid " ++ (if kind = "field" then "field value " else
          "byte/character position ") ++ quoted piece)
    match back with
    | none =>
        let n ← numberOf front
        return (n, some n)
    | some back =>
        if front.isEmpty && back.isEmpty then .error "invalid range with no endpoint: -"
        else
          let first ← if front.isEmpty then .ok 1 else numberOf front
          if back.isEmpty then return (first, none)
          else
            let last ← numberOf back
            if last < first then .error "invalid decreasing range" else return (first, some last)

def inRanges (ranges : List (Nat × Option Nat)) (n : Nat) : Bool :=
  ranges.any fun (first, last) => first ≤ n && last.all (n ≤ ·)

def cut : Program ExitStatus := do
  let a ← arguments (.ofLetters "nszC" "bcdfO" [("bytes", 'b'), ("characters", 'c'),
    ("delimiter", 'd'), ("fields", 'f'), ("only-delimited", 's'), ("output-delimiter", 'O'),
    ("complement", 'C')])
  let lists := a.options.filter fun o => "bcf".toList.contains o.1
  match lists with
  | [] => refuseUsage 1 "you must specify a list of bytes, characters, or fields"
  | _ :: _ :: _ => refuseUsage 1 "only one list may be specified"
  | [(kind, list)] =>
      let delimiter ← match (a.value? 'd').map String.toList with
        | none => pure '\t'
        | some [c] => pure c
        | some [] => pure (Char.ofNat 0)
        | some _ => refuseUsage 1 "the delimiter must be a single character"
      let ranges ← match ranges? (if kind = 'f' then "field" else "byte") list with
        | .ok ranges => pure ranges
        | .error text => refuseUsage 1 text
      let wanted (n : Nat) : Bool := inRanges ranges n != a.has 'C'
      let choose {α : Type} (items : List α) : List α :=
        (items.zipIdx.filter fun (_, i) => wanted (i + 1)).map (·.1)
      let change (line : String) : Option String :=
        if kind = 'f' then
          if !line.toList.contains delimiter then (if a.has 's' then none else some line)
          else some (String.intercalate ((a.value? 'O').getD (String.singleton delimiter))
            (choose (Text.splitString delimiter line)))
        else some (String.ofList (choose line.toList))
      let fine ← withSources (sources a) faulty fun _ text =>
        say (joinLines ((linesOf text).1.filterMap change))
      return statusOf fine 1

/-! ### Characters -/

/-- One piece of a set of characters. -/
inductive SetPiece where
  | chars (chars : List Char)
  | fill (c : Char)
deriving Inhabited

def classChars (name : String) : Option (List Char) :=
  let bytes := (List.range 256).map Char.ofNat
  let pick (p : Char → Bool) : Option (List Char) := some (bytes.filter p)
  match name with
  | "alpha" => pick Char.isAlpha
  | "digit" => pick Char.isDigit
  | "alnum" => pick Char.isAlphanum
  | "upper" => pick Char.isUpper
  | "lower" => pick Char.isLower
  | "space" => pick Shell.Arithmetic.isSpace
  | "blank" => pick fun c => c = ' ' || c = '\t'
  | "cntrl" => pick fun c => c.toNat < 32 || c.toNat = 127
  | "print" => pick fun c => 32 ≤ c.toNat && c.toNat < 127
  | "graph" => pick fun c => 32 < c.toNat && c.toNat < 127
  | "punct" => pick fun c => 32 < c.toNat && c.toNat < 127 && !c.isAlphanum
  | "xdigit" => pick fun c => c.isDigit || ('a' ≤ c && c ≤ 'f') || ('A' ≤ c && c ≤ 'F')
  | _ => none

/-- The next character of a set, with escapes carried out. -/
def setChar : List Char → Option (Char × List Char)
  | '\\' :: c :: rest =>
      if '0' ≤ c && c ≤ '7' then
        let digits := c :: (rest.take 2).takeWhile fun d => '0' ≤ d && d ≤ '7'
        some (Char.ofNat ((Shell.Arithmetic.readDigits 8 digits).1 % 256),
          rest.drop (digits.length - 1))
      else
        match c with
        | 'n' => some ('\n', rest)
        | 't' => some ('\t', rest)
        | 'r' => some ('\r', rest)
        | 'a' => some (Char.ofNat 7, rest)
        | 'b' => some (Char.ofNat 8, rest)
        | 'f' => some (Char.ofNat 12, rest)
        | 'v' => some (Char.ofNat 11, rest)
        | _ => some (c, rest)
  | c :: rest => some (c, rest)
  | [] => none

def setPieces : Nat → List Char → Except String (List SetPiece)
  | 0, _ => .ok []
  | _, [] => .ok []
  | n + 1, '[' :: ':' :: rest =>
      let name := rest.takeWhile Char.isLower
      match rest.drop name.length with
      | ':' :: ']' :: behind =>
          match classChars (String.ofList name) with
          | some chars => do return .chars chars :: (← setPieces n behind)
          | none => .error ("invalid character class " ++ quoted (String.ofList name))
      | _ => do return .chars ['['] :: (← setPieces n (':' :: rest))
  | n + 1, '[' :: c :: '*' :: rest =>
      let digits := rest.takeWhile Char.isDigit
      match rest.drop digits.length with
      | ']' :: behind =>
          let times := (Shell.Arithmetic.readNatural digits).1
          let piece := if times = 0 then SetPiece.fill c else .chars (List.replicate times c)
          do return piece :: (← setPieces n behind)
      | _ => do return .chars ['['] :: (← setPieces n (c :: '*' :: rest))
  | n + 1, text =>
      match setChar text with
      | none => .ok []
      | some (a, '-' :: rest) =>
          match setChar rest with
          | none => .ok [.chars [a, '-']]
          | some (b, behind) =>
              if b < a then
                .error ("range-endpoints of '" ++ String.ofList [a, '-', b] ++
                  "' are in reverse collating sequence order")
              else do
                let range := (List.range (b.toNat + 1 - a.toNat)).map
                  fun k => Char.ofNat (a.toNat + k)
                return .chars range :: (← setPieces n behind)
      | some (a, rest) => do return .chars [a] :: (← setPieces n rest)

def fillPieces (length : Nat) (pieces : List SetPiece) : List Char :=
  let fixed := (pieces.map fun
    | .chars chars => chars.length
    | .fill _ => 0).foldl (· + ·) 0
  pieces.flatMap fun
    | .chars chars => chars
    | .fill c => List.replicate (length - fixed) c

/-- A text in which runs of some characters are made one. -/
def squeeze (set : List Char) : List Char → List Char
  | a :: b :: rest =>
      if a = b && set.contains a then squeeze set (b :: rest) else a :: squeeze set (b :: rest)
  | rest => rest

/-- Replaces, removes or squeezes characters. -/
def tr : Program ExitStatus := do
  let a ← arguments { (Forms.ofLetters "cCdst" "" [("complement", 'c'), ("delete", 'd'),
    ("squeeze-repeats", 's'), ("truncate-set1", 't')]) with leading := true }
  let pieces (text : String) : Program (List SetPiece) := do
    match setPieces (text.length + 1) text.toList with
    | .ok pieces => return pieces
    | .error message => refuse 1 message
  let refuseTwice {α : Type} (first second : String) : Program α := do
    warn first
    let name := (← read).name
    let _ ← writeTo 2 (second ++ "\nTry '" ++ name ++ " --help' for more information.\n")
    stop 1
  let complemented (set : List Char) : List Char :=
    if a.has 'c' || a.has 'C' then
      ((List.range 256).map Char.ofNat).filter fun c => !set.contains c
    else set
  let both := a.has 'd' && a.has 's'
  match a.operands with
  | [] => refuseUsage 1 "missing operand"
  | [one] =>
      if both then
        refuseTwice ("missing operand after " ++ quoted one)
          "Two strings must be given when both deleting and squeezing repeats."
      else if !a.has 'd' && !a.has 's' then
        refuseTwice ("missing operand after " ++ quoted one)
          "Two strings must be given when translating."
      else
        let set := complemented (fillPieces 0 (← pieces one))
        let text := (← input).toList
        say (String.ofList (if a.has 'd' then text.filter fun c => !set.contains c
          else squeeze set text))
        return .exited 0
  | [one, two] =>
      if a.has 'd' && !a.has 's' then
        refuseTwice ("extra operand " ++ quoted two)
          "Only one string may be given when deleting without squeezing repeats."
      else
        let first := complemented (fillPieces 0 (← pieces one))
        let second := fillPieces first.length (← pieces two)
        if both then
          let text := (← input).toList
          say (String.ofList (squeeze second (text.filter fun c => !first.contains c)))
          return .exited 0
        else if second.isEmpty && !a.has 't' && !first.isEmpty then
          refuse 1 "when not truncating set1, string2 must be non-empty"
        else
          let last := second.getLast?
          let pairs := first.zipIdx.filterMap fun (c, i) =>
            match second[i]? with
            | some d => some (c, d)
            | none => if a.has 't' then none else last.map fun d => (c, d)
          let pairs := pairs.reverse
          let text := (← input).toList.map fun c => (pairs.lookup c).getD c
          say (String.ofList (if a.has 's' then squeeze second text else text))
          return .exited 0
  | _ :: _ :: extra :: _ => refuseUsage 1 ("extra operand " ++ quoted extra)

/-! ### Others -/

/-- Shows its input and writes it to files. -/
def tee : Program ExitStatus := do
  let a ← arguments (.ofLetters "aip" "" [("append", 'a'), ("ignore-interrupts", 'i')])
  let call ← read
  let numbers ← a.operands.mapM fun name => do
    match (← get).openPath call.descriptors name (if a.has 'a' then .append else .write) with
    | .ok (m, number) =>
        set m
        return some number
    | .error e =>
        warn (faulty name e)
        return none
  let text ← input
  let failed ← writeTo 1 text
  match failed with
  | some e => warn ("standard output: " ++ e.reason)
  | none => pure ()
  let fine ← each (numbers.zip a.operands) fun (number, name) => do
    match number with
    | none => return false
    | some number =>
        let (m, e) := (← get).write number text
        set m
        match e with
        | some e =>
            warn (faulty name e)
            return false
        | none => return true
  return statusOf (fine && failed.isNone) 1

/-- Shows the lines of files from the last to the first. -/
def tac : Program ExitStatus := do
  let a ← arguments (.ofLetters "br" "s" [("separator", 's')])
  let missing (name : String) (e : OsError) : String :=
    if cannotOpen e then "failed to open " ++ quoted name ++ " for reading: " ++ e.reason
    else faulty name e
  let fine ← withSources (sources a) missing fun _ text =>
    say (String.join (wholeLines text).reverse)
  return statusOf fine 1

def rev : Program ExitStatus := do
  let a ← arguments (.ofLetters "" "" [])
  let missing (name : String) (e : OsError) : String := "cannot open " ++ faulty name e
  let fine ← withSources (sources a) missing fun _ text =>
    let (lines, complete) := linesOf text
    let turned := lines.map fun line => String.ofList line.toList.reverse
    say (String.intercalate "\n" turned ++ (if complete && !lines.isEmpty then "\n" else ""))
  return statusOf fine 1

def nl : Program ExitStatus := do
  let a ← arguments (.ofLetters "p" "bdfhilnsvw" [("body-numbering", 'b')])
  let all := a.value? 'b' = some "a"
  let width := ((a.value? 'w').bind String.toNat?).getD 6
  let start := ((a.value? 'v').bind String.toNat?).getD 1
  let between := (a.value? 's').getD "\t"
  let text ← wholeInput (sources a) 1 faulty
  let step (acc : List String × Nat) (line : String) : List String × Nat :=
    if line.isEmpty && !all then
      ((String.ofList (List.replicate (width + between.length) ' ') ++ line) :: acc.1, acc.2)
    else ((padLeft width (toString acc.2) ++ between ++ line) :: acc.1, acc.2 + 1)
  let (lines, _) := (linesOf text).1.foldl step ([], start)
  say (joinLines lines.reverse)
  return .exited 0

/-- Shows the lines of several files side by side. -/
def paste : Program ExitStatus := do
  let a ← arguments (.ofLetters "sz" "d" [("serial", 's'), ("delimiters", 'd')])
  let delimiters := match a.value? 'd' with
    | some text => text.toList
    | none => ['\t']
  let between (i : Nat) : String := match delimiters[i % max 1 delimiters.length]? with
    | some c => String.singleton c
    | none => ""
  let join (items : List String) : String :=
    String.join (items.zipIdx.map fun (item, i) => if i = 0 then item else between (i - 1) ++ item)
  let columns ← (sources a).mapM fun name => do
    match ← content name with
    | .ok text => return (linesOf text).1
    | .error e => refuse 1 (faulty name e)
  let rows := if a.has 's' then columns
    else (List.range ((columns.map List.length).foldl max 0)).map fun i =>
      columns.map fun column => column[i]?.getD ""
  say (joinLines (rows.map join))
  return .exited 0

def fold : Program ExitStatus := do
  let a ← arguments (.ofLetters "bs" "w" [("width", 'w'), ("spaces", 's'), ("bytes", 'b')])
  let width := ((a.value? 'w').bind String.toNat?).getD 80
  let rec pieces : Nat → List Char → List String
    | 0, _ => []
    | n + 1, text =>
        if text.length ≤ width || width = 0 then [String.ofList text]
        else
          let front := text.take width
          let blank := front.reverse.dropWhile (· != ' ')
          let front := if a.has 's' && !blank.isEmpty then blank.reverse else front
          String.ofList front :: pieces n (text.drop front.length)
  let fine ← withSources (sources a) faulty fun _ text =>
    let (lines, complete) := linesOf text
    let folded := lines.flatMap fun line => pieces (line.length + 1) line.toList
    say (String.intercalate "\n" folded ++ (if complete && !lines.isEmpty then "\n" else ""))
  return statusOf fine 1

/-- The lines that only the first of two ordered lists has, only the second, or both. -/
def compareSorted : Nat → List String → List String → List (Nat × String)
  | 0, _, _ => []
  | _, [], ys => ys.map fun y => (2, y)
  | _, xs, [] => xs.map fun x => (1, x)
  | n + 1, x :: xs, y :: ys =>
      if x = y then (3, x) :: compareSorted n xs ys
      else if x < y then (1, x) :: compareSorted n xs (y :: ys)
      else (2, y) :: compareSorted n (x :: xs) ys

/-- Shows which lines two ordered files have in common. -/
def comm : Program ExitStatus := do
  let a ← arguments (.ofLetters "123z" "" [])
  match a.operands with
  | [] => refuseUsage 1 "missing operand"
  | [one] => refuseUsage 1 ("missing operand after " ++ quoted one)
  | [one, two] =>
      let xs := (linesOf (← wholeInput [one] 1 faulty)).1
      let ys := (linesOf (← wholeInput [two] 1 faulty)).1
      let rows := compareSorted (xs.length + ys.length + 1) xs ys
      let shown (column : Nat) : Bool := !a.has (Char.ofNat (48 + column))
      let indent (column : Nat) : String :=
        String.join (([1, 2].filter fun c => c < column && shown c).map fun _ => "\t")
      say (joinLines ((rows.filter fun (column, _) => shown column).map
        fun (column, line) => indent column ++ line))
      return .exited 0
  | _ :: _ :: extra :: _ => refuseUsage 1 ("extra operand " ++ quoted extra)

/-- Finds the first byte in which two files differ. -/
def cmp : Program ExitStatus := do
  let a ← arguments { (Forms.ofLetters "bls" "in" [("silent", 's'), ("quiet", 's'),
    ("verbose", 'l')]) with fault := 2 }
  match a.operands with
  | [] => refuseUsage 2 "missing operand after 'cmp'"
  | one :: rest =>
      let two := rest.headD "-"
      let x := (← wholeInput [one] 2 faulty).toList
      let y := (← wholeInput [two] 2 faulty).toList
      let same := ((x.zip y).takeWhile fun (c, d) => c == d).length
      let lines := (x.take same).count '\n'
      if same = x.length && same = y.length then return .exited 0
      else
        if a.has 's' then return .exited 1
        else if same < x.length && same < y.length then
          say (one ++ " " ++ two ++ " differ: char " ++ toString (same + 1) ++ ", line " ++
            toString (lines + 1) ++ "\n")
        else
          let short := if x.length < y.length then one else two
          warn ("EOF on " ++ short ++ (if same = 0 then " which is empty"
            else " after byte " ++ toString same ++ ", " ++
              (if (x.take same).getLast? = some '\n' then "line " ++ toString lines
                else "in line " ++ toString (lines + 1))))
        return .exited 1

/-- How much `yes` writes; nobody reads more. -/
def yesLines : Nat := 2000

/-- Repeats a line until nobody reads on. -/
def yes : Program ExitStatus := do
  let a ← arguments (.ofLetters "" "" [])
  let line := if a.operands.isEmpty then "y" else String.intercalate " " a.operands
  say (joinLines (List.replicate yesLines line))
  return .killed 13

end ClojureBuild.Program
