import ClojureBuild.Process.Program.Lines
import ClojureBuild.Text.Regex
/-!
The program that edits lines by a script.

A script is a list of commands with addresses.  Each line of the input runs through all of them; a
block of commands is left by a jump behind its end.
-/

namespace ClojureBuild.Program.Edit

/-- Which lines a command is for. -/
inductive Address where
  | line (n : Nat)
  | last
  | pattern (r : Regex) (foldsCase : Bool)
  /-- Every so manieth line from a line on. -/
  | every (first step : Nat)
deriving Inhabited

/-- What stands in the place of a match. -/
inductive Piece where
  | text (c : Char)
  | group (number : Nat)
deriving DecidableEq, Repr

/-- What a command does. -/
inductive Action where
  | openBlock (behind : Nat)
  | closeBlock
  | substitute (r : Regex) (foldsCase : Bool) (pieces : List Piece) (all shown : Bool)
      (which : Nat)
  | translate (pairs : List (Char × Char))
  | delete
  | deleteFirst
  | print
  | printFirst
  | quit (code : Nat) (shown : Bool)
  | next
  | appendNext
  | hold (appended : Bool)
  | recall (appended : Bool)
  | exchange
  | append (text : String)
  | insert (text : String)
  | change (text : String)
  | lineNumber
  | label (name : String)
  | jump (name : String) (ifChanged : Bool)
  | appendFile (name : String)
  | writeFile (name : String)
deriving Inhabited

/-- An action of a script, and the addresses of the lines that it is for. -/
structure Rule where
  first : Option Address
  second : Option Address
  negated : Bool
  action : Action
deriving Inhabited

/-! ### Reading scripts -/

/-- A script while it is read: what is left, how much was read, and the rules so far. -/
structure Reading where
  rest : List Char
  place : Nat
  rules : Array Rule
  /-- The blocks that are open, innermost first. -/
  blocks : List Nat

/-- Reading a script, which may end with a complaint. -/
abbrev Reader := ExceptT String (StateM Reading)

/-- Ends the reading with a complaint, which names the place. -/
def refuse {α : Type} (text : String) : Reader α := do
  throw ("-e expression #1, char " ++ toString (← get).place ++ ": " ++ text)

def peek : Reader (Option Char) := return (← get).rest.head?

def take : Reader (Option Char) := do
  let s ← get
  match s.rest with
  | [] => return none
  | c :: rest =>
      set { s with rest, place := s.place + 1 }
      return some c

/-- Passes the characters that meet a condition. -/
def skipWhile (p : Char → Bool) : Reader (List Char) := do
  let s ← get
  let taken := s.rest.takeWhile p
  set { s with rest := s.rest.drop taken.length, place := s.place + taken.length }
  return taken

/-- Whether a character separates words on a line. -/
def isBlank (c : Char) : Bool := c = ' ' || c = '\t'

/-- The characters up to a mark; a backslash in front of the mark makes it a plain one.  In sets the
mark has no meaning. -/
def readUpTo (mark : Char) (isRegex : Bool) : Nat → Bool → Reader (Option (List Char))
  | 0, _ => return none
  | n + 1, inSet => do
      match ← take with
      | none => return none
      | some c =>
          if c = mark && !inSet then return some []
          else if c = '\\' then
            match ← take with
            | none => return none
            | some d =>
                let rest ← readUpTo mark isRegex n inSet
                return rest.map fun rest =>
                  if d = mark then d :: rest
                  else if d = 'n' && isRegex then '\\' :: 'n' :: rest
                  else '\\' :: d :: rest
          else
            let inSet := isRegex && ((c = '[' && !inSet) || (inSet && c ≠ ']'))
            return (← readUpTo mark isRegex n inSet).map (c :: ·)

def readRegex (extended : Bool) (text : List Char) : Reader Regex := do
  match Regex.ofText extended (String.ofList text) with
  | .ok r => return r
  | .error message => refuse message

def numberOf (digits : List Char) : Nat := ((String.ofList digits).toNat?).getD 0

def readAddress (extended : Bool) : Reader (Option Address) := do
  match ← peek with
  | some c =>
      if c.isDigit then
        let first := numberOf (← skipWhile Char.isDigit)
        if (← peek) = some '~' then
          let _ ← take
          return some (.every first (numberOf (← skipWhile Char.isDigit)))
        else return some (.line first)
      else if c = '$' then
        let _ ← take
        return some .last
      else if c = '/' || c = '\\' then
        let _ ← take
        let mark ← if c = '\\' then pure ((← take).getD '/') else pure '/'
        match ← readUpTo mark true ((← get).rest.length + 1) false with
        | none => refuse "unterminated address regex"
        | some text =>
            let flags ← skipWhile fun c => c = 'I' || c = 'M'
            return some (.pattern (← readRegex extended text) (flags.contains 'I'))
      else return none
  | none => return none

def piecesOf : List Char → List Piece
  | '\\' :: c :: rest =>
      if c.isDigit then .group (c.toNat - 48) :: piecesOf rest
      else if c = 'n' then .text '\n' :: piecesOf rest
      else if c = 't' then .text '\t' :: piecesOf rest
      else .text c :: piecesOf rest
  | '&' :: rest => .group 0 :: piecesOf rest
  | c :: rest => .text c :: piecesOf rest
  | [] => []

/-- The flags behind a substitution: for all matches, shown, of either case, and which match. -/
def readFlags : Nat → Bool × Bool × Bool × Nat → Reader (Bool × Bool × Bool × Nat)
  | 0, flags => return flags
  | n + 1, (all, shown, folds, which) => do
      match ← peek with
      | some 'g' =>
          let _ ← take
          readFlags n (true, shown, folds, which)
      | some 'p' =>
          let _ ← take
          readFlags n (all, true, folds, which)
      | some c =>
          if c = 'i' || c = 'I' then
            let _ ← take
            readFlags n (all, shown, true, which)
          else if c.isDigit then
            let k := numberOf (← skipWhile Char.isDigit)
            if k = 0 then refuse "number option to \x60s' command may not be zero"
            else readFlags n (all, shown, folds, k)
          else if c = '\n' || c = ';' || c = closeBrace || c = '#' || isBlank c then
            return (all, shown, folds, which)
          else
            let _ ← take
            refuse "unknown option to \x60s'"
      | none => return (all, shown, folds, which)
where
  closeBrace : Char := Char.ofNat 0x7d

/-- The text behind `a`, `i` or `c`: the rest of the line, or the lines behind a backslash. -/
def readText : Reader String := do
  let _ ← skipWhile isBlank
  match (← get).rest with
  | '\\' :: '\n' :: _ =>
      let _ ← take
      let _ ← take
  | '\\' :: _ =>
      let _ ← take
      let _ ← skipWhile isBlank
      if (← peek) = some '\n' then
        let _ ← take
  | _ => pure ()
  let text ← lines ((← get).rest.length + 1)
  return String.ofList text ++ "\n"
where
  lines : Nat → Reader (List Char)
    | 0 => return []
    | n + 1 => do
        match ← take with
        | none => return []
        | some '\n' => return []
        | some '\\' =>
            match ← take with
            | none => return []
            | some c => return c :: (← lines n)
        | some c => return c :: (← lines n)

def endCommand : Reader Unit := do
  let _ ← skipWhile isBlank
  match ← peek with
  | none => pure ()
  | some c =>
      if c = '\n' || c = ';' then
        let _ ← take
      else if c = Char.ofNat 0x7d || c = '#' then pure ()
      else
        let _ ← take
        refuse "extra characters after command"

/-- A name up to the end of a line or a semicolon. -/
def readName : Reader String := do
  let _ ← skipWhile isBlank
  let name ← skipWhile fun c => c ≠ '\n' && c ≠ ';' && c ≠ Char.ofNat 0x7d
  return String.ofList (name.reverse.dropWhile isBlank).reverse

def readAction (extended : Bool) (c : Char) : Reader Action := do
  let simple (action : Action) : Reader Action := do
    endCommand
    return action
  let fuel := (← get).rest.length + 1
  match c with
  | 's' =>
      let mark := (← take).getD '\n'
      match ← readUpTo mark true fuel false with
      | none => refuse "unterminated \x60s' command"
      | some regex =>
          match ← readUpTo mark false fuel false with
          | none => refuse "unterminated \x60s' command"
          | some text =>
              let (all, shown, folds, which) ← readFlags fuel (false, false, false, 1)
              let r ← readRegex extended regex
              simple (.substitute r folds (piecesOf text) all shown which)
  | 'y' =>
      let mark := (← take).getD '\n'
      match ← readUpTo mark false fuel false, ← readUpTo mark false fuel false with
      | some a, some b =>
          if a.length ≠ b.length then
            refuse "strings for \x60y' command are different lengths"
          else simple (.translate (a.zip b))
      | _, _ => refuse "unterminated \x60y' command"
  | 'd' => simple .delete
  | 'D' => simple .deleteFirst
  | 'p' => simple .print
  | 'P' => simple .printFirst
  | 'n' => simple .next
  | 'N' => simple .appendNext
  | 'h' => simple (.hold false)
  | 'H' => simple (.hold true)
  | 'g' => simple (.recall false)
  | 'G' => simple (.recall true)
  | 'x' => simple .exchange
  | '=' => simple .lineNumber
  | 'q' | 'Q' =>
      let _ ← skipWhile isBlank
      let code := numberOf (← skipWhile Char.isDigit)
      simple (.quit code (c = 'q'))
  | 'a' => return .append (← readText)
  | 'i' => return .insert (← readText)
  | 'c' => return .change (← readText)
  | ':' => return .label (← readName)
  | 'b' => simple (.jump (← readName) false)
  | 't' => simple (.jump (← readName) true)
  | 'r' => return .appendFile (← readName)
  | 'w' => return .writeFile (← readName)
  | c => refuse ("unknown command: \x60" ++ String.singleton c ++ "'")

/-- Reads the commands of a script; the number bounds them. -/
def readRules (extended : Bool) : Nat → Reader Unit
  | 0 => pure ()
  | n + 1 => do
      let _ ← skipWhile fun c => isBlank c || c = '\n' || c = ';'
      match ← peek with
      | none =>
          unless (← get).blocks.isEmpty do
            throw "-e expression #1, char 0: unmatched \x60\x7b'"
      | some '#' =>
          let _ ← skipWhile (· != '\n')
          readRules extended n
      | some _ =>
          let first ← readAddress extended
          let second ← do
            if first.isSome && (← peek) = some ',' then
              let _ ← take
              let _ ← skipWhile isBlank
              match ← readAddress extended with
              | some address => pure (some address)
              | none => refuse "unexpected \x60,'"
            else pure none
          let _ ← skipWhile isBlank
          let negated := !(← skipWhile (· == '!')).isEmpty
          let _ ← skipWhile isBlank
          match ← take with
          | none => refuse "missing command"
          | some c =>
              let here := (← get).rules.size
              if c = Char.ofNat 0x7b then
                modify fun s => { s with
                  rules := s.rules.push ⟨first, second, negated, .openBlock 0⟩
                  blocks := here :: s.blocks }
              else if c = Char.ofNat 0x7d then
                match (← get).blocks with
                | [] => refuse "unexpected \x60\x7d'"
                | start :: blocks =>
                    modify fun s => { s with
                      blocks
                      rules := (s.rules.modify start fun r =>
                        { r with action := .openBlock (here + 1) }).push
                          ⟨none, none, false, .closeBlock⟩ }
                    endCommand
              else
                let action ← readAction extended c
                modify fun s => { s with rules := s.rules.push ⟨first, second, negated, action⟩ }
              readRules extended n

def rulesOf (extended : Bool) (script : String) : Except String (Array Rule) :=
  match (readRules extended (script.length + 1)).run.run ⟨script.toList, 0, #[], []⟩ with
  | (.ok (), s) => .ok s.rules
  | (.error e, _) => .error e

/-! ### Editing -/

/-- The editing of some lines. -/
structure Editing where
  rest : List String
  /-- Whether the last line has an end. -/
  complete : Bool
  number : Nat
  pattern : List Char
  held : List Char
  /-- The rules whose range is under way, with the line on which it ends if that is known. -/
  active : List (Nat × Option Nat)
  /-- What is shown when the line is done. -/
  queued : List String
  out : List String
  changed : Bool
  code : Nat
  quiet : Bool

/-- How the work on a line goes on. -/
inductive Flow where
  | go (place : Nat)
  | nextLine
  /-- The same text is worked on once more. -/
  | restart
  | quit
deriving DecidableEq, Repr

namespace Editing

/-- Whether the line under way is the last one. -/
def isLast (e : Editing) : Bool := e.rest.isEmpty

def emit (e : Editing) (text : List Char) : Editing :=
  let ended := !e.isLast || e.complete
  { e with out := (String.ofList text ++ (if ended then "\n" else "")) :: e.out }

def say (e : Editing) (text : String) : Editing := { e with out := text :: e.out }

/-- Shows what waits for the end of a line. -/
def flush (e : Editing) : Editing :=
  { e with out := e.queued.reverse ++ e.out, queued := [] }

def isAt (e : Editing) : Address → Bool
  | .line n => e.number == n
  | .last => e.isLast
  | .pattern r folds => (r.find? ⟨e.pattern.toArray, folds⟩ 0).isSome
  | .every first step =>
      if step = 0 then e.number == first
      else first ≤ e.number && (e.number - first) % step == 0

def selects (e : Editing) (place : Nat) (r : Rule) : Bool × Editing :=
  match r.first, r.second with
  | none, _ => (!r.negated, e)
  | some first, none => (e.isAt first != r.negated, e)
  | some first, some second =>
      let without := { e with active := e.active.filter (·.1 != place) }
      match e.active.find? (·.1 == place) with
      | some _ =>
          let done : Bool := match second with
            | .line n => n ≤ e.number
            | address => e.isAt address
          let beyond : Bool := match second with
            | .line n => n < e.number
            | _ => false
          if beyond then (e.isAt first != r.negated, without)
          else (!r.negated, if done then without else e)
      | none =>
          if e.isAt first then
            let alone : Bool := match second with
              | .line n => n ≤ e.number
              | _ => false
            (!r.negated, if alone then e else { e with active := (place, none) :: e.active })
          else (r.negated, e)

def replacement (text : Array Char) (start : Nat) (found : Regex.Found) (pieces : List Piece) :
    List Char :=
  pieces.flatMap fun
    | .text c => [c]
    | .group 0 => (text.extract start found.stop).toList
    | .group n =>
        match found.groups.find? (·.1 == n) with
        | some (_, i, j) => (text.extract i j).toList
        | none => []

/-- The text with matches replaced, from one on; the number bounds the matches. -/
def substitute (r : Regex) (s : Regex.Subject) (pieces : List Piece) (all : Bool) :
    Nat → Nat → Nat → List Char × Bool
  | 0, _, start => ((s.text.extract start s.text.size).toList, false)
  | n + 1, which, start =>
      match if s.text.size < start then none else r.find? s start with
      | none => ((s.text.extract start s.text.size).toList, false)
      | some (i, found) =>
          let front := (s.text.extract start i).toList
          let empty := found.stop = i
          let rest (which : Nat) : List Char × Bool :=
            if empty then
              match s.text[i]? with
              | some c =>
                  let (chars, changed) := substitute r s pieces all n which (i + 1)
                  (c :: chars, changed)
              | none => ([], false)
            else substitute r s pieces all n which found.stop
          if 1 < which then
            let (chars, changed) := rest (which - 1)
            (front ++ (s.text.extract i found.stop).toList ++ chars, changed)
          else
            let new := replacement s.text i found pieces
            if all then (front ++ new ++ (rest 1).1, true)
            else (front ++ new ++ (s.text.extract found.stop s.text.size).toList, true)

/-- The place behind a label. -/
def labelPlace (rules : Array Rule) (name : String) : Nat :=
  if name.isEmpty then rules.size
  else (rules.findIdx? fun r => match r.action with
    | .label n => n == name
    | _ => false).getD rules.size

/-- Goes on to the next line of the input. -/
def advance (e : Editing) : Option Editing :=
  match e.rest with
  | [] => none
  | line :: rest => some { e with rest, pattern := line.toList, number := e.number + 1 }

def finishLine (e : Editing) : Editing :=
  (if e.quiet then e else e.emit e.pattern).flush

def step (files : String → String) (rules : Array Rule) (place : Nat) (action : Action)
    (e : Editing) : Flow × Editing :=
  let on (e : Editing) : Flow × Editing := (.go (place + 1), e)
  match action with
  | .openBlock _ | .closeBlock | .label _ => on e
  | .substitute r folds pieces all shown which =>
      let (text, changed) := substitute r ⟨e.pattern.toArray, folds⟩ pieces all
        (e.pattern.length + 2) which 0
      if changed then
        let e := { e with pattern := text, changed := true }
        on (if shown then e.emit text else e)
      else on e
  | .translate pairs =>
      on { e with pattern := e.pattern.map fun c => (pairs.lookup c).getD c }
  | .delete => (.nextLine, e.flush)
  | .deleteFirst =>
      match e.pattern.dropWhile (· != '\n') with
      | [] => (.nextLine, e.flush)
      | _ :: rest => (.restart, { e.flush with pattern := rest })
  | .print => on (e.say (String.ofList e.pattern ++ "\n"))
  | .printFirst => on (e.say (String.ofList (e.pattern.takeWhile (· != '\n')) ++ "\n"))
  | .quit code shown =>
      let e := { e with code }
      (.quit, if shown then e.finishLine else e)
  | .next =>
      match (if e.quiet then e else e.emit e.pattern).flush.advance with
      | some e => on e
      | none => (.quit, e.finishLine)
  | .appendNext =>
      match e.flush.advance with
      | some after => on { after with pattern := e.pattern ++ '\n' :: after.pattern }
      | none => (.quit, e.finishLine)
  | .hold appended =>
      on { e with held := if appended then e.held ++ '\n' :: e.pattern else e.pattern }
  | .recall appended =>
      on { e with pattern := if appended then e.pattern ++ '\n' :: e.held else e.held }
  | .exchange => on { e with held := e.pattern, pattern := e.held }
  | .append text => on { e with queued := e.queued ++ [text] }
  | .insert text => on (e.say text)
  | .change text =>
      let inRange := e.active.any (·.1 == place)
      (.nextLine, (if inRange then e else e.say text).flush)
  | .lineNumber => on (e.say (toString e.number ++ "\n"))
  | .jump name ifChanged =>
      if ifChanged && !e.changed then on e
      else (.go (labelPlace rules name), { e with changed := e.changed && !ifChanged })
  | .appendFile name => on { e with queued := e.queued ++ [files name] }
  | .writeFile _ => on e

/-- Runs a line through the commands from a place on; the number bounds the steps. -/
def runLine (files : String → String) (rules : Array Rule) : Nat → Nat → Editing → Flow × Editing
  | 0, _, e => (.quit, e)
  | n + 1, place, e =>
      match rules[place]? with
      | none => (.nextLine, e.finishLine)
      | some r =>
          let (chosen, e) := e.selects place r
          if chosen then
            match step files rules place r.action e with
            | (.go next, e) => runLine files rules n next e
            | (.restart, e) => runLine files rules n 0 e
            | result => result
          else
            match r.action with
            | .openBlock behind => runLine files rules n behind e
            | _ => runLine files rules n (place + 1) e

/-- Runs all lines through the commands; the number bounds them. -/
def runAll (files : String → String) (rules : Array Rule) : Nat → Editing → Editing
  | 0, e => e
  | n + 1, e =>
      match ({ e with changed := false } : Editing).advance with
      | none => e
      | some e =>
          match runLine files rules 100000 0 e with
          | (.quit, e) => e
          | (_, e) => runAll files rules n e

end Editing

/-- What a script makes of a text: the new text, and the status. -/
def edit (files : String → String) (rules : Array Rule) (quiet : Bool) (text : String) :
    String × Nat :=
  let (lines, complete) := linesOf text
  let start : Editing := ⟨lines, complete, 0, [], [], [], [], [], false, 0, quiet⟩
  let e := Editing.runAll files rules (lines.length + 1) start
  (String.join e.out.reverse, e.code)

end Edit

/-- The usage of `sed`, which is shown when no script is given. -/
def sedUsage (name : String) : String :=
  "Usage: " ++ name ++
    " [OPTION]... \x7bscript-only-if-no-other-script\x7d [input-file]...\n\n"

/-- The options of `sed`: a suffix for copies may be joined to the letter `i`. -/
def splitInPlace (args : List String) : List String × Bool :=
  args.foldr (fun arg (rest, found) =>
    match arg.toList with
    | '-' :: 'i' :: _ :: _ => (if arg = "-in" then "-n" :: rest else rest, true)
    | _ =>
        if arg = "-i" || arg = "--in-place" then (rest, true)
        else (arg :: rest, found)) ([], false)

def sed : Program ExitStatus := do
  let call ← read
  let (args, inPlace) := splitInPlace call.args
  let a ← readArguments (.ofLetters "nErsuz" "efl" [("quiet", 'n'), ("silent", 'n'),
    ("regexp-extended", 'E'), ("expression", 'e'), ("file", 'f'), ("separate", 's')]) args
  let given ← (a.options.filter fun o => o.1 = 'e' || o.1 = 'f').mapM fun (letter, text) => do
    if letter = 'e' then return text
    else
      match ← content text with
      | .ok script => return script
      | .error e => refuse 1 ("couldn't open file " ++ faulty text e)
  let (script, names) ← match given, a.operands with
    | [], [] => do
        let _ ← writeTo 2 (sedUsage call.name)
        stop 1
    | [], script :: names => pure (script, names)
    | texts, names => pure (String.intercalate "\n" texts, names)
  match Edit.rulesOf (a.has 'E' || a.has 'r') script with
  | .error message => refuse 1 message
  | .ok rules =>
      let m ← get
      let files (name : String) : String :=
        match m.openPath call.descriptors name .read with
        | .ok (m, number) => m.remaining number
        | .error _ => ""
      let texts ← (if names.isEmpty then ["-"] else names).filterMapM fun name => do
        match ← content name with
        | .ok text => return some (name, text)
        | .error e =>
            if cannotOpen e then warn ("can't read " ++ faulty name e)
            else if inPlace then warn ("couldn't edit " ++ name ++ ": not a regular file")
            else warn ("read error on " ++ faulty name e)
            return none
      let missing := if texts.length < max 1 names.length then 2 else 0
      if inPlace || a.has 's' then
        let codes ← texts.mapM fun (name, text) => do
          let (new, code) := Edit.edit files rules (a.has 'n') text
          if inPlace then
            match (← world).writeFile ⟨name⟩ (Octets.toBytes new) with
            | .ok w => changeWorld fun _ => w
            | .error e => warn ("couldn't open file " ++ faulty name e)
          else say new
          return code
        return .exited (max missing (codes.foldl max 0))
      else
        let whole := (texts.map (·.2)).foldr (fun text rest =>
          if rest.isEmpty || text.isEmpty || text.toList.getLast? = some '\n' then text ++ rest
          else text ++ "\n" ++ rest) ""
        let (new, code) := Edit.edit files rules (a.has 'n') whole
        say new
        return .exited (if code = 0 then missing else code)

end ClojureBuild.Program
