import ClojureBuild.Text.Alphanumeric
import ClojureBuild.Text.Blank
/-!
The patterns that a directive may ask a field's value to match.

No log line is ever compared with a pattern, so only whether it can be used matters.  It is read
once from left to right; the groups that stand open are kept in a list.  There are no tables of
Unicode characters, so nothing that needs one can be used: the classes of digits, blanks and
letters, and letters that stand for both cases.
-/

namespace ClojureBuild.Cli

/-- Why a pattern cannot be used. -/
inductive PatternFault where
  | unreadable
  /-- It asks where words of Unicode begin or end. -/
  | wordEdge
deriving DecidableEq, Repr

def PatternFault.message : PatternFault → String
  | .unreadable => "error building NFA"
  | .wordEdge =>
      "unsupported regex feature for DFAs: cannot build DFAs for regexes with Unicode word " ++
        "boundaries; switch to ASCII word boundaries, or heuristically enable Unicode word " ++
        "boundaries or use a different regex engine"

namespace FieldPattern

/-- How a pattern is read at a place. -/
structure Mode where
  /-- Letters stand for both cases. -/
  caseless : Bool
  /-- A character is one of Unicode and not a byte. -/
  wide : Bool
  /-- Blanks do not count, nor does what follows `#` on a line. -/
  spaced : Bool
deriving DecidableEq, Repr

def Mode.usual : Mode := ⟨false, true, false⟩

/-- The mode with a flag on or off.  The flags about lines and repetitions change nothing here. -/
def Mode.setFlag (mode : Mode) (flag : Char) (on : Bool) : Mode :=
  if flag = 'i' then { mode with caseless := on }
  else if flag = 'u' then { mode with wide := on }
  else if flag = 'x' then { mode with spaced := on }
  else mode

/-- What follows blanks and notes, read inside a note or outside. -/
def behindNotes : Bool → List Char → List Char
  | _, [] => []
  | true, c :: rest => behindNotes (c != '\n') rest
  | false, c :: rest =>
      if c = '#' then behindNotes true rest
      else if Text.isBlank c then behindNotes false rest
      else c :: rest

/-- What follows the characters that do not count. -/
def Mode.skip (mode : Mode) (text : List Char) : List Char :=
  if mode.spaced then behindNotes false text else text

/-- What a character or an escape stands for. -/
inductive Item where
  /-- The character itself; `asByte` when it is spelled with two hexadecimal digits. -/
  | char (c : Char) (asByte : Bool)
  /-- The digits, the blanks or the letters of words, or all others. -/
  | named (others : Bool)
  | wordEdge
  | textEdge
deriving DecidableEq, Repr

def hexDigit? (c : Char) : Option Nat :=
  if c.isDigit then some (c.toNat - '0'.toNat)
  else if 'a' ≤ c && c ≤ 'f' then some (c.toNat - 'a'.toNat + 10)
  else if 'A' ≤ c && c ≤ 'F' then some (c.toNat - 'A'.toNat + 10)
  else none

/-- The character whose number has so many hexadecimal digits more. -/
def numbered? (mode : Mode) : Nat → Nat → List Char → Option (Char × List Char)
  | 0, value, rest => if value.isValidChar then some (Char.ofNat value, rest) else none
  | count + 1, value, rest =>
      match mode.skip rest with
      | [] => none
      | c :: rest => do
          let digit ← hexDigit? c
          numbered? mode count (16 * value + digit) rest

/-- The character that a letter stands for behind a backslash. -/
def control? (c : Char) : Option Char :=
  if c = 'a' then some (Char.ofNat 7)
  else if c = 't' then some '\t'
  else if c = 'n' then some '\n'
  else if c = 'v' then some (Char.ofNat 11)
  else if c = 'f' then some (Char.ofNat 12)
  else if c = 'r' then some '\r'
  else none

def escape? (mode : Mode) : List Char → Option (Item × List Char)
  | [] => none
  | c :: rest =>
      if c = 'x' then (numbered? mode 2 0 rest).map fun (c, rest) => (.char c true, rest)
      else if c = 'u' then (numbered? mode 4 0 rest).map fun (c, rest) => (.char c false, rest)
      else if c = 'U' then (numbered? mode 8 0 rest).map fun (c, rest) => (.char c false, rest)
      else if ['d', 's', 'w'].contains c then some (.named false, rest)
      else if ['D', 'S', 'W'].contains c then some (.named true, rest)
      else if ['b', 'B', '<', '>'].contains c then some (.wordEdge, rest)
      else if ['A', 'z'].contains c then some (.textEdge, rest)
      else
        match control? c with
        | some d => some (.char d false, rest)
        | none => if c.toNat < 0x80 && !c.isAlphanum then some (.char c false, rest) else none

def item? (mode : Mode) : List Char → Option (Item × List Char)
  | [] => none
  | '\\' :: rest => escape? mode rest
  | c :: rest => some (.char c false, rest)

/-- Whether an item may stand by itself outside a set. -/
def Item.standsAlone (mode : Mode) : Item → Bool
  | .char c asByte => if mode.wide then !mode.caseless else !asByte || c.toNat < 0x80
  | .named others => !mode.wide && !others
  | .wordEdge | .textEdge => true

/-- The character of an item that may be one end of a range in a set. -/
def Item.rangeEnd? (mode : Mode) : Item → Option Char
  | .char c _ => if mode.wide || c.toNat < 0x80 then some c else none
  | _ => none

def Item.standsInSet (mode : Mode) : Item → Bool
  | .named others => !mode.wide && !others
  | item => (item.rangeEnd? mode).isSome

/-- The names of the classes that a set may have between `[:` and `:]`. -/
def classNames : List String :=
  ["alnum", "alpha", "ascii", "blank", "cntrl", "digit", "graph", "lower", "print", "punct",
    "space", "upper", "word", "xdigit"]

/-- A named class behind its opening bracket: whether it stands for all other characters, and what
follows. -/
def class? : List Char → Option (Bool × List Char)
  | ':' :: rest =>
      let (others, rest) := match rest with
        | '^' :: rest => (true, rest)
        | rest => (false, rest)
      let name := rest.takeWhile (· != ':')
      match rest.drop name.length with
      | ':' :: ']' :: behind =>
          if classNames.contains (String.ofList name) then some (others, behind) else none
      | _ => none
  | _ => none

/-- Where the reading of a set stands. -/
inductive SetPlace where
  /-- Before its first member that is not a hyphen; `fresh` when it has no member yet. -/
  | opened (fresh : Bool)
  | inside
deriving DecidableEq, Repr

/-- What follows a set's opening bracket and its negation.  A set of bytes cannot be negated. -/
def setStart? (mode : Mode) (text : List Char) : Option (List Char) :=
  match mode.skip text with
  | '^' :: rest => if mode.wide then some rest else none
  | rest => some rest

/-- What follows a set that stands open with `depth` sets around it. -/
def behindSet? (mode : Mode) : Nat → Nat → SetPlace → List Char → Option (List Char)
  | 0, _, _, _ => none
  | fuel + 1, depth, place, text =>
      match place, mode.skip text with
      | _, [] => none
      | .opened _, '-' :: rest => behindSet? mode fuel depth (.opened false) rest
      | .opened true, ']' :: rest => behindSet? mode fuel depth .inside rest
      | .opened _, text => behindSet? mode fuel depth .inside text
      | .inside, ']' :: rest =>
          match depth with
          | 0 => some rest
          | outer + 1 => behindSet? mode fuel outer .inside rest
      | .inside, '[' :: rest =>
          match class? rest with
          | some (others, behind) =>
              if others && !mode.wide then none else behindSet? mode fuel depth .inside behind
          | none => do
              let rest ← setStart? mode rest
              behindSet? mode fuel (depth + 1) (.opened true) rest
      | .inside, '&' :: '&' :: rest => behindSet? mode fuel depth .inside rest
      | .inside, '-' :: '-' :: rest => behindSet? mode fuel depth .inside rest
      | .inside, '~' :: '~' :: rest => behindSet? mode fuel depth .inside rest
      | .inside, text => do
          let (first, rest) ← item? mode text
          let alone (rest : List Char) : Option (List Char) :=
            if first.standsInSet mode then behindSet? mode fuel depth .inside rest else none
          match mode.skip rest with
          | '-' :: behind =>
              match mode.skip behind with
              | ']' :: _ | '-' :: _ => alone ('-' :: behind)
              | behind => do
                  let (last, rest) ← item? mode behind
                  let a ← first.rangeEnd? mode
                  let b ← last.rangeEnd? mode
                  if a ≤ b then behindSet? mode fuel depth .inside rest else none
          | rest => alone rest

/-- Where the reading of a pattern stands. -/
structure Scan where
  mode : Mode
  /-- The modes behind the groups that stand open, the innermost first. -/
  outer : List Mode
  names : List (List Char)
  /-- Whether a repetition may follow. -/
  repeatable : Bool
  wordEdge : Bool
deriving DecidableEq, Repr

/-- The reading behind something that may be repeated. -/
def Scan.behindItem (s : Scan) : Scan := { s with repeatable := true }

/-- The reading inside a group that begins in a mode. -/
def Scan.enter (s : Scan) (mode : Mode) : Scan :=
  { s with mode, outer := s.mode :: s.outer, repeatable := false }

def isGroupName : List Char → Bool
  | [] => false
  | c :: rest =>
      (c = '_' || (Text.isAlphanumeric c && !c.isDigit)) &&
        rest.all fun c => ['_', '.', '[', ']'].contains c || Text.isAlphanumeric c

/-- The flags up to the character that ends them, with the mode they make.  `seen` holds the flags
so far, the last one first, and the hyphen behind which flags are switched off. -/
def flags? (seen : List Char) (mode : Mode) :
    List Char → Option (Mode × List Char × Char × List Char)
  | [] => none
  | c :: rest =>
      if c = ':' || c = ')' then
        if seen.head? = some '-' then none else some (mode, seen, c, rest)
      else if seen.contains c then none
      else if c = '-' then flags? (c :: seen) mode rest
      else if ['i', 'm', 's', 'U', 'u', 'R', 'x'].contains c then
        flags? (c :: seen) (mode.setFlag c (!seen.contains '-')) rest
      else none

/-- What follows a group's opening parenthesis.  Flags may also stand alone between parentheses;
they hold up to the end of the group around them. -/
def Scan.group? (s : Scan) (text : List Char) : Option (Scan × List Char) :=
  let named (text : List Char) : Option (Scan × List Char) :=
    let name := text.takeWhile (· != '>')
    match text.drop name.length with
    | _ :: behind =>
        if isGroupName name && !s.names.contains name then
          some ({ s.enter s.mode with names := name :: s.names }, behind)
        else none
    | [] => none
  match text with
  | '?' :: '=' :: _ | '?' :: '!' :: _ | '?' :: '<' :: '=' :: _ | '?' :: '<' :: '!' :: _ => none
  | '?' :: 'P' :: '<' :: rest => named rest
  | '?' :: '<' :: rest => named rest
  | '?' :: rest =>
      match flags? [] s.mode rest with
      | none => none
      | some (mode, seen, close, behind) =>
          if close = ':' then some (s.enter mode, behind)
          else if seen.isEmpty then none
          else some ({ s with mode, repeatable := false }, behind)
  | rest => some (s.enter s.mode, rest)

def scan? : Nat → Scan → List Char → Option Scan
  | 0, _, _ => none
  | fuel + 1, s, text =>
      match s.mode.skip text with
      | [] => if s.outer.isEmpty then some s else none
      | '(' :: rest => do
          let (s, rest) ← s.group? (s.mode.skip rest)
          scan? fuel s rest
      | ')' :: rest =>
          match s.outer with
          | [] => none
          | mode :: outer => scan? fuel { s.behindItem with mode, outer } rest
      | '|' :: rest => scan? fuel { s with repeatable := false } rest
      | '[' :: rest =>
          if s.mode.caseless && s.mode.wide then none
          else do
            let rest ← setStart? s.mode rest
            let rest ← behindSet? s.mode (2 * rest.length + 1) 0 (.opened true) rest
            scan? fuel s.behindItem rest
      | c :: rest =>
          if ['?', '*', '+'].contains c then
            if s.repeatable then
              match rest with
              | '?' :: behind => scan? fuel s behind
              | _ => scan? fuel s rest
            else none
          else if c = Char.ofNat 0x7b then none
          else if c = '.' then if s.mode.wide then scan? fuel s.behindItem rest else none
          else if c = '^' || c = '$' then scan? fuel s.behindItem rest
          else do
            let (item, rest) ← item? s.mode (c :: rest)
            let wordEdge := s.wordEdge || (item = .wordEdge && s.mode.wide)
            if item.standsAlone s.mode then scan? fuel { s.behindItem with wordEdge } rest
            else none

/-- Whether a text is a number in decimal digits, or a word for one that is not finite. -/
def isNumber (text : List Char) : Bool :=
  let sign (text : List Char) : List Char := match text with
    | '+' :: rest | '-' :: rest => rest
    | _ => text
  let unsigned := sign text
  let whole := unsigned.takeWhile Char.isDigit
  let rest := unsigned.drop whole.length
  let (fraction, rest) := match rest with
    | '.' :: rest => (rest.takeWhile Char.isDigit, rest.dropWhile Char.isDigit)
    | _ => ([], rest)
  let exponent (digits : List Char) : Bool := !digits.isEmpty && digits.all Char.isDigit
  ["inf", "infinity", "nan"].contains (String.ofList (unsigned.map Char.toLower)) ||
    (!(whole ++ fraction).isEmpty &&
      match rest with
      | [] => true
      | c :: rest => (c = 'e' || c = 'E') && exponent (sign rest))

/-- Why a field's value cannot be matched: a number is compared as one, anything else is a
pattern. -/
def fault? (text : List Char) : Option PatternFault :=
  if isNumber text then none
  else
    match scan? (text.length + 1) ⟨.usual, [], [], false, false⟩ text with
    | none => some .unreadable
    | some s => if s.wordEdge then some .wordEdge else none

example : fault? "a|b*".toList = none := by decide
example : fault? "(?P<x>a)+?".toList = none := by decide
example : fault? "[^]a-]".toList = none := by decide
example : fault? "*".toList = some .unreadable := by decide
example : fault? "[z-a]".toList = some .unreadable := by decide
example : fault? "+1.5".toList = none := by decide

end FieldPattern

end ClojureBuild.Cli
