import ClojureBuild.Shell.Source
/-!
Reading the words of a script, with their quotes and expansions.

Where a word ends, and what a quote or a backslash in it means, depends on what it stands in.
-/

namespace ClojureBuild.Shell

/-- What the characters stand in. -/
inductive Context where
  /-- A word of a command, which ends at a blank or a mark. -/
  | word
  /-- The operand of a parameter in braces, outside of quotes. -/
  | braced
  | quoted
  /-- The operand of a parameter in braces, in quotes or in a here-document; `inner` tells whether
  an inner pair of quotes is open. -/
  | bracedQuoted (document inner : Bool)
  | document
  /-- An expression, with the number of its open parentheses. -/
  | arithmetic (depth : Nat)
  | subscript (depth : Nat)
  /-- The pattern in front of a slash, or a number in front of a colon. -/
  | upTo (c : Char) (quoted : Bool)
deriving DecidableEq, Repr

def Context.isQuoted : Context → Bool
  | .word | .braced | .subscript _ => false
  | .upTo _ between => between
  | _ => true

def Context.knowsSingleQuotes : Context → Bool
  | .word | .braced | .subscript _ | .upTo .. => true
  | _ => false

/-- Whether a backslash in front of a character is taken away in a quoted context. -/
def Context.escapes (context : Context) (c : Char) : Bool :=
  c = '\\' || c = backquote || c = '$' ||
    (match context with
     | .quoted | .arithmetic _ => c = '"'
     | .bracedQuoted .. => c = '"' || c = closeBrace
     | .upTo _ true => c = '"' || c = closeBrace || c = '/'
     | _ => false)

def endsWord (c : Char) : Bool :=
  c = ' ' || c = '\t' || c = '\n' || c = ';' || c = '&' || c = '|' || c = '<' || c = '>' ||
    c = '(' || c = ')'

namespace Reader

def atEnd : Context → Reader Word
  | .word | .document => return []
  | .braced | .bracedQuoted true _ | .upTo .. | .subscript _ =>
      refuse ("Missing '" ++ String.singleton closeBrace ++ "'")
  | .quoted | .bracedQuoted false _ => refuse "Unterminated quoted string"
  | .arithmetic _ => refuse "Missing '))'"

/-- The characters up to a single quote, as they are. -/
def readVerbatim : Reader Word := do
  let s ← get
  let inner := s.rest.takeWhile (· != '\'')
  match s.rest.drop inner.length with
  | [] =>
      set { s with rest := [], line := s.line + inner.count '\n' }
      refuse "Unterminated quoted string"
  | _ :: rest =>
      set { s with rest, line := s.line + inner.count '\n' }
      return .quotes :: plainWord true inner

/-- The script up to a backquote.  A backslash takes the meaning from some characters in it. -/
def readBackquoted (quoted : Bool) : Nat → Reader (List Char)
  | 0 => refuse "EOF in backquote substitution"
  | n + 1 => do
      match ← peek with
      | none => refuse "EOF in backquote substitution"
      | some c =>
          advanceOver c
          if c = backquote then return []
          else if c = '\\' then
            match (← get).rest.head? with
            | none => refuse "EOF in backquote substitution"
            | some d =>
                advanceOver d
                let rest ← readBackquoted quoted n
                if d = '\\' || d = backquote || d = '$' || (quoted && d = '"') then
                  return d :: rest
                else return '\\' :: d :: rest
          else return c :: (← readBackquoted quoted n)

def digitsValue (base : Nat) (digits : List Char) : Nat :=
  digits.foldl (fun n c =>
    n * base + (if c.isDigit then c.toNat - 48 else if c.isLower then c.toNat - 87 else
      c.toNat - 55)) 0

/-- Whether a character is a digit to base sixteen. -/
def isHexDigit (c : Char) : Bool :=
  c.isDigit || ('a' ≤ c && c ≤ 'f') || ('A' ≤ c && c ≤ 'F')

/-- Whether a character is a digit to base eight. -/
def isOctalDigit (c : Char) : Bool := '0' ≤ c && c ≤ '7'

/-- The character that a letter behind a backslash stands for. -/
def escapedChar? : Char → Option Char
  | 'a' => some (Char.ofNat 7)
  | 'b' => some (Char.ofNat 8)
  | 'f' => some (Char.ofNat 12)
  | 'n' => some '\n'
  | 'r' => some '\r'
  | 't' => some '\t'
  | 'v' => some (Char.ofNat 11)
  | '\\' => some '\\'
  | _ => none

/-- The characters up to a single quote, with escapes carried out. -/
def readEscaped : Nat → Reader (List Char)
  | 0 => refuse "Unterminated quoted string"
  | n + 1 => do
      match (← get).rest with
      | [] => refuse "Unterminated quoted string"
      | '\'' :: _ =>
          advance
          return []
      | '\\' :: c :: rest =>
          let take (k : Nat) (d : Char) : Reader (List Char) := do
            modify fun s => { s with rest := rest.drop k }
            return d :: (← readEscaped n)
          if c = 'x' then
            let digits := (rest.take 2).takeWhile isHexDigit
            take digits.length (Char.ofNat (digitsValue 16 digits))
          else if isOctalDigit c then
            let digits := c :: (rest.take 2).takeWhile isOctalDigit
            take (digits.length - 1) (Char.ofNat (digitsValue 8 digits % 256))
          else if c = 'e' || c = 'E' then take 0 (Char.ofNat 27)
          else if c = '\'' || c = '"' || c = '?' then take 0 c
          else
            match escapedChar? c with
            | some d => take 0 d
            | none =>
                modify fun s => { s with rest }
                return '\\' :: c :: (← readEscaped n)
      | c :: _ =>
          advanceOver c
          return c :: (← readEscaped n)

/-- The operations that a colon may stand in front of. -/
def defaultOperation? (emptyToo : Bool) : Char → Option Operation
  | '-' => some (.orElse emptyToo)
  | '=' => some (.assign emptyToo)
  | '+' => some (.instead emptyToo)
  | '?' => some (.require emptyToo)
  | _ => none

def operandContext : Context → Context
  | .word | .braced | .subscript _ | .upTo _ false => .braced
  | .document | .bracedQuoted true _ => .bracedQuoted true false
  | _ => .bracedQuoted false false

/-- What stands behind the name of a parameter in braces. -/
def readOperation (parts : Context → Reader Word) (context : Context) (name : String)
    (subscript : Word) : Reader Part := do
  let quoted := context.isQuoted
  let operand := operandContext context
  let bash := (← get).dialect = .bash
  let build (operation : Operation) (context : Context) : Reader Part := do
    return .parameter quoted name subscript operation (← parts context) []
  match ← peek with
  | none => build .unknown operand
  | some c =>
      if c = closeBrace then
        advance
        return .parameter quoted name subscript .value [] []
      else if c = ':' then
        advance
        match ← peek with
        | some d =>
            match defaultOperation? true d with
            | some operation =>
                advance
                build operation operand
            | none =>
                if bash then
                  let start ← parts (.upTo ':' true)
                  let ended := (← get).last.isMark ":"
                  let length ← if ended then parts (.bracedQuoted false false) else pure []
                  return .parameter quoted name subscript .slice start
                    (if ended then .quotes :: length else [])
                else build .unknown operand
        | none => build .unknown operand
      else if c = '#' || c = '%' then
        advance
        let longest ← accept c
        build (if c = '#' then .dropFront longest else .dropBack longest) .braced
      else
        match defaultOperation? false c with
        | some operation =>
            advance
            build operation operand
        | none =>
            if bash && c = '/' then
              advance
              let operation ←
                if ← accept '/' then pure .replaceAll
                else if ← accept '#' then pure .replaceFront
                else if ← accept '%' then pure .replaceBack
                else pure Operation.replace
              let pattern ← parts (.upTo '/' false)
              let ended := (← get).last.isMark "/"
              let text ← if ended then parts operand else pure []
              return .parameter quoted name subscript operation pattern text
            else if bash && (c = '^' || c = ',') then
              advance
              let all ← accept c
              build (if c = '^' then .raise all else .lower all) .braced
            else
              advance
              build .unknown operand

/-- The name of a parameter, and the subscript behind it. -/
def readNamed (parts : Context → Reader Word) : Reader (String × Word) := do
  let name ← takeWhile isNameChar
  if (← get).dialect = .bash && (← peek) = some '[' then
    advance
    return (String.ofList name, ← parts (.subscript 0))
  else return (String.ofList name, [])

def readBraced (parts : Context → Reader Word) (context : Context) : Reader Part := do
  let quoted := context.isQuoted
  let unknown : Reader Part := do
    return .parameter quoted "" [] .unknown (← parts (operandContext context)) []
  match ← peek with
  | none => unknown
  | some c =>
      if isNameStart c then
        let (name, subscript) ← readNamed parts
        readOperation parts context name subscript
      else if c.isDigit then
        let name ← takeWhile Char.isDigit
        readOperation parts context (String.ofList name) []
      else if c = '#' then
        advance
        match ← peek with
        | none => unknown
        | some d =>
            if isNameChar d then
              let (name, subscript) ←
                if d.isDigit then
                  let digits ← takeWhile Char.isDigit
                  pure (String.ofList digits, [])
                else readNamed parts
              if ← accept closeBrace then
                return .parameter quoted name subscript .length [] []
              else unknown
            else if d ≠ closeBrace && ((← get).rest.drop 1).head? = some closeBrace then
              if isSpecialParameter d then
                advance
                advance
                return .parameter quoted (String.singleton d) [] .length [] []
              else unknown
            else readOperation parts context "#" []
      else if c = '!' && (← get).dialect = .bash && ((← get).rest.drop 1).head?.any isNameStart then
        advance
        let (name, subscript) ← readNamed parts
        let operation := if subscript.isEmpty then .indirect else Operation.subscripts
        return .parameter quoted name subscript operation (← parts (operandContext context)) []
      else if isSpecialParameter c then
        advance
        readOperation parts context (String.singleton c) []
      else unknown

/-- The text of a script up to the parenthesis that closes it, with the line on which it begins. -/
def readInner (script : Reader Unit) : Reader (Nat × List Char) := do
  let outer ← get
  set { outer with aliases := [], pending := [], pushed := false }
  script
  let inner ← get
  unless inner.last.isMark ")" do
    refuse (inner.last.describe ++ " unexpected (expecting \")\")")
  set { outer with rest := inner.rest, line := inner.line }
  let length := outer.rest.length - inner.rest.length - 1
  return (outer.line, outer.rest.take length)

/-- Whether a file that holds the output of a script is meant by what comes next. -/
def beginsStream (s : Source) : Bool :=
  s.dialect = .bash && (match s.rest with
    | '<' :: '(' :: _ => true
    | _ => false)

/-- What stands behind a dollar sign.  `script` reads the commands of a script up to its end. -/
def readDollar (parts : Context → Reader Word) (script : Reader Unit) (context : Context) :
    Reader Word := do
  let quoted := context.isQuoted
  match ← peek with
  | none => return [.char quoted '$']
  | some c =>
      if c = '(' then
        advance
        if ← accept '(' then
          return [.arithmetic quoted (← parts (.arithmetic 0))]
        else
          let (line, text) ← readInner script
          return [.output quoted line text]
      else if c = openBrace then
        advance
        return [← readBraced parts context]
      else if isNameStart c then
        let name ← takeWhile isNameChar
        return [.ofParameter quoted (String.ofList name)]
      else if isSpecialParameter c then
        advance
        return [.ofParameter quoted (String.singleton c)]
      else if (← get).dialect = .bash && c = '\'' && context.knowsSingleQuotes then
        advance
        let text ← readEscaped ((← get).rest.length + 1)
        return .quotes :: plainWord true text
      else if (← get).dialect = .bash && c = '"' && context.knowsSingleQuotes then return []
      else return [.char quoted '$']

/-- The parts between two double quotes.  A list of arguments alone may be no field at all. -/
def betweenQuotes (parts : Word) : Word :=
  match parts with
  | [part] => if part.isQuotedList then parts else .quotes :: parts
  | _ => .quotes :: parts

/-- Reads the parts of a word in a context, and passes over what ends it unless it is a word of a
command.  The number bounds the characters. -/
def readParts (script : Reader Unit) : Nat → Context → Reader Word
  | 0, _ => refuse "Word too long"
  | n + 1, context => do
      let quoted := context.isQuoted
      let plain (c : Char) (next : Context) : Reader Word := do
        return .char quoted c :: (← readParts script n next)
      match ← peek with
      | none => atEnd context
      | some c =>
          if context = .word && endsWord c then
            if beginsStream (← get) then
              advance
              advance
              let (line, text) ← readInner script
              return .stream line text :: (← readParts script n context)
            else return []
          else
            advanceOver c
            if c = '\\' then
              match (← get).rest.head? with
              | none => return [.char true '\\']
              | some d =>
                  advanceOver d
                  let rest ← readParts script n context
                  if quoted && !context.escapes d then
                    return .char true '\\' :: .char true d :: rest
                  else return .quotes :: .char true d :: rest
            else if c = '$' then
              let part ← readDollar (readParts script n) script context
              return part ++ (← readParts script n context)
            else if c = backquote then
              let text ← readBackquoted quoted n
              within text 1 script
              return .output quoted 1 text :: (← readParts script n context)
            else if c = '\'' && context.knowsSingleQuotes then
              let inner ← readVerbatim
              return inner ++ (← readParts script n context)
            else if c = '"' then
              match context with
              | .word | .braced | .subscript _ | .upTo .. =>
                  let inner ← readParts script n .quoted
                  return betweenQuotes inner ++ (← readParts script n context)
              | .quoted => return []
              | .bracedQuoted document inner =>
                  readParts script n (.bracedQuoted document (!inner))
              | .document => plain c context
              | .arithmetic _ =>
                  if (← get).dialect = .bash then readParts script n context else plain c context
            else if c = closeBrace then
              match context with
              | .braced | .bracedQuoted _ false => return []
              | .upTo .. =>
                  modify fun s => { s with last := .mark (String.singleton closeBrace) }
                  return []
              | _ => plain c context
            else
              match context with
              | .arithmetic depth =>
                  if c = '(' then plain c (.arithmetic (depth + 1))
                  else if c = ')' then
                    if 0 < depth then plain c (.arithmetic (depth - 1))
                    else if ← accept ')' then return []
                    else plain c context
                  else plain c context
              | .subscript depth =>
                  if c = '[' then plain c (.subscript (depth + 1))
                  else if c = ']' then
                    if 0 < depth then plain c (.subscript (depth - 1)) else return []
                  else plain c context
              | .upTo stop _ =>
                  if c = stop then
                    modify fun s => { s with last := .mark (String.singleton stop) }
                    return []
                  else plain c context
              | _ => plain c context

def readWhole (script : Reader Unit) (text : List Char) (line : Nat) (context : Context) :
    Reader Word :=
  within text line (readParts script (text.length + 2) context)

/-- Reads the here-documents that the line before asked for. -/
def readDocuments (script : Reader Unit) : Reader Unit := do
  let waiting := (← get).pending
  modify fun s => { s with pending := [] }
  waiting.forM fun d => do
    let s ← get
    let (text, lines, rest) := documentLines d (s.rest.length + 1) false s.rest
    set { s with rest, line := s.line + lines }
    let word ←
      if d.verbatim then pure (plainWord true text) else readWhole script text s.line .document
    modify fun s => { s with documents := s.documents ++ [(d.number, word)] }

end Reader

end ClojureBuild.Shell
