import ClojureBuild.Shell.Syntax
/-!
The text of a script while it is read.

A backslash in front of a line end joins two lines wherever it is not between single quotes.  The
text of a here-document stands behind the line that asks for it, and is read when that line ends.
-/

namespace ClojureBuild.Shell

/-- A token of a script. -/
inductive Token where
  | word (parts : Word) (quoted : Bool)
  /-- A word that has a meaning where a command begins. -/
  | keyword (name : String)
  | redirect (descriptor : Nat) (kind : RedirectKind)
  /-- The start of a here-document; its lines may lose the tabulators in front of them. -/
  | document (descriptor : Nat) (stripped : Bool)
  | mark (text : String)
  | lineEnd
  | fileEnd
deriving Inhabited

def Token.describe : Token → String
  | .word .. => "word"
  | .keyword name => "\"" ++ name ++ "\""
  | .redirect .. | .document .. => "redirection"
  | .mark text => "\"" ++ text ++ "\""
  | .lineEnd => "newline"
  | .fileEnd => "end of file"

def Token.isMark (token : Token) (text : String) : Bool :=
  match token with
  | .mark t => t == text
  | _ => false

def Token.isKeyword (token : Token) (name : String) : Bool :=
  match token with
  | .keyword k => k == name
  | _ => false

def Token.text : Token → String
  | .word parts _ => String.ofList (parts.filterMap fun
      | .char _ c => some c
      | _ => none)
  | .keyword name => name
  | .mark text => text
  | .redirect .. | .document .. => "<"
  | .lineEnd => "newline"
  | .fileEnd => ""

/-- Why a text is no script: a wording, and the token that should not be there if that is the
reason; it is empty at the end of the text. -/
structure SyntaxError where
  line : Nat
  message : String
  token : Option String
deriving DecidableEq, Repr, Inhabited

/-- A here-document whose text has not been read yet. -/
structure PendingDocument where
  number : Nat
  stripped : Bool
  marker : List Char
  /-- Whether nothing in the text is expanded. -/
  verbatim : Bool
deriving Inhabited

/-- A script that is being read. -/
structure Source where
  rest : List Char
  line : Nat
  dialect : Dialect
  aliases : List (String × String)
  /-- The aliases whose text is being read, each with the length of the text behind it. -/
  busy : List (String × Nat)
  pending : List PendingDocument
  /-- The here-documents that were read, by their numbers. -/
  documents : List (Nat × Word)
  nextNumber : Nat
  last : Token
  /-- Whether the last token is to be read once more. -/
  pushed : Bool
deriving Inhabited

/-- Reading a script, which may meet a syntax error. -/
abbrev Reader := ExceptT SyntaxError (StateM Source)

namespace Reader

/-- Refuses the text, at the line that is being read. -/
def refuse {α : Type} (message : String) : Reader α := do
  throw ⟨(← get).line, message, none⟩

/-- The text behind joined lines, and how many lines were joined. -/
def dropJoins : List Char → Nat × List Char
  | '\\' :: '\n' :: rest =>
      let (n, rest) := dropJoins rest
      (n + 1, rest)
  | rest => (0, rest)

def peek : Reader (Option Char) := do
  let s ← get
  let (joined, rest) := dropJoins s.rest
  set { s with rest, line := s.line + joined }
  return rest.head?

def advance : Reader Unit :=
  modify fun s => { s with rest := s.rest.tail }

/-- Passes over one character, which may be a line end. -/
def advanceOver (c : Char) : Reader Unit :=
  modify fun s => { s with rest := s.rest.tail, line := if c = '\n' then s.line + 1 else s.line }

/-- Passes over the next character if it is the given one. -/
def accept (c : Char) : Reader Bool := do
  if (← peek) = some c then
    advance
    return true
  else return false

/-- Passes over the next character if it is the given one, where that is known. -/
def acceptIf (known : Bool) (c : Char) : Reader Bool :=
  if known then accept c else return false

/-- The characters at the front that meet a condition, over joined lines. -/
def spanJoined (p : Char → Bool) : List Char → List Char × Nat × List Char
  | '\\' :: '\n' :: rest =>
      let (taken, joined, rest) := spanJoined p rest
      (taken, joined + 1, rest)
  | c :: rest =>
      if p c then
        let (taken, joined, rest) := spanJoined p rest
        (c :: taken, joined, rest)
      else ([], 0, c :: rest)
  | [] => ([], 0, [])

/-- Takes the characters that meet a condition. -/
def takeWhile (p : Char → Bool) : Reader (List Char) := do
  let s ← get
  let (taken, joined, rest) := spanJoined p s.rest
  set { s with rest, line := s.line + joined }
  return taken

/-- Makes the last token the next one. -/
def pushBack : Reader Unit :=
  modify fun s => { s with pushed := true }

/-- Reads a text of its own, and goes on behind the present place. -/
def within {α : Type} (text : List Char) (line : Nat) (read : Reader α) : Reader α := do
  let outer ← get
  set { outer with rest := text, line, busy := [], pending := [], pushed := false }
  let a ← read
  let inner ← get
  set { outer with documents := inner.documents, nextNumber := inner.nextNumber }
  return a

/-- The length of the text without the part of an alias that is still to be read decides which
aliases may be used again. -/
def releaseAliases : Reader Unit :=
  modify fun s => { s with busy := s.busy.filter fun (_, length) => length < s.rest.length }

end Reader

def dropTabs (line : List Char) : List Char := line.dropWhile (· == '\t')

def isJoined (line : List Char) : Bool :=
  (line.reverse.takeWhile (· == '\\')).length % 2 == 1

/-- The lines of a here-document, the number of lines up to its end, and the text behind it.  A line
that is joined to the one before cannot be the last one. -/
def documentLines (d : PendingDocument) : Nat → Bool → List Char → List Char × Nat × List Char
  | 0, _, rest => ([], 0, rest)
  | _, _, [] => ([], 0, [])
  | n + 1, joined, rest =>
      let line := rest.takeWhile (· != '\n')
      let behind := rest.drop line.length
      let shown := if d.stripped && !joined then dropTabs line else line
      if shown = d.marker && !joined then ([], 1, behind.drop 1)
      else
        let (text, lines, rest) :=
          documentLines d n (!d.verbatim && isJoined line) (behind.drop 1)
        (shown ++ (if behind.isEmpty then text else '\n' :: text), lines + 1, rest)

end ClojureBuild.Shell
