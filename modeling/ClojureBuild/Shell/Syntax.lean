/-!
What shell scripts are made of: words with their expansions, redirections and commands.

All text is octet text.  A command substitution keeps the text of its script, which is read again
when it is carried out; a here-document is known by its number, because its text is read later than
the command that it belongs to.
-/

namespace ClojureBuild.Shell

/-- The language of a script: that of every POSIX shell, or with what `bash` adds. -/
inductive Dialect where
  | posix
  | bash
deriving DecidableEq, Repr, Inhabited

/-- What is done with the value of a parameter.  The Boolean of the first four says whether an empty
value counts as none, and that of the two next ones whether the longest match is meant. -/
inductive Operation where
  | value
  | length
  | orElse (emptyToo : Bool)
  | assign (emptyToo : Bool)
  | instead (emptyToo : Bool)
  | require (emptyToo : Bool)
  | dropFront (longest : Bool)
  | dropBack (longest : Bool)
  /-- A piece of the value, from a position and with a length. -/
  | slice
  /-- A replacement of the first match, of all, or of one at the front or the back. -/
  | replace
  | replaceAll
  | replaceFront
  | replaceBack
  | raise (all : Bool)
  | lower (all : Bool)
  /-- The value of the parameter that the value names. -/
  | indirect
  | subscripts
  | unknown
deriving DecidableEq, Repr, Inhabited

/-- A part of a word.  The Boolean says whether it stands between quotes. -/
inductive Part where
  | char (quoted : Bool) (c : Char)
  /-- A pair of quotes, which makes a field even if there is nothing in it. -/
  | quotes
  | parameter (quoted : Bool) (name : String) (subscript : List Part) (operation : Operation)
      (operand extra : List Part)
  | output (quoted : Bool) (line : Nat) (script : List Char)
  | arithmetic (quoted : Bool) (expression : List Part)
  /-- The name of a file that holds the output of a script. -/
  | stream (line : Nat) (script : List Char)
deriving Inhabited

/-- A word: its parts one after the other. -/
abbrev Word := List Part

/-- What a redirection does with a descriptor. -/
inductive RedirectKind where
  | read
  | write
  /-- Writes even where files are protected. -/
  | overwrite
  | append
  | readWrite
  /-- Makes the descriptor another one for the same open file. -/
  | duplicate (output : Bool)
  | document (number : Nat)
  /-- Reads the target itself. -/
  | text
  | writeBoth
  | appendBoth
deriving DecidableEq, Repr, Inhabited

/-- A redirection of a descriptor. -/
structure Redirect where
  descriptor : Nat
  kind : RedirectKind
  target : Word
deriving Inhabited

/-- The assignment of a value, or of a list of them. -/
structure Assignment where
  name : String
  subscript : Word
  added : Bool
  value : Word
  elements : Option (List Word)
deriving Inhabited

/-- A condition between double brackets. -/
inductive Truth where
  | given (text : Word)
  | unary (operator : String) (operand : Word)
  | binary (operator : String) (left right : Word)
  | negated (t : Truth)
  | both (a b : Truth)
  | either (a b : Truth)
deriving Inhabited

/-- What is done behind the commands of an arm that was chosen. -/
inductive ArmEnd where
  | leave
  /-- The commands of the next arm are carried out too. -/
  | goOn
  /-- The arms behind it are tried as well. -/
  | lookOn
deriving DecidableEq, Repr, Inhabited

/-- A command, with the line that messages about it show. -/
inductive Command where
  | nothing
  | simple (line : Nat) (assignments : List Assignment) (words : List Word)
      (redirects : List Redirect)
  | sequence (first second : Command)
  | both (first second : Command)
  | either (first second : Command)
  | negated (command : Command)
  | pipeline (commands : List Command)
  | background (line : Nat) (command : Command)
  | redirected (line : Nat) (body : Command) (redirects : List Redirect)
  | subshell (line : Nat) (body : Command) (redirects : List Redirect)
  | branch (condition yes no : Command)
  | loop (untilTrue : Bool) (condition body : Command)
  | forEach (line : Nat) (name : String) (words : List Word) (body : Command)
  | forCount (line : Nat) (start condition step : Word) (body : Command)
  | choice (line : Nat) (subject : Word) (arms : List (List Word × ArmEnd × Command))
  | define (line : Nat) (name : String) (body : Command)
  /-- The truth of a condition between double brackets. -/
  | condition (line : Nat) (truth : Truth)
  /-- The truth of an expression between double parentheses. -/
  | calculation (line : Nat) (expression : Word)
deriving Inhabited

/-! ### Characters -/

def isNameStart (c : Char) : Bool := c.isAlpha || c = '_'

def isNameChar (c : Char) : Bool := c.isAlphanum || c = '_'

def isName (text : List Char) : Bool :=
  match text with
  | c :: rest => isNameStart c && rest.all isNameChar
  | [] => false

/-- Whether a character names a parameter of its own. -/
def isSpecialParameter (c : Char) : Bool :=
  c = '@' || c = '*' || c = '#' || c = '?' || c = '$' || c = '!' || c = '-' || c.isDigit

def openBrace : Char := Char.ofNat 0x7b

def closeBrace : Char := Char.ofNat 0x7d

def backquote : Char := Char.ofNat 0x60

/-! ### Words -/

def plainWord (quoted : Bool) (chars : List Char) : Word := chars.map (.char quoted)

/-- The text of a word without quotes and expansions. -/
def plainText? : Word → Option (List Char)
  | [] => some []
  | .char false c :: rest => (plainText? rest).map (c :: ·)
  | _ => none

def Part.ofParameter (quoted : Bool) (name : String) : Part :=
  .parameter quoted name [] .value [] []

/-- Whether a part is the list of all arguments between quotes, which alone may stand for no field
at all. -/
def Part.isQuotedList : Part → Bool
  | .parameter true name subscript .value .. =>
      name == "@" || (match subscript with
        | [.char _ c] => c == '@'
        | _ => false)
  | _ => false

/-- The parts in front of an unquoted character, and those behind it. -/
def splitWord? (c : Char) : Word → Option (Word × Word)
  | [] => none
  | .char false d :: rest =>
      if d = c then some ([], rest)
      else (splitWord? c rest).map fun (a, b) => (.char false d :: a, b)
  | part :: rest => (splitWord? c rest).map fun (a, b) => (part :: a, b)

end ClojureBuild.Shell
