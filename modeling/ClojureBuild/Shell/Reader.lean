import ClojureBuild.Shell.WordReader
import ClojureBuild.Text.Split
/-!
Reading the commands of a script.

A script is read line by line, and what a line says is carried out before the next one is read; a
line goes on while a command in it is not complete.
-/

namespace ClojureBuild.Shell

/-- The words that have a meaning where a command begins. -/
def keywords (dialect : Dialect) : List String :=
  ["!", "case", "do", "done", "elif", "else", "esac", "fi", "for", "if", "in", "then", "until",
    "while", String.singleton openBrace, String.singleton closeBrace] ++
  (if dialect = .bash then ["function", "[[", "time"] else [])

/-- The built-in commands whose failure ends a script.  No function may have such a name. -/
def specialBuiltins : List String :=
  [".", ":", "break", "continue", "eval", "exec", "exit", "export", "readonly", "return", "set",
    "shift", "times", "trap", "unset"]

/-- How the next token is looked at. -/
structure Look where
  skipLineEnds : Bool
  keywords : Bool
  aliases : Bool

namespace Look

def plain : Look := ⟨false, false, false⟩

def command : Look := ⟨false, true, true⟩

/-- Where a command begins, perhaps on a later line. -/
def laterCommand : Look := ⟨true, true, true⟩

/-- Where a keyword may stand, perhaps on a later line, and no alias is looked for. -/
def laterKeyword : Look := ⟨true, true, false⟩

/-- Where a word is still the name of a command. -/
def name : Look := ⟨false, false, true⟩

end Look

namespace Reader

/-- The text behind blanks and a comment, and how many lines were joined. -/
def dropBlanks : List Char → Nat × List Char
  | ' ' :: rest => dropBlanks rest
  | '\t' :: rest => dropBlanks rest
  | '\\' :: '\n' :: rest =>
      let (n, rest) := dropBlanks rest
      (n + 1, rest)
  | '#' :: rest => (0, rest.dropWhile (· != '\n'))
  | rest => (0, rest)

/-- The redirection that a mark stands for, when the character has been passed over. -/
def readRedirectMark (digits : List Char) (c : Char) : Reader Token := do
  let bash := (← get).dialect = .bash
  let number := digitsValue 10 digits
  let descriptor := if !digits.isEmpty then number else if c = '>' then 1 else 0
  let redirect (kind : RedirectKind) : Reader Token := return .redirect descriptor kind
  if c = '>' then
    if ← accept '>' then redirect .append
    else if ← accept '|' then redirect .overwrite
    else if ← accept '&' then redirect (.duplicate true)
    else redirect .write
  else if ← accept '<' then
    if ← acceptIf bash '<' then redirect .text
    else return .document descriptor (← accept '-')
  else if ← accept '&' then redirect (.duplicate false)
  else if ← accept '>' then redirect .readWrite
  else redirect .read

def descriptorDigits? (dialect : Dialect) (parts : Word) : Option (List Char) :=
  match plainText? parts with
  | some digits =>
      if digits.all Char.isDigit && (digits.length ≤ 1 || dialect = .bash) then some digits
      else none
  | none => none

def hasQuotes (parts : Word) : Bool :=
  parts.any fun
    | .quotes | .char true _ | .parameter true .. | .output true .. | .arithmetic true _ => true
    | _ => false

/-- A mark of one character, or of two when it is doubled. -/
def readMark (c : Char) : Reader Token := do
  if ← accept c then return .mark (String.ofList [c, c]) else return .mark (String.singleton c)

def readToken (script : Reader Unit) : Reader Token := do
  modify fun s =>
    let (joined, rest) := dropBlanks s.rest
    { s with rest, line := s.line + joined }
  releaseAliases
  let bash := (← get).dialect = .bash
  match ← peek with
  | none => return .fileEnd
  | some '\n' =>
      advanceOver '\n'
      return .lineEnd
  | some c =>
      if c = '&' && bash && ((← get).rest.drop 1).head? = some '>' then
        advance
        advance
        return .redirect 1 (if ← accept '>' then .appendBoth else .writeBoth)
      else if c = ';' then
        advance
        if ← accept ';' then
          if ← acceptIf bash '&' then return .mark ";;&" else return .mark ";;"
        else if ← acceptIf bash '&' then return .mark ";&"
        else return .mark ";"
      else if c = '&' then
        advance
        readMark c
      else if c = '|' then
        advance
        if ← acceptIf bash '&' then return .mark "|&" else readMark c
      else if c = '(' || c = ')' then
        advance
        return .mark (String.singleton c)
      else
        let parts ← readParts script ((← get).rest.length + 2) .word
        let stop ← peek
        match stop, descriptorDigits? (← get).dialect parts with
        | some d, some digits =>
            if d = '<' || d = '>' then
              advance
              readRedirectMark digits d
            else return .word parts (hasQuotes parts)
        | _, _ => return .word parts (hasQuotes parts)

/-- The text of an alias that is not being read already. -/
def alias? (s : Source) (name : String) : Option String :=
  if s.busy.any (·.1 == name) then none
  else (s.aliases.find? (·.1 == name)).map (·.2)

/-- The next token under a look; the number bounds the line ends and aliases. -/
def nextWithin (script : Reader Unit) (look : Look) : Nat → Token → Reader Token
  | 0, token => return token
  | n + 1, token => do
      match token with
      | .lineEnd =>
          if look.skipLineEnds then
            readDocuments script
            nextWithin script look n (← readToken script)
          else return token
      | .word parts false =>
          match plainText? parts with
          | none => return token
          | some text =>
              let name := String.ofList text
              if look.keywords && (keywords (← get).dialect).contains name then
                return .keyword name
              else if look.aliases then
                match alias? (← get) name with
                | some text =>
                    modify fun s => { s with
                      rest := text.toList ++ s.rest, busy := (name, s.rest.length) :: s.busy }
                    nextWithin script look n (← readToken script)
                | none => return token
              else return token
      | token => return token

def next (script : Reader Unit) (look : Look) : Reader Token := do
  let s ← get
  set { s with pushed := false }
  let token ← if s.pushed then pure s.last else readToken script
  let token ← nextWithin script look (s.rest.length + 100) token
  modify fun s => { s with last := token }
  return token

def inQuotes (text : String) : String := "\"" ++ text ++ "\""

/-- Refuses the last token; another one may have been expected. -/
def unexpected {α : Type} (expected : Option String) : Reader α := do
  let s ← get
  let hint := match expected with
    | some token => " (expecting " ++ token ++ ")"
    | none => ""
  throw ⟨s.line, s.last.describe ++ " unexpected" ++ hint, some s.last.text⟩

def demand (script : Reader Unit) (look : Look) (keyword : String) : Reader Unit := do
  let token ← next script look
  unless token.isKeyword keyword do unexpected (some (inQuotes keyword))

def demandMark (script : Reader Unit) (mark : String) : Reader Unit := do
  unless (← next script .plain).isMark mark do unexpected (some (inQuotes mark))

/-- Notes a here-document that is to be read at the end of the line. -/
def expectDocument (stripped : Bool) (marker : Word) : Reader Nat := do
  let number := (← get).nextNumber
  let text := marker.filterMap fun
    | .char _ c => some c
    | _ => none
  modify fun s => { s with
    nextNumber := number + 1
    pending := s.pending ++ [⟨number, stripped, text, hasQuotes marker⟩] }
  return number

/-- What stands behind the mark of a redirection. -/
def readRedirect (script : Reader Unit) (token : Token) : Reader Redirect := do
  let target ← next script .plain
  match target, token with
  | .word parts _, .redirect descriptor kind => return ⟨descriptor, kind, parts⟩
  | .word parts _, .document descriptor stripped =>
      return ⟨descriptor, .document (← expectDocument stripped parts), []⟩
  | _, _ => unexpected none

def readRedirects (script : Reader Unit) : Nat → Look → Reader (List Redirect)
  | 0, _ => return []
  | n + 1, look => do
      let token ← next script look
      match token with
      | .redirect .. | .document .. =>
          let first ← readRedirect script token
          return first :: (← readRedirects script n .plain)
      | _ =>
          pushBack
          return []

/-- The words up to the closing parenthesis of a list of elements. -/
def readElements (script : Reader Unit) : Nat → Reader (List Word)
  | 0 => return []
  | n + 1 => do
      let token ← next script ⟨true, false, false⟩
      match token with
      | .word parts _ => return parts :: (← readElements script n)
      | _ => if token.isMark ")" then return [] else unexpected none

/-- The name at the front of an assignment, and what stands behind it. -/
def splitName : Word → List Char × Word
  | .char false c :: rest =>
      if isNameChar c then
        let (name, rest) := splitName rest
        (c :: name, rest)
      else ([], .char false c :: rest)
  | rest => ([], rest)

/-- The parts up to a closing bracket, and those behind it. -/
def splitSubscript : Nat → Word → Option (Word × Word)
  | _, [] => none
  | depth, part :: rest =>
      let deeper (d : Nat) : Option (Word × Word) :=
        (splitSubscript d rest).map fun (a, b) => (part :: a, b)
      match part with
      | .char false '[' => deeper (depth + 1)
      | .char false ']' => if depth = 0 then some ([], rest) else deeper (depth - 1)
      | _ => deeper depth

def assignment? (dialect : Dialect) (parts : Word) : Option Assignment :=
  let (name, rest) := splitName parts
  if !isName name then none
  else
    let ofRest (subscript : Word) : Word → Option Assignment
      | .char false '=' :: value => some ⟨String.ofList name, subscript, false, value, none⟩
      | .char false '+' :: .char false '=' :: value =>
          if dialect = .bash then some ⟨String.ofList name, subscript, true, value, none⟩ else none
      | _ => none
    match rest with
    | .char false '[' :: inside =>
        if dialect = .bash then
          match splitSubscript 0 inside with
          | some (subscript, rest) => ofRest subscript rest
          | none => none
        else none
    | rest => ofRest [] rest

/-- A simple command while it is read. -/
structure SimpleParts where
  assignments : List Assignment
  words : List Word
  redirects : List Redirect
deriving Inhabited

/-- What a simple command may turn out to be. -/
inductive SimpleResult where
  | command (parts : SimpleParts)
  | function (name : String)

def canNameFunction (dialect : Dialect) (name : List Char) : Bool :=
  match dialect with
  | .posix => isName name && !specialBuiltins.contains (String.ofList name)
  | .bash => !name.isEmpty && !name.any endsWord

/-- The built-in commands of one dialect that make lists of elements known. -/
def declares (dialect : Dialect) (words : List Word) : Bool :=
  dialect = .bash &&
    match words.head?.bind plainText? with
    | some name => ["declare", "local", "typeset", "readonly", "export"].contains
        (String.ofList name)
    | none => false

/-- Reads a simple command.  Two parentheses behind its first word begin a function. -/
def readSimple (script : Reader Unit) : Nat → SimpleParts → Reader SimpleResult
  | 0, parts => return .command parts
  | n + 1, parts => do
      let token ← next script (if parts.words.isEmpty then .name else .plain)
      let dialect := (← get).dialect
      match token with
      | .word word _ =>
          let assigned? := if parts.words.isEmpty || declares dialect parts.words then
              assignment? dialect word
            else none
          match assigned? with
          | some a =>
              if dialect = .bash && a.value.isEmpty && (← get).rest.head? = some '(' then
                advance
                let elements ← readElements script ((← get).rest.length + 1)
                let parts := { parts with
                  assignments := parts.assignments ++ [{ a with elements := some elements }] }
                readSimple script n parts
              else if parts.words.isEmpty then
                readSimple script n { parts with assignments := parts.assignments ++ [a] }
              else readSimple script n { parts with words := parts.words ++ [word] }
          | none => readSimple script n { parts with words := parts.words ++ [word] }
      | .redirect .. | .document .. =>
          let redirect ← readRedirect script token
          readSimple script n { parts with redirects := parts.redirects ++ [redirect] }
      | _ =>
          match token.isMark "(", parts with
          | true, ⟨[], [word], []⟩ =>
              let closing ← next script .plain
              unless closing.isMark ")" do unexpected (some (inQuotes ")"))
              let name := (plainText? word).getD []
              unless canNameFunction dialect name do refuse "Bad function name"
              return .function (String.ofList name)
          | _, _ =>
              pushBack
              return .command parts

def readWords (script : Reader Unit) : Nat → Reader (List Word)
  | 0 => return []
  | n + 1 => do
      match ← next script .plain with
      | .word parts _ => return parts :: (← readWords script n)
      | token =>
          match token with
          | .lineEnd => return []
          | _ => if token.isMark ";" then return [] else unexpected none

def patternWord : Token → Reader Word
  | .word parts _ => return parts
  | .keyword name => return plainWord false name.toList
  | _ => unexpected none

def readPatterns (script : Reader Unit) : Nat → Token → Reader (List Word)
  | 0, _ => return []
  | n + 1, token => do
      let word ← patternWord token
      let behind ← next script .plain
      if behind.isMark "|" then
        return word :: (← readPatterns script n (← next script .plain))
      else if behind.isMark ")" then return [word]
      else unexpected (some (inQuotes ")"))

/-! ### Conditions and calculations -/

/-- What is to be read of a condition. -/
inductive TruthGoal where
  | either
  | both
  | primary
deriving DecidableEq, Repr

/-- Whether a word without quotes is the operator of one operand. -/
def isUnaryOperator (text : List Char) : Bool :=
  match text with
  | ['-', c] => "abcdefghknoprstuvwxzGLNORS".toList.contains c
  | _ => false

/-- The operators with two operands between double brackets. -/
def binaryOperators : List String :=
  ["=", "==", "!=", "-eq", "-ne", "-lt", "-le", "-gt", "-ge", "-nt", "-ot", "-ef"]

/-- A regular expression, in which marks have no meaning of their own; the number bounds its
characters. -/
def readRegex (script : Reader Unit) : Nat → Reader Word
  | 0 => return []
  | n + 1 => do
      match ← peek with
      | none => return []
      | some c =>
          if c = ' ' || c = '\t' || c = '\n' then return []
          else if endsWord c then
            advance
            return .char false c :: (← readRegex script n)
          else
            let parts ← readParts script ((← get).rest.length + 2) .word
            return parts ++ (← readRegex script n)

/-- Over line ends, where no word has a meaning of its own. -/
def Look.operand : Look := ⟨true, false, false⟩

def readTruth (script : Reader Unit) : Nat → TruthGoal → Reader Truth
  | 0, _ => refuse "Too many conditions"
  | n + 1, goal => do
      let joined (sign : String) (part : TruthGoal) (build : Truth → Truth → Truth) :
          Reader Truth := do
        let left ← readTruth script n part
        if (← next script Look.operand).isMark sign then
          return build left (← readTruth script n goal)
        else
          pushBack
          return left
      let word : Reader Word := do
        match ← next script .plain with
        | .word parts _ => return parts
        | _ => unexpected none
      match goal with
      | .either => joined "||" .both .either
      | .both => joined "&&" .primary .both
      | .primary =>
          match ← next script Look.operand with
          | .word parts quoted =>
              let text := if quoted then [] else (plainText? parts).getD []
              if text = ['!'] then return .negated (← readTruth script n .primary)
              else if text = [']', ']'] then unexpected none
              else if isUnaryOperator text then
                return .unary (String.ofList text) (← word)
              else
                match ← next script Look.operand with
                | .redirect _ kind =>
                    return .binary (if kind = .read then "<" else ">") parts (← word)
                | .word operator false =>
                    let name := String.ofList ((plainText? operator).getD [])
                    if binaryOperators.contains name then return .binary name parts (← word)
                    else if name = "=~" then
                      modify fun s => { s with rest := s.rest.dropWhile (· == ' ') }
                      return .binary name parts (← readRegex script ((← get).rest.length + 1))
                    else
                      pushBack
                      return .given parts
                | _ =>
                    pushBack
                    return .given parts
          | token =>
              if token.isMark "(" then
                let inner ← readTruth script n .either
                unless (← next script Look.operand).isMark ")" do unexpected none
                return inner
              else unexpected none

/-- The text up to two closing parentheses that close nothing in it, and what stands behind them;
the number is that of the open ones. -/
def calculationText? : Nat → List Char → Option (List Char × List Char)
  | _, [] => none
  | 0, ')' :: rest =>
      match rest with
      | ')' :: rest => some ([], rest)
      | _ => none
  | depth + 1, ')' :: rest => (calculationText? depth rest).map fun (a, b) => (')' :: a, b)
  | depth, '(' :: rest => (calculationText? (depth + 1) rest).map fun (a, b) => ('(' :: a, b)
  | depth, c :: rest => (calculationText? depth rest).map fun (a, b) => (c :: a, b)

/-- The text of a calculation, if one begins behind the parenthesis that was read. -/
def readCalculation? : Reader (Option (List Char)) := do
  let s ← get
  match s.dialect, s.rest with
  | .bash, '(' :: rest =>
      match calculationText? 0 rest with
      | some (text, rest) =>
          set { s with rest, line := s.line + text.count '\n' }
          return some text
      | none => return none
  | _, _ => return none

def readExpression (script : Reader Unit) (line : Nat) (text : List Char) : Reader Word :=
  readWhole script (text.filter (· != '"')) line .document

end Reader

/-- What is to be read of a script. -/
inductive Goal where
  /-- A list of commands on one line; some of it may have been read. -/
  | line (begun : Bool)
  /-- A list of commands up to the word that ends it, which has to hold a command unless some of it
  has been read. -/
  | body (begun : Bool)
  /-- The rest of a list that is joined by `&&` and the like. -/
  | chain
  | chainRest (first : Command)
  | pipeline
  | pipelineRest (commands : List Command)
  | command
  /-- What stands behind the condition of a branch. -/
  | branch
  | arms (line : Nat) (subject : Word) (read : List (List Word × ArmEnd × Command))

def Command.andThen (first second : Command) : Command :=
  match second with
  | .nothing => first
  | _ => .sequence first second

namespace Reader

def endsList : Token → Bool
  | .fileEnd => true
  | .keyword name =>
      ["then", "do", "done", "elif", "else", "esac", "fi", String.singleton closeBrace].contains
        name
  | .mark text => [")", ";;", ";&", ";;&"].contains text
  | _ => false

/-- Reads what is asked for; the number bounds the commands. -/
def read : Nat → Goal → Reader Command
  | 0, _ => refuse "Too many commands"
  | n + 1, goal => do
      let script : Reader Unit := do
        let _ ← read n (.body true)
        let _ ← next (refuse "Nested too deeply") .plain
      let next := next script
      let demand := demand script
      let readList (begun inLine : Bool) : Reader Command := do
        let token ← next (if inLine then .command else .laterCommand)
        let again := fun begun => read n (if inLine then .line begun else .body begun)
        match token, inLine with
        | .lineEnd, true =>
            readDocuments script
            return .nothing
        | .fileEnd, _ =>
            readDocuments script
            pushBack
            return .nothing
        | _, _ =>
            pushBack
            if !inLine && begun && endsList token then return .nothing
            else
              let first ← read n .chain
              let token ← next .plain
              let line := (← get).line
              match token with
              | .fileEnd =>
                  readDocuments script
                  pushBack
                  return first
              | .lineEnd =>
                  pushBack
                  return first.andThen (← again true)
              | _ =>
                  if token.isMark "&" then
                    return (Command.background line first).andThen (← again true)
                  else if token.isMark ";" then return first.andThen (← again true)
                  else if inLine then unexpected none
                  else
                    pushBack
                    return first
      match goal with
      | .line begun => readList begun true
      | .body begun => readList begun false
      | .chain => read n (.chainRest (← read n .pipeline))
      | .chainRest first =>
          let token ← next .plain
          let join (build : Command → Command → Command) : Reader Command := do
            let token ← next .laterCommand
            modify fun s => { s with last := token, pushed := true }
            read n (.chainRest (build first (← read n .pipeline)))
          if token.isMark "&&" then join .both
          else if token.isMark "||" then join .either
          else
            pushBack
            return first
      | .pipeline =>
          let token ← next .plain
          let token ← if token.isKeyword "time" then next .command else pure token
          let negated := token.isKeyword "!"
          if negated then
            let _ ← next .command
          pushBack
          let first ← read n .command
          let whole ← read n (.pipelineRest [first])
          return if negated then .negated whole else whole
      | .pipelineRest commands =>
          let token ← next .plain
          if token.isMark "|" || token.isMark "|&" then
            let _ ← next .laterCommand
            pushBack
            read n (.pipelineRest (commands ++ [← read n .command]))
          else
            pushBack
            match commands with
            | [only] => return only
            | _ => return .pipeline commands
      | .branch =>
          let condition ← read n (.body false)
          demand .plain "then"
          let yes ← read n (.body false)
          let token ← next .plain
          if token.isKeyword "elif" then return .branch condition yes (← read n .branch)
          else if token.isKeyword "else" then
            return .branch condition yes (← read n (.body false))
          else
            pushBack
            return .branch condition yes .nothing
      | .arms line subject arms =>
          let token ← next .laterKeyword
          if token.isKeyword "esac" then return .choice line subject arms
          else
            let first ← if token.isMark "(" then next .plain else pure token
            let patterns ← readPatterns script ((← get).rest.length + 1) first
            let body ← read n (.body true)
            let withEnd (e : ArmEnd) := arms ++ [(patterns, e, body)]
            let token ← next .laterKeyword
            if token.isKeyword "esac" then return .choice line subject (withEnd .leave)
            else if token.isMark ";;" then read n (.arms line subject (withEnd .leave))
            else if token.isMark ";&" then read n (.arms line subject (withEnd .goOn))
            else if token.isMark ";;&" then read n (.arms line subject (withEnd .lookOn))
            else unexpected (some (inQuotes ";;"))
      | .command =>
          let line := (← get).line
          let token ← next .plain
          let finish (closing : Token → Bool) (name : String) (body : Command) :
              Reader Command := do
            unless closing (← next .plain) do unexpected (some (inQuotes name))
            let redirects ← readRedirects script ((← get).rest.length + 1) .command
            match body, redirects with
            | .subshell line body _, redirects => return .subshell line body redirects
            | body, [] => return body
            | body, redirects => return .redirected line body redirects
          let keyword (name : String) (body : Command) : Reader Command :=
            finish (·.isKeyword name) name body
          match token with
          | .word .. | .redirect .. | .document .. =>
              let line := (← get).line
              pushBack
              match ← readSimple script ((← get).rest.length + 2) default with
              | .command parts =>
                  return .simple line parts.assignments parts.words parts.redirects
              | .function name =>
                  let line := (← get).line
                  let _ ← next .laterCommand
                  pushBack
                  return .define line name (← read n .command)
          | .keyword "if" => keyword "fi" (← read n .branch)
          | .keyword "while" | .keyword "until" =>
              let condition ← read n (.body false)
              demand .plain "do"
              let body ← read n (.body false)
              keyword "done" (.loop (token.isKeyword "until") condition body)
          | .keyword "[[" =>
              let truth ← readTruth script ((← get).rest.length + 2) .either
              let isEnd : Token → Bool
                | .word parts false => plainText? parts == some [']', ']']
                | _ => false
              finish isEnd "]]" (.condition line truth)
          | .keyword "function" =>
              match ← next .plain with
              | .word parts false =>
                  let token ← next .laterCommand
                  if token.isMark "(" then
                    demandMark script ")"
                    let _ ← next .laterCommand
                  pushBack
                  return .define line (String.ofList ((plainText? parts).getD []))
                    (← read n .command)
              | _ => unexpected none
          | .keyword "for" =>
              match ← next .plain with
              | .mark "(" =>
                  match ← readCalculation? with
                  | none => unexpected none
                  | some text =>
                      let clauses := Text.splitOn ';' text
                      let clause (i : Nat) : Reader Word :=
                        readExpression script line (clauses[i]?.getD [])
                      let (start, condition, step) := (← clause 0, ← clause 1, ← clause 2)
                      let token ← next .laterCommand
                      let token ← if token.isMark ";" then next .laterCommand else pure token
                      let inBraces := token.isKeyword (String.singleton openBrace)
                      unless inBraces || token.isKeyword "do" do
                        unexpected (some (inQuotes "do"))
                      let body ← read n (.body false)
                      let last := if inBraces then String.singleton closeBrace else "done"
                      keyword last (.forCount line start condition step body)
              | .word parts false =>
                  let name := (plainText? parts).getD []
                  unless isName name do refuse "Bad for loop variable"
                  let token ← next .laterCommand
                  let words ←
                    if token.isKeyword "in" then readWords script ((← get).rest.length + 1)
                    else do
                      unless token.isMark ";" do pushBack
                      pure [[Part.ofParameter true "@"]]
                  demand .laterCommand "do"
                  let body ← read n (.body false)
                  keyword "done" (.forEach line (String.ofList name) words body)
              | _ => refuse "Bad for loop variable"
          | .keyword "case" =>
              match ← next .plain with
              | .word subject _ =>
                  demand .laterCommand "in"
                  let choice ← read n (.arms line subject [])
                  let redirects ← readRedirects script ((← get).rest.length + 1) .command
                  return if redirects.isEmpty then choice else .redirected line choice redirects
              | _ => unexpected (some "word")
          | _ =>
              if token.isMark "(" then
                match ← readCalculation? with
                | some text =>
                    let expression ← readExpression script line text
                    let redirects ← readRedirects script ((← get).rest.length + 1) .command
                    let body := Command.calculation line expression
                    return if redirects.isEmpty then body else .redirected line body redirects
                | none => finish (·.isMark ")") ")" (.subshell line (← read n (.body false)) [])
              else if token.isKeyword (String.singleton openBrace) then
                keyword (String.singleton closeBrace) (← read n (.body false))
              else unexpected none

end Reader

def Reader.readScript (fuel : Nat) : Reader Unit := do
  let _ ← Reader.read fuel (.body true)
  let _ ← Reader.next (Reader.refuse "Nested too deeply") .plain

/-- Reads the next line of a script, with the lines that belong to it; nothing at the end. -/
def Source.readLine (s : Source) : Except SyntaxError (Option Command) × Source :=
  let fuel := 4 * s.rest.length + 100
  let reading : Reader (Option Command) := do
    match ← Reader.next (Reader.readScript fuel) .command with
    | .fileEnd => return none
    | _ =>
        Reader.pushBack
        return some (← Reader.read fuel (.line false))
  reading.run.run s

def Source.start (dialect : Dialect) (aliases : List (String × String)) (line : Nat)
    (nextNumber : Nat) (text : List Char) : Source :=
  { rest := text, line, dialect, aliases, busy := [], pending := [], documents := []
    nextNumber, last := .fileEnd, pushed := false }

/-- Whether nothing of a script is left behind the line that was read. -/
def Source.isAtEnd (s : Source) : Bool :=
  s.pushed && (match s.last with
    | .fileEnd => true
    | _ => false)

/-- The word that a whole text is when it stands between quotes. -/
def wordOf (dialect : Dialect) (text : String) : Word :=
  let chars := text.toList
  let source := Source.start dialect [] 1 0 chars
  let script := Reader.readScript (4 * chars.length + 100)
  match (Reader.readWhole script chars 1 .document).run.run source with
  | (.ok word, _) => word
  | (.error _, _) => plainWord true chars

end ClojureBuild.Shell
