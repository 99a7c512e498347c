/-!
Shell patterns: `*` stands for any text, `?` for any character, and a bracket for a set of them.
-/

namespace ClojureBuild.Shell

/-- One member of a set: a range of characters, or a class that has a name. -/
inductive SetMember where
  | range (first last : Char)
  | named (name : String)
deriving DecidableEq, Repr

/-- One element of a pattern. -/
inductive PatternItem where
  | literal (c : Char)
  | anyChar
  | anyText
  | set (negated : Bool) (members : List SetMember)
deriving DecidableEq, Repr

def inClass (name : String) (c : Char) : Bool :=
  let printable := ' ' ≤ c && c ≤ '~'
  match name with
  | "alpha" => c.isAlpha
  | "digit" => c.isDigit
  | "alnum" => c.isAlphanum
  | "upper" => c.isUpper
  | "lower" => c.isLower
  | "space" => c = ' ' || ('\t' ≤ c && c ≤ '\r')
  | "blank" => c = ' ' || c = '\t'
  | "punct" => printable && c ≠ ' ' && !c.isAlphanum
  | "print" => printable
  | "graph" => printable && c ≠ ' '
  | "cntrl" => c < ' ' || c = Char.ofNat 127
  | "xdigit" => c.isDigit || ('a' ≤ c && c ≤ 'f') || ('A' ≤ c && c ≤ 'F')
  | _ => false

def SetMember.accepts : SetMember → Char → Bool
  | .range first last, c => first ≤ c && c ≤ last
  | .named name, c => inClass name c

/-- The name of a class between `[:` and `:]`, and what follows. -/
def readClass : List (Char × Bool) → Option (List Char × List (Char × Bool))
  | (':', _) :: (']', _) :: rest => some ([], rest)
  | (c, _) :: rest => if c.isLower then (readClass rest).map fun (a, b) => (c :: a, b) else none
  | [] => none

/-- The members of a set, up to its end; a bracket that comes first is one of them. -/
def readMembers : Nat → Bool → List (Char × Bool) →
    Option (List SetMember × List (Char × Bool))
  | 0, _, _ => none
  | _, _, [] => none
  | n + 1, first, (c, quoted) :: rest =>
      let more (member : SetMember) (rest : List (Char × Bool)) :=
        (readMembers n false rest).map fun (members, rest) => (member :: members, rest)
      if c = ']' && !quoted && !first then some ([], rest)
      else
        let single (c : Char) (rest : List (Char × Bool)) :=
          match rest with
          | ('-', false) :: (d, escaped) :: behind =>
              if d = ']' && !escaped then more (.range c c) rest
              else more (.range c d) behind
          | _ => more (.range c c) rest
        match c, rest with
        | '[', (':', false) :: inside =>
            match readClass inside with
            | some (name, behind) => more (.named (String.ofList name)) behind
            | none => single c rest
        | '\\', (d, _) :: behind => if quoted then single c rest else single d behind
        | _, _ => single c rest

/-- The pattern that characters spell; quoted ones stand for themselves.  Where the caret counts, it
negates a set like the exclamation mark. -/
def readPattern (caret : Bool) : Nat → List (Char × Bool) → List PatternItem
  | 0, _ => []
  | _, [] => []
  | n + 1, (c, quoted) :: rest =>
      if quoted then .literal c :: readPattern caret n rest
      else if c = '*' then .anyText :: readPattern caret n rest
      else if c = '?' then .anyChar :: readPattern caret n rest
      else if c = '\\' then
        match rest with
        | (d, _) :: behind => .literal d :: readPattern caret n behind
        | [] => [.literal c]
      else if c = '[' then
        let (negated, body) := match rest with
          | ('!', false) :: body => (true, body)
          | ('^', false) :: body => if caret then (true, body) else (false, rest)
          | body => (false, body)
        match readMembers (body.length + 1) true body with
        | some (members, rest) => .set negated members :: readPattern caret n rest
        | none => .literal c :: readPattern caret n rest
      else .literal c :: readPattern caret n rest

def patternOf (caret : Bool) (text : List (Char × Bool)) : List PatternItem :=
  readPattern caret (text.length + 1) text

def isPattern (text : List (Char × Bool)) : Bool :=
  text.any fun (c, quoted) => !quoted && (c = '*' || c = '?' || c = '[')

/-- Whether an item can stand for a single character. -/
def PatternItem.accepts : PatternItem → Char → Bool
  | .literal c, d => c == d
  | .anyChar, _ => true
  | .anyText, _ => true
  | .set negated members, d => members.any (·.accepts d) != negated

/-- Whether a pattern matches the front of a text, and everything behind it passes `rest`. -/
def anyRest (rest : List Char → Bool) : List Char → Bool
  | [] => rest []
  | c :: text => rest (c :: text) || anyRest rest text

def matchesAll : List PatternItem → List Char → Bool
  | [], text => text.isEmpty
  | .anyText :: items, text => anyRest (matchesAll items) text
  | item :: items, c :: text => item.accepts c && matchesAll items text
  | _ :: _, [] => false

/-- The splits of a text into a front and a back, shortest front first. -/
def splits (text : List Char) : List (List Char × List Char) :=
  (List.range (text.length + 1)).map fun n => (text.take n, text.drop n)

/-- The text without a front that matches: the shortest one, or the longest. -/
def dropMatchingFront (longest : Bool) (items : List PatternItem) (text : List Char) : List Char :=
  let tries := if longest then (splits text).reverse else splits text
  match tries.find? (fun (front, _) => matchesAll items front) with
  | some (_, back) => back
  | none => text

/-- The text without a back that matches: the shortest one, or the longest. -/
def dropMatchingBack (longest : Bool) (items : List PatternItem) (text : List Char) : List Char :=
  let tries := if longest then splits text else (splits text).reverse
  match tries.find? (fun (_, back) => matchesAll items back) with
  | some (front, _) => front
  | none => text

/-- The longest front of a text that matches, and what is behind it. -/
def longestMatch? (items : List PatternItem) (text : List Char) : Option (List Char × List Char) :=
  (splits text).reverse.find? fun (front, _) => matchesAll items front

/-- The text with the first match replaced, or all of them; the number bounds the matches. -/
def replaceMatches (all : Bool) (items : List PatternItem) (new : List Char) :
    Nat → List Char → List Char
  | 0, text => text
  | n + 1, text =>
      match longestMatch? items text with
      | some (front, back) =>
          if front.isEmpty then
            match text with
            | [] => []
            | c :: rest => c :: replaceMatches all items new n rest
          else new ++ (if all then replaceMatches all items new n back else back)
      | none =>
          match text with
          | [] => []
          | c :: rest => c :: replaceMatches all items new n rest

example : matchesAll (patternOf false ("[!a-c]*.[[:digit:]]".toList.map (·, false)))
    "xyz.7".toList = true := by decide +kernel

end ClojureBuild.Shell
