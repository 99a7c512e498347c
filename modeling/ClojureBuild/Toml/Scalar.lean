import ClojureBuild.Toml.Reader
import ClojureBuild.Toml.Value
import ClojureBuild.Text.Split
/-!
The scalars of TOML: keys, strings of four kinds, integers in four bases, floating-point numbers,
truth values, dates and times.
-/

namespace ClojureBuild.Toml

open Reader

/-! ## Characters -/

/-- Whether a character is white space within a line. -/
def isBlankChar (c : Char) : Bool := c = ' ' || c = '\t'

def isCommentChar (c : Char) : Bool := c = '\t' || (0x20 ≤ c.toNat && c.toNat ≠ 0x7f)

def isBareKeyChar (c : Char) : Bool := c.isAlphanum || c = '-' || c = '_'

/-- Whether a character is a digit to base sixteen. -/
def isHexDigit (c : Char) : Bool := c.isDigit || ('a' ≤ c && c ≤ 'f') || ('A' ≤ c && c ≤ 'F')

def digitValue (c : Char) : Nat :=
  if c.isDigit then c.toNat - '0'.toNat
  else if 'a' ≤ c && c ≤ 'f' then c.toNat - 'a'.toNat + 10
  else if 'A' ≤ c && c ≤ 'F' then c.toNat - 'A'.toNat + 10
  else 0

def numberOf (base : Nat) (digits : List Char) : Nat :=
  digits.foldl (fun n c => n * base + digitValue c) 0

def blanks : Reader Unit := fun text => some ((), text.dropWhile isBlankChar)

def newline : Reader Unit
  | '\n' :: rest => some ((), rest)
  | '\r' :: '\n' :: rest => some ((), rest)
  | _ => none

def comment : Reader Unit
  | '#' :: rest => some ((), rest.dropWhile isCommentChar)
  | _ => none

/-- Blanks, line ends and comments, of which there may be none. -/
def gap : Reader Unit := fun text =>
  let blank : Reader Unit := fun
    | c :: rest => if isBlankChar c then some ((), rest) else newline (c :: rest)
    | [] => none
  match many (either blank comment) text with
  | some (_, rest) => some ((), rest)
  | none => none

/-! ## Strings -/

/-- A character that stands for itself in a basic string. -/
def isBasicChar (c : Char) : Bool :=
  c = '\t' || (0x20 ≤ c.toNat && c.toNat ≠ 0x7f && c ≠ '"' && c ≠ '\\')

def isLiteralChar (c : Char) : Bool :=
  c = '\t' || (0x20 ≤ c.toNat && c.toNat ≠ 0x7f && c ≠ '\'')

def charNumbered? (n : Nat) : Option Char :=
  if n < 0xd800 || (0xe000 ≤ n && n < 0x110000) then some (Char.ofNat n) else none

/-- A character given by a fixed count of hexadecimal digits. -/
def numbered (count : Nat) : Reader Char := fun text =>
  let digits := text.take count
  if digits.length = count && digits.all isHexDigit then
    (charNumbered? (numberOf 16 digits)).map (·, text.drop count)
  else none

def escape : Reader Char
  | '\\' :: 'b' :: rest => some (Char.ofNat 8, rest)
  | '\\' :: 'f' :: rest => some (Char.ofNat 12, rest)
  | '\\' :: 'n' :: rest => some ('\n', rest)
  | '\\' :: 'r' :: rest => some ('\r', rest)
  | '\\' :: 't' :: rest => some ('\t', rest)
  | '\\' :: '"' :: rest => some ('"', rest)
  | '\\' :: '\\' :: rest => some ('\\', rest)
  | '\\' :: 'u' :: rest => numbered 4 rest
  | '\\' :: 'U' :: rest => numbered 8 rest
  | _ => none

def basicString : Reader String := fun text => do
  let (_, rest) ← exactly '"' text
  let (chars, rest) ← many (either (char isBasicChar) escape) rest
  let (_, rest) ← exactly '"' rest
  return (String.ofList chars, rest)

def literalString : Reader String := fun text => do
  let (_, rest) ← exactly '\'' text
  let (chars, rest) ← run isLiteralChar rest
  let (_, rest) ← exactly '\'' rest
  return (String.ofList chars, rest)

/-- A backslash at the end of a line, with all blanks and line ends that follow it. -/
def lineJoin : Reader Unit := fun text => do
  let (_, rest) ← exactly '\\' text
  let (_, rest) ← blanks rest
  let (_, rest) ← newline rest
  let (_, rest) ← many (either (fun t => do
    let (_, t) ← char isBlankChar t
    return ((), t)) newline) rest
  return ((), rest)

/-- One or two quotes inside a string of several lines: they are content when something other than a
quote follows them. -/
def innerQuotes (quote : Char) : Reader (List Char)
  | a :: b :: c :: rest =>
      if a = quote && b = quote && c ≠ quote then some ([quote, quote], c :: rest)
      else if a = quote && b ≠ quote then some ([quote], b :: c :: rest)
      else none
  | [a, b] => if a = quote && b ≠ quote then some ([quote], [b]) else none
  | _ => none

/-- The quotes at the end of a string of several lines: three close it, and up to two before them
are content. -/
def closingQuotes (quote : Char) : Reader (List Char) := fun text =>
  let quotes := text.takeWhile (· = quote)
  if 5 ≤ quotes.length then some ([quote, quote], text.drop 5)
  else if quotes.length = 4 then some ([quote], text.drop 4)
  else if quotes.length = 3 then some ([], text.drop 3)
  else none

def longBasicString : Reader String := fun text => do
  let (_, rest) ← word ['"', '"', '"'] text
  let (_, rest) ← optional newline rest
  let plain : Reader (List Char) := fun t => do
    let (c, t) ← char isBasicChar t
    return ([c], t)
  let joined : Reader (List Char) := fun t => do
    let (_, t) ← lineJoin t
    return ([], t)
  let escaped : Reader (List Char) := fun t => do
    let (c, t) ← escape t
    return ([c], t)
  let line : Reader (List Char) := fun t => do
    let (_, t) ← newline t
    return (['\n'], t)
  let content := either plain (either joined (either escaped (either line (innerQuotes '"'))))
  let (parts, rest) ← many content rest
  let (tail, rest) ← closingQuotes '"' rest
  return (String.ofList (parts.flatten ++ tail), rest)

def longLiteralString : Reader String := fun text => do
  let (_, rest) ← word ['\'', '\'', '\''] text
  let (_, rest) ← optional newline rest
  let plain : Reader (List Char) := fun t => do
    let (c, t) ← char isLiteralChar t
    return ([c], t)
  let line : Reader (List Char) := fun t => do
    let (_, t) ← newline t
    return (['\n'], t)
  let content := either plain (either line (innerQuotes '\''))
  let (parts, rest) ← many content rest
  let (tail, rest) ← closingQuotes '\'' rest
  return (String.ofList (parts.flatten ++ tail), rest)

def string : Reader String :=
  either longBasicString (either basicString (either longLiteralString literalString))

/-! ## Keys -/

def simpleKey : Reader String := fun text =>
  match text with
  | '"' :: _ => basicString text
  | '\'' :: _ => literalString text
  | _ =>
      match text.takeWhile isBareKeyChar with
      | [] => none
      | name => some (String.ofList name, text.dropWhile isBareKeyChar)

/-- How deep tables, arrays and dotted keys may be nested. -/
def nestingLimit : Nat := 80

/-- A dotted key, with the blanks around its parts. -/
def key : Reader (List String) := fun text => do
  let part : Reader String := fun t => do
    let (_, t) ← blanks t
    let (k, t) ← simpleKey t
    let (_, t) ← blanks t
    return (k, t)
  let (keys, rest) ← separatedSome part (exactly '.') text
  if keys.length < nestingLimit then return (keys, rest) else none

/-! ## Numbers -/

/-- Digits with single underscores between them; the underscores are dropped. -/
def digits (test : Char → Bool) : Reader (List Char) := fun text => do
  let (first, rest) ← char test text
  let more : Reader Char := fun t =>
    match t with
    | '_' :: t => char test t
    | t => char test t
  let (others, rest) ← many more rest
  -- An underscore that no digit follows is an error.
  match rest with
  | '_' :: _ => none
  | _ => return (first :: others, rest)

def sign : Reader Bool
  | '+' :: rest => some (false, rest)
  | '-' :: rest => some (true, rest)
  | rest => some (false, rest)

/-- The digits of a decimal integer: no zero in front of others. -/
def decimalDigits : Reader (List Char)
  | '0' :: rest => some (['0'], rest)
  | text => digits Char.isDigit text

/-- The range of integers: 64 bits with a sign. -/
def inRange (n : Int) : Bool := -9223372036854775808 ≤ n && n < 9223372036854775808

/-- Reads the digits of a whole number to a base. -/
def integerIn (base : Nat) (test : Char → Bool) : Reader Value := fun text => do
  let (ds, rest) ← digits test text
  let n : Int := numberOf base ds
  if inRange n then return (.integer n, rest) else none

def integer : Reader Value
  | '0' :: 'x' :: rest => integerIn 16 isHexDigit rest
  | '0' :: 'o' :: rest => integerIn 8 (fun c => '0' ≤ c && c ≤ '7') rest
  | '0' :: 'b' :: rest => integerIn 2 (fun c => c = '0' || c = '1') rest
  | text => do
      let (negative, rest) ← sign text
      let (ds, rest) ← decimalDigits rest
      let n : Int := numberOf 10 ds
      let n := if negative then -n else n
      if inRange n then return (.integer n, rest) else none

def fraction : Reader (List Char)
  | '.' :: rest => digits Char.isDigit rest
  | _ => none

def powerOfTen : Reader Int
  | c :: rest =>
      if c = 'e' || c = 'E' then do
        let (negative, rest) ← sign rest
        let (ds, rest) ← digits Char.isDigit rest
        let n : Int := numberOf 10 ds
        return (if negative then -n else n, rest)
      else none
  | [] => none

def specialFloat : Reader Value := fun text => do
  let (negative, rest) ← sign text
  either
    (fun t => do
      let (_, t) ← word ['i', 'n', 'f'] t
      return (.float (.infinite negative), t))
    (fun t => do
      let (_, t) ← word ['n', 'a', 'n'] t
      return (.float .notANumber, t))
    rest

/-- A floating-point number: it has digits behind a point, a power of ten, or both.  One that is too
great to be finite is an error. -/
def plainFloat : Reader Value := fun text => do
  let (negative, rest) ← sign text
  let (whole, rest) ← decimalDigits rest
  let (frac, rest) ← optional fraction rest
  let (power, rest) ← optional powerOfTen rest
  if frac.isNone && power.isNone then none
  else
    let frac := frac.getD []
    let value := Binary64.ofDecimal negative (numberOf 10 (whole ++ frac))
      (power.getD 0 - frac.length)
    if value = .infinite false then none else return (.float value, rest)

/-! ## Dates and times -/

/-- A number of exactly the given count of digits, within bounds. -/
def fixedNumber (count least greatest : Nat) : Reader Nat := fun text =>
  let ds := text.take count
  let n := numberOf 10 ds
  if ds.length = count && ds.all Char.isDigit && least ≤ n && n ≤ greatest then
    some (n, text.drop count)
  else none

def daysInMonth (year month : Nat) : Nat :=
  let leap := year % 4 = 0 && (year % 100 ≠ 0 || year % 400 = 0)
  if month = 2 then (if leap then 29 else 28)
  else if month = 4 || month = 6 || month = 9 || month = 11 then 30
  else 31

/-- The decimal text of a number, with zeros in front up to a width. -/
def padded (width n : Nat) : String :=
  let ds := Nat.toDigits 10 n
  String.ofList (List.replicate (width - ds.length) '0' ++ ds)

def date : Reader String := fun text => do
  let (year, rest) ← fixedNumber 4 0 9999 text
  let (_, rest) ← exactly '-' rest
  let (month, rest) ← fixedNumber 2 1 12 rest
  let (_, rest) ← exactly '-' rest
  let (day, rest) ← fixedNumber 2 1 31 rest
  if daysInMonth year month < day then none
  else return (padded 4 year ++ "-" ++ padded 2 month ++ "-" ++ padded 2 day, rest)

/-- The part of a second, in normal form: at most nine digits, no zeros at the end. -/
def secondPart : Reader String
  | '.' :: rest =>
      match rest.takeWhile Char.isDigit with
      | [] => none
      | ds =>
          let kept := ((ds.take 9).reverse.dropWhile (· = '0')).reverse
          some (if kept.isEmpty then "" else "." ++ String.ofList kept, rest.dropWhile Char.isDigit)
  | _ => none

def time : Reader String := fun text => do
  let (hour, rest) ← fixedNumber 2 0 23 text
  let (_, rest) ← exactly ':' rest
  let (minute, rest) ← fixedNumber 2 0 59 rest
  let (_, rest) ← exactly ':' rest
  let (second, rest) ← fixedNumber 2 0 60 rest
  let (part, rest) ←
    match rest with
    | '.' :: _ => secondPart rest
    | _ => some ("", rest)
  return (padded 2 hour ++ ":" ++ padded 2 minute ++ ":" ++ padded 2 second ++ part, rest)

/-- The distance from universal time; its text. -/
def offset : Reader String
  | 'Z' :: rest => some ("Z", rest)
  | 'z' :: rest => some ("Z", rest)
  | c :: rest =>
      if c = '+' || c = '-' then do
        let (hour, rest) ← fixedNumber 2 0 23 rest
        let (_, rest) ← exactly ':' rest
        let (minute, rest) ← fixedNumber 2 0 59 rest
        let mark := if c = '-' && hour + minute ≠ 0 then "-" else "+"
        return (mark ++ padded 2 hour ++ ":" ++ padded 2 minute, rest)
      else none
  | [] => none

def datetime : Reader Value := either
  (fun text => do
    let (day, rest) ← date text
    match rest with
    | c :: behind =>
        if c = 'T' || c = 't' || c = ' ' then
          match time behind with
          | some (clock, rest) => do
              let (zone, rest) ← optional offset rest
              return (.datetime (day ++ "T" ++ clock ++ zone.getD ""), rest)
          | none => return (.datetime day, rest)
        else return (.datetime day, rest)
    | [] => return (.datetime day, rest))
  (fun text => do
    let (clock, rest) ← time text
    return (.datetime clock, rest))

/-- The normal text of the date or time that a text of its own spells. -/
def moment? (text : String) : Option String :=
  match datetime text.toList with
  | some (.datetime normal, []) => some normal
  | _ => none

example : moment? "1979-05-27t07:32:00.500z" = some "1979-05-27T07:32:00.5Z" := by decide
example : moment? "2021-02-30" = none ∧ moment? "12:00:00Z" = none := by decide

def scalar : Reader Value := fun text =>
  match text with
  | [] => none
  | c :: _ =>
      if c = '"' || c = '\'' then do
        let (s, rest) ← string text
        return (.text s, rest)
      else if c = '+' || c = '-' || c.isDigit then
        either datetime (either plainFloat (either specialFloat integer)) text
      else if c = 't' then do
        let (_, rest) ← word ['t', 'r', 'u', 'e'] text
        return (.boolean true, rest)
      else if c = 'f' then do
        let (_, rest) ← word ['f', 'a', 'l', 's', 'e'] text
        return (.boolean false, rest)
      else if c = 'i' || c = 'n' then specialFloat text
      else none

end ClojureBuild.Toml
