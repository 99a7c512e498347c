import ClojureBuild.Text.Quoted
/-!
JSON values and their text, on one line or spread over several with two spaces for each level.
-/

namespace ClojureBuild.Text

/-- A JSON value whose numbers are natural. -/
inductive Json where
  | null
  | bool (value : Bool)
  | number (value : Nat)
  | text (value : String)
  | list (items : List Json)
  | object (fields : List (String × Json))

namespace Json

/-- The number of a control character, in four hexadecimal digits. -/
def controlEscape (c : Char) : List Char :=
  let digits := hexDigits c.toNat
  ['\\', 'u'] ++ List.replicate (4 - digits.length) '0' ++ digits

def escapeChar (c : Char) : List Char :=
  if c = '"' || c = '\\' then ['\\', c]
  else if c = '\n' then ['\\', 'n']
  else if c = '\r' then ['\\', 'r']
  else if c = '\t' then ['\\', 't']
  else if c.toNat = 8 then ['\\', 'b']
  else if c.toNat = 12 then ['\\', 'f']
  else if c.toNat < 0x20 then controlEscape c
  else [c]

def quoteText (text : String) : String :=
  String.ofList (['"'] ++ text.toList.flatMap escapeChar ++ ['"'])

/-- The white space in front of a line. -/
def indent (level : Nat) : String := String.ofList (List.replicate (2 * level) ' ')

mutual

/-- The text of a value spread over lines, at the given level of indentation. -/
def pretty (level : Nat) : Json → String
  | .null => "null"
  | .bool b => if b then "true" else "false"
  | .number n => toString n
  | .text s => quoteText s
  | .list [] => "[]"
  | .list (item :: items) =>
      "[\n" ++ indent (level + 1) ++ pretty (level + 1) item ++ prettyItems (level + 1) items ++
        "\n" ++ indent level ++ "]"
  | .object [] => "\x7b\x7d"
  | .object ((key, value) :: fields) =>
      "\x7b\n" ++ indent (level + 1) ++ quoteText key ++ ": " ++ pretty (level + 1) value ++
        prettyFields (level + 1) fields ++ "\n" ++ indent level ++ "\x7d"

def prettyItems (level : Nat) : List Json → String
  | [] => ""
  | item :: items => ",\n" ++ indent level ++ pretty level item ++ prettyItems level items

def prettyFields (level : Nat) : List (String × Json) → String
  | [] => ""
  | (key, value) :: fields =>
      ",\n" ++ indent level ++ quoteText key ++ ": " ++ pretty level value ++
        prettyFields level fields

end

end Json

end ClojureBuild.Text
