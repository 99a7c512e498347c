import ClojureBuild.Text.Numbered
import ClojureBuild.Text.Octets
/-!
Quoted texts, as diagnostics show them: between double quotes, with escapes for quotes,
backslashes, control characters and characters that cannot be printed.
-/

namespace ClojureBuild.Text

/-- The lower-case hexadecimal digits of a number. -/
def hexDigits (n : Nat) : List Char := Nat.toDigits 16 n

def quoteChar (c : Char) : List Char :=
  if c = Char.ofNat 0 then ['\\', '0']
  else if c = '\t' then ['\\', 't']
  else if c = '\r' then ['\\', 'r']
  else if c = '\n' then ['\\', 'n']
  else if c = '"' || c = '\\' then ['\\', c]
  else if isNumbered c then ['\\', 'u', Char.ofNat 0x7b] ++ hexDigits c.toNat ++ [Char.ofNat 0x7d]
  else [c]

def quote (text : String) : String :=
  String.ofList (['"'] ++ text.toList.flatMap quoteChar ++ ['"'])

def quoteByte (b : Nat) : List Char := ['\\', 'x'] ++ (hexDigits b).map Char.toUpper

/-- Quoted octets; bytes that write no character are shown one by one. -/
def quoteOctets (octets : OsText) : String :=
  String.ofList (['"'] ++
    (Octets.pieces octets).flatMap (Sum.elim quoteChar (List.flatMap quoteByte)) ++ ['"'])

def bracketed (items : List String) : String :=
  "[" ++ String.intercalate ", " items ++ "]"

end ClojureBuild.Text
