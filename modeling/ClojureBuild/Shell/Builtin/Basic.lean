import ClojureBuild.Process.Condition
import ClojureBuild.Process.Formatted
import ClojureBuild.Shell.Expansion
import ClojureBuild.Shell.Reader
/-!
The commands that a shell carries out itself: their options, and the ones that only write or decide.

Each one is given its arguments and leaves its status behind.
-/

namespace ClojureBuild.Shell

/-- A command that the shell carries out itself, given its arguments. -/
abbrev Builtin := List String → Act Unit

namespace Builtin

/-- Says what is wrong and goes on with a status. -/
def refuse (status : Nat) (text : String) : Act Unit := do
  Act.complain text
  Act.setStatus status

def number (text : String) : Act Nat := do
  match Condition.numberOf text with
  | .ok (.ofNat n) => if n < 2147483648 then return n else Act.fail ("Illegal number: " ++ text)
  | _ => Act.fail ("Illegal number: " ++ text)

/-- The options at the front of some arguments, each with its own argument if it takes one, and the
arguments behind them. -/
def options (known withArgument : List Char) : Nat → List String →
    Act (List (Char × String) × List String)
  | 0, args => return ([], args)
  | n + 1, args =>
      match args with
      | [] => return ([], [])
      | arg :: rest =>
          if arg = "--" then return ([], rest)
          else
            match arg.toList with
            | '-' :: c :: letters => do
                if withArgument.contains c then
                  match letters, rest with
                  | [], value :: rest =>
                      let (others, rest) ← options known withArgument n rest
                      return ((c, value) :: others, rest)
                  | [], [] => Act.fail ("No arg for -" ++ String.singleton c ++ " option")
                  | letters, rest =>
                      let (others, rest) ← options known withArgument n rest
                      return ((c, String.ofList letters) :: others, rest)
                else if known.contains c then
                  let next := if letters.isEmpty then rest
                    else String.ofList ('-' :: letters) :: rest
                  let (others, rest) ← options known withArgument n next
                  return ((c, "") :: others, rest)
                else if (← get).isBash then
                  Act.complain ("-" ++ String.singleton c ++ ": invalid option")
                  Act.setStatus 2
                  throw .failed
                else Act.fail ("Illegal option -" ++ String.singleton c)
            | _ => return ([], args)

def takeOptions (known withArgument : String) (args : List String) :
    Act (List (Char × String) × List String) :=
  options known.toList withArgument.toList (args.foldl (fun n a => n + a.length + 1) 1) args

/-- A text in single quotes, with the single quotes in it between double ones; the number bounds the
pieces. -/
def quotedPieces : Nat → List Char → List Char
  | 0, _ => []
  | n + 1, text =>
      let plain := text.takeWhile (· != '\'')
      let behind := text.drop plain.length
      let quotes := behind.takeWhile (· == '\'')
      let first := '\'' :: plain ++ ['\'']
      let rest := behind.drop quotes.length
      if behind.isEmpty then first
      else if rest.isEmpty then first ++ '"' :: quotes ++ ['"']
      else first ++ '"' :: quotes ++ '"' :: quotedPieces n rest

def singleQuoted (dialect : Dialect) (text : String) : String :=
  match dialect with
  | .posix => String.ofList (quotedPieces (text.length + 1) text.toList)
  | .bash => "'" ++ String.intercalate "'\\''" (Text.splitString '\'' text) ++ "'"

/-! ### Output -/

def echo : Builtin := fun args => do
  Act.say (Formatted.echo (if (← get).isBash then .bash else .plain) args)
  Act.setStatus 0

/-- Writes what a format makes, and complains about its arguments. -/
def printfWith (manner : Formatted.Manner) (args : List String) (keep : String → Act Unit) :
    Act Unit := do
  match args with
  | [] =>
      if manner = .bash then
        Act.writeError "printf: usage: printf [-v var] format [arguments]\n"
        Act.setStatus 2
      else Act.fail "usage: printf format [arg ...]"
  | format :: args =>
      let made := Formatted.format manner (args.length + 1) format.toList args
      made.complaints.forM Act.complain
      keep (String.ofList made.text)
      match made.fatal with
      | some message =>
          Act.complain message
          if manner = .bash then Act.setStatus 1
          else
            Act.setStatus 2
            throw .failed
      | none => Act.setStatus (if made.complaints.isEmpty then 0 else 1)

/-- Shows its arguments by a format, or puts the text into a variable. -/
def printf : Builtin := fun args => do
  let bash := (← get).isBash
  match bash, args with
  | true, "-v" :: name :: rest => printfWith .bash rest (Act.assign name)
  | _, args =>
      let args := if args.head? = some "--" then args.tail else args
      printfWith (if bash then .bash else .plain) args Act.say

/-! ### Conditions -/

def conditionText (bash : Bool) : Condition.Fault → String
  | .noBracket => if bash then "missing \x60]'" else "missing ]"
  | .unexpected word words =>
      if bash then
        (match words with
         | [a, _] => a ++ ": unary operator expected"
         | [_, b, _] => b ++ ": binary operator expected"
         | _ => "too many arguments")
      else word ++ ": unexpected operator"
  | .noOperand op => if bash then op ++ ": unary operator expected" else op ++ ": argument expected"
  | .notClosed word =>
      if bash then "\x60)' expected" ++
        (match word with
         | some w => ", found " ++ w
         | none => "")
      else "closing paren expected"
  | .badNumber word =>
      if bash then word ++ ": integer expression expected" else "Illegal number: " ++ word

/-- Decides a condition; the name with a bracket needs a closing one. -/
def test (bracket : Bool) : Builtin := fun args => do
  let st ← get
  match Condition.judge ⟨st.machine.world, st.descriptors, st.isBash⟩ bracket args with
  | .ok truth => Act.setStatus (if truth then 0 else 1)
  | .error fault => refuse 2 (conditionText st.isBash fault)

end Builtin

end ClojureBuild.Shell
