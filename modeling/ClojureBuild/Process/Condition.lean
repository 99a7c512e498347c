import ClojureBuild.Process.Machine
import ClojureBuild.Shell.Arithmetic
/-!
Conditions on texts, numbers and files: what `test` and `[` decide.

An operand that looks like an operator is one only if the words behind it allow it; three words with
an operator in the middle are always a comparison.
-/

namespace ClojureBuild.Condition

/-- Why words are no condition. -/
inductive Fault where
  | noBracket
  | unexpected (word : String) (words : List String)
  | noOperand (operator : String)
  | notClosed (word : Option String)
  | badNumber (word : String)
deriving DecidableEq, Repr

/-- What decides about files. -/
structure Surroundings where
  world : World
  descriptors : Descriptors
  /-- Whether two equals signs compare texts. -/
  doubleEquals : Bool

def unaryOperators : List String :=
  ["-r", "-w", "-x", "-e", "-f", "-d", "-c", "-b", "-p", "-u", "-g", "-k", "-s", "-t", "-z", "-n",
    "-h", "-O", "-G", "-L", "-S"]

def binaryOperators : List String :=
  ["=", "!=", "<", ">", "-eq", "-ne", "-ge", "-gt", "-le", "-lt", "-nt", "-ot", "-ef"]

def isUnary (word : String) : Bool := unaryOperators.contains word

/-- Whether a word is an operator with two operands. -/
def isBinary (s : Surroundings) (word : String) : Bool :=
  binaryOperators.contains word || (s.doubleEquals && word = "==")

/-- Whether the words behind a unary operator make it an operand. -/
def standsAsOperand (s : Surroundings) : List String → Bool
  | _ :: [] => true
  | _ :: _ :: [] => false
  | _ :: next :: _ => isBinary s next
  | [] => true

/-- What the next word is. -/
inductive Kind where
  | missing
  | operand
  | unary
  | binary
  | negation
  | conjunction
  | disjunction
  | opening
  | closing
deriving DecidableEq, Repr

def kindOf (s : Surroundings) (words : List String) : Kind :=
  match words with
  | [] => .missing
  | word :: rest =>
      if isUnary word then (if standsAsOperand s words then .operand else .unary)
      else if isBinary s word then .binary
      else
        match word with
        | "!" => .negation
        | "-a" => .conjunction
        | "-o" => .disjunction
        | "(" => if rest.isEmpty then .operand else .opening
        | ")" => .closing
        | _ => .operand

/-- The whole number in base ten that a word writes. -/
def numberOf (word : String) : Except Fault Int :=
  let body := word.toList.dropWhile Shell.Arithmetic.isSpace
  let (negative, digits) := match body with
    | '-' :: rest => (true, rest)
    | '+' :: rest => (false, rest)
    | rest => (false, rest)
  let taken := digits.takeWhile Char.isDigit
  let n := (Shell.Arithmetic.readDigits 10 taken).1
  let value : Int := if negative then -n else n
  let behind := (digits.drop taken.length).dropWhile Shell.Arithmetic.isSpace
  if taken.isEmpty || !behind.isEmpty || value < Shell.Arithmetic.least ||
      Shell.Arithmetic.greatest < value then .error (.badNumber word)
  else .ok value

def unary (s : Surroundings) (operator word : String) : Except Fault Bool :=
  let w := s.world
  let p := ⟨word⟩
  let node? := (w.stat p).toOption.map (·.2)
  match operator with
  | "-n" => .ok (word ≠ "")
  | "-z" => .ok (word = "")
  | "-t" => do
      let _ ← numberOf word
      return false
  | "-e" | "-r" | "-w" | "-O" | "-G" => .ok node?.isSome
  | "-f" => .ok (node?.any Node.isFile)
  | "-d" => .ok (node?.any Node.isDir)
  | "-c" => .ok (node?.any Node.isDevice)
  | "-x" => .ok (match node? with
      | some (.file _ _ executable) => executable
      | some node => node.isDir
      | none => false)
  | "-s" => .ok (match node? with
      | some (.file content ..) => content.size ≠ 0
      | some node => node.isDir
      | none => false)
  | "-h" | "-L" => .ok (match w.resolve false p with
      | .ok (.taken loc) => (match w.node? loc with
          | some (.link _) => true
          | _ => false)
      | _ => false)
  | _ => .ok false

def binary (s : Surroundings) (a operator b : String) : Except Fault Bool :=
  let times (f : Int → Int → Bool) : Except Fault Bool :=
    match s.world.modified ⟨a⟩, s.world.modified ⟨b⟩ with
    | .ok x, .ok y => .ok (f x y)
    | _, _ => .ok false
  let numbers (f : Int → Int → Bool) : Except Fault Bool := do
    let x ← numberOf a
    let y ← numberOf b
    return f x y
  match operator with
  | "=" | "==" => .ok (a = b)
  | "!=" => .ok (a ≠ b)
  | "<" => .ok (a < b)
  | ">" => .ok (b < a)
  | "-nt" => times (fun x y => x > y)
  | "-ot" => times (fun x y => x < y)
  | "-ef" => .ok (match s.world.stat ⟨a⟩, s.world.stat ⟨b⟩ with
      | .ok (x, _), .ok (y, _) => x == y
      | _, _ => false)
  | "-eq" => numbers (fun x y => x == y)
  | "-ne" => numbers (fun x y => x != y)
  | "-lt" => numbers (fun x y => x < y)
  | "-le" => numbers (fun x y => x ≤ y)
  | "-gt" => numbers (fun x y => x > y)
  | _ => numbers (fun x y => x ≥ y)

/-- What is to be decided. -/
inductive Goal where
  | disjunction
  | conjunction
  | negation
  | primary
deriving DecidableEq, Repr

/-- Decides a part of a condition.  The first word is the one that the part begins with; what is
left begins with the last word of the part. -/
def judgePart (s : Surroundings) : Nat → Goal → Kind → List String →
    Except Fault (Bool × List String)
  | 0, _, _, words => .ok (false, words)
  | n + 1, goal, kind, words =>
      match goal with
      | .disjunction => do
          let (a, words) ← judgePart s n .conjunction kind words
          if kindOf s words.tail = .disjunction then
            let rest := words.drop 2
            let (b, words) ← judgePart s n .disjunction (kindOf s rest) rest
            return (a || b, words)
          else return (a, words)
      | .conjunction => do
          let (a, words) ← judgePart s n .negation kind words
          if kindOf s words.tail = .conjunction then
            let rest := words.drop 2
            let (b, words) ← judgePart s n .conjunction (kindOf s rest) rest
            return (a && b, words)
          else return (a, words)
      | .negation =>
          if kind = .negation then do
            let next := kindOf s words.tail
            let words := if next = .missing then words else words.tail
            let (a, words) ← judgePart s n .negation next words
            return (!a, words)
          else judgePart s n .primary kind words
      | .primary =>
          match kind, words with
          | .missing, words => .ok (false, words)
          | .opening, _ :: rest =>
              if kindOf s rest = .closing then .ok (false, rest)
              else do
                let (a, words) ← judgePart s n .disjunction (kindOf s rest) rest
                let rest := words.tail
                if kindOf s rest = .closing then return (a, rest)
                else .error (.notClosed rest.head?)
          | .unary, operator :: rest =>
              match rest with
              | [] => .error (.noOperand operator)
              | word :: _ => do return (← unary s operator word, rest)
          | _, word :: rest =>
              if kindOf s rest = .binary then
                match rest with
                | operator :: right :: behind => do
                    return (← binary s word operator right, right :: behind)
                | [operator] => .error (.noOperand operator)
                | [] => .ok (word ≠ "", words)
              else .ok (word ≠ "", words)
          | _, [] => .ok (false, [])

def decideAll (s : Surroundings) (kind : Kind) (words : List String) : Except Fault Bool := do
  let (a, rest) ← judgePart s (10 * words.length + 20) .disjunction kind words
  match rest with
  | word :: _ :: _ => .error (.unexpected word words)
  | _ => return a

/-- The truth of some words.  Few words are read by their number, so that an operand may look like
an operator. -/
def holds (s : Surroundings) : Nat → List String → Except Fault Bool
  | 0, _ => .ok false
  | n + 1, words =>
      let comparison := match words with
        | [_, operator, _] => isBinary s operator
        | _ => false
      if words.isEmpty then .ok false
      else if comparison then decideAll s .operand words
      else if words.length = 3 || words.length = 4 then
        if words.head? = some "(" && words.getLast? = some ")" then
          let inner := words.tail.dropLast
          decideAll s (kindOf s inner) inner
        else if words.head? = some "!" then (holds s n words.tail).map not
        else decideAll s (kindOf s words) words
      else decideAll s (kindOf s words) words

/-- The truth of the arguments of `test`, or of `[` with its closing bracket. -/
def judge (s : Surroundings) (bracket : Bool) (args : List String) : Except Fault Bool :=
  if bracket then
    if args.getLast? = some "]" then holds s (args.length + 2) args.dropLast
    else .error .noBracket
  else holds s (args.length + 2) args

end ClojureBuild.Condition
