import ClojureBuild.Shell.Syntax
/-!
Whole numbers of 64 bits, and the expressions that calculate with them.

An expression may assign variables; what it assigns counts for the rest of it.  An operand that does
not decide the result is read but not calculated, so it neither assigns nor fails.
-/

namespace ClojureBuild.Shell.Arithmetic

def modulus : Nat := 18446744073709551616

/-- The number of 64 bits that a whole number comes to. -/
def wrap (n : Int) : Int := Int.bmod n modulus

def bits (n : Int) : Nat := (n % (modulus : Int)).toNat

def greatest : Int := 9223372036854775807

def least : Int := -9223372036854775808

def digitValue? (base : Nat) (c : Char) : Option Nat :=
  let value :=
    if c.isDigit then c.toNat - 48
    else if c.isLower then c.toNat - 87
    else if c.isUpper then c.toNat - 55
    else base
  if value < base then some value else none

/-- The number that the leading digits to a base make, and the rest. -/
def readDigits (base : Nat) (text : List Char) : Nat × List Char :=
  let digits := text.takeWhile fun c => (digitValue? base c).isSome
  (digits.foldl (fun n c => n * base + (digitValue? base c).getD 0) 0, text.drop digits.length)

/-- A number at the front of a text: hexadecimal behind `0x`, octal behind `0`, or decimal. -/
def readNatural (text : List Char) : Nat × List Char :=
  match text with
  | '0' :: x :: c :: rest =>
      if (x = 'x' || x = 'X') && (digitValue? 16 c).isSome then readDigits 16 (c :: rest)
      else readDigits 8 text
  | '0' :: _ => readDigits 8 text
  | _ => readDigits 10 text

def isSpace (c : Char) : Bool :=
  c = ' ' || ('\t' ≤ c && c ≤ '\r')

/-- The number that a whole text writes.  Blanks may stand around it, and nothing at all is zero. -/
def number? (text : String) : Option Int :=
  let body := text.toList.dropWhile isSpace
  let (negative, body) := match body with
    | '-' :: rest => (true, rest)
    | '+' :: rest => (false, rest)
    | rest => (false, rest)
  let (n, rest) := readNatural body
  if !(rest.dropWhile isSpace).isEmpty then none
  else
    let value : Int := if negative then -n else n
    if value < least || greatest < value then none else some value

/-- A token of an expression. -/
inductive Token where
  | number (n : Int)
  | name (text : String)
  | operator (text : String)
deriving DecidableEq, Repr, Inhabited

/-- Why an expression has no value. -/
inductive Fault where
  | noPrimary
  | notClosed
  | noColon
  | tooMuch
  | zeroDivision
  | negativeExponent
  | badNumber (text : String)
  /-- A variable that may not be changed. -/
  | readonly (name : String)
deriving DecidableEq, Repr, Inhabited

def Fault.message : Fault → String
  | .noPrimary => "expecting primary"
  | .notClosed => "expecting ')'"
  | .noColon => "expecting ':'"
  | .tooMuch => "expecting EOF"
  | .zeroDivision => "division by zero"
  | .negativeExponent => "exponent less than 0"
  | .badNumber text => "Illegal number: " ++ text
  | .readonly name => name ++ ": is read only"

def operators (dialect : Dialect) : List String :=
  (if dialect = .bash then ["**", "++", "--", ","] else []) ++
  ["<<=", ">>=", "==", "!=", "<=", "<<", ">=", ">>", "&&", "&=", "||", "|=", "+=", "-=", "*=", "/=",
    "%=", "^=", "=", "!", "<", ">", "&", "|", "+", "-", "*", "/", "%", "^", "~", "(", ")", "?",
    ":", "[", "]"]

/-- The tokens of an expression; a character of no kind becomes an operator of its own. -/
def readTokens (dialect : Dialect) : Nat → List Char → List Token
  | 0, _ => []
  | _, [] => []
  | n + 1, c :: rest =>
      if isSpace c then readTokens dialect n rest
      else if c.isDigit then
        let (value, rest) := readNatural (c :: rest)
        match dialect, rest with
        | .bash, '#' :: behind =>
            let (value, rest) := readDigits value behind
            .number value :: readTokens dialect n rest
        | _, _ => .number (min (value : Int) greatest) :: readTokens dialect n rest
      else if isNameStart c then
        let name := (c :: rest).takeWhile isNameChar
        .name (String.ofList name) :: readTokens dialect n ((c :: rest).drop name.length)
      else
        match (operators dialect).find? (·.toList.isPrefixOf (c :: rest)) with
        | some op => .operator op :: readTokens dialect n ((c :: rest).drop op.length)
        | none => .operator (String.singleton c) :: readTokens dialect n rest

/-- A calculation under way. -/
structure Progress where
  tokens : List Token
  /-- The variables that were assigned, latest first. -/
  assigned : List (String × Int)
deriving Inhabited

/-- A step of a calculation, which may fail. -/
abbrev Calculation := StateT Progress (Except Fault)

/-- What a calculation knows of the variables around it. -/
structure Surroundings where
  dialect : Dialect
  value? : String → Option String

namespace Calculation

def refuse {α : Type} (fault : Fault) : Calculation α := fun _ => .error fault

def peek : Calculation (Option Token) := do return (← get).tokens.head?

def advance : Calculation Unit := modify fun p => { p with tokens := p.tokens.tail }

/-- Whether the next token is an operator, which is then passed over. -/
def accept (operator : String) : Calculation Bool := do
  if (← peek) = some (.operator operator) then
    advance
    return true
  else return false

end Calculation

/-- The rank of an operator with two operands; a lower rank binds closer. -/
def rank? : String → Option Nat
  | "**" => some 0
  | "*" | "/" | "%" => some 1
  | "+" | "-" => some 2
  | "<<" | ">>" => some 3
  | "<" | "<=" | ">" | ">=" => some 4
  | "==" | "!=" => some 5
  | "&" => some 6
  | "^" => some 7
  | "|" => some 8
  | _ => none

/-- The number that stands for a truth value. -/
def ofBool (b : Bool) : Int := if b then 1 else 0

def power (base : Int) : Nat → Int
  | 0 => 1
  | n + 1 => wrap (base * power base n)

def apply (operator : String) (a b : Int) : Except Fault Int :=
  match operator with
  | "*" => .ok (wrap (a * b))
  | "/" => if b = 0 then .error .zeroDivision else .ok (wrap (Int.tdiv a b))
  | "%" => if b = 0 then .error .zeroDivision else .ok (Int.tmod a b)
  | "+" => .ok (wrap (a + b))
  | "-" => .ok (wrap (a - b))
  | "<<" => .ok (wrap ((bits a <<< (bits b % 64) : Nat) : Int))
  | ">>" => .ok (a >>> (bits b % 64))
  | "<" => .ok (ofBool (a < b))
  | "<=" => .ok (ofBool (a ≤ b))
  | ">" => .ok (ofBool (a > b))
  | ">=" => .ok (ofBool (a ≥ b))
  | "==" => .ok (ofBool (a = b))
  | "!=" => .ok (ofBool (a ≠ b))
  | "&" => .ok (wrap ((bits a &&& bits b : Nat) : Int))
  | "^" => .ok (wrap ((bits a ^^^ bits b : Nat) : Int))
  | "|" => .ok (wrap ((bits a ||| bits b : Nat) : Int))
  | "**" => if b < 0 then .error .negativeExponent else .ok (power a b.toNat)
  | _ => .ok b

/-- The operators that assign, each with the operation that comes first. -/
def assigning? : String → Option String
  | "=" => some ""
  | "+=" => some "+"
  | "-=" => some "-"
  | "*=" => some "*"
  | "/=" => some "/"
  | "%=" => some "%"
  | "&=" => some "&"
  | "|=" => some "|"
  | "^=" => some "^"
  | "<<=" => some "<<"
  | ">>=" => some ">>"
  | _ => none

/-- What is to be calculated. -/
inductive Goal where
  /-- Expressions behind commas. -/
  | all
  | assignment
  | conditional
  | disjunction
  | conjunction
  | operations (rank : Nat)
  | operationsRest (rank : Nat) (left : Int)
  | primary
  /-- The value of a text that stands in a variable. -/
  | text (text : String)

/-- Calculates what is asked for; `idle` leaves out everything that has an effect. -/
def calculate (around : Surroundings) : Nat → Bool → Goal → Calculation Int
  | 0, _, _ => Calculation.refuse .noPrimary
  | n + 1, idle, goal => do
      let bash := around.dialect = .bash
      let lookUp (name : String) : Calculation Int := do
        if idle then return 0
        match (← get).assigned.lookup name with
        | some value => return value
        | none =>
            match around.value? name with
            | none => return 0
            | some text =>
                match number? text with
                | some value => return value
                | none =>
                    if bash then calculate around n idle (.text text)
                    else Calculation.refuse (.badNumber text)
      let put (name : String) (value : Int) : Calculation Int := do
        unless idle do modify fun p => { p with assigned := (name, value) :: p.assigned }
        return value
      match goal with
      | .text text =>
          let outer := (← get).tokens
          modify fun p => { p with
            tokens := readTokens around.dialect (text.length + 1) text.toList }
          let value ← calculate around n idle .all
          unless (← get).tokens.isEmpty do Calculation.refuse .tooMuch
          modify fun p => { p with tokens := outer }
          return value
      | .all =>
          let value ← calculate around n idle .assignment
          if ← (if bash then Calculation.accept "," else pure false) then
            calculate around n idle .all
          else return value
      | .assignment =>
          match (← get).tokens with
          | .name name :: .operator op :: rest =>
              match assigning? op with
              | none => calculate around n idle .conditional
              | some operation =>
                  modify fun p => { p with tokens := rest }
                  let right ← calculate around n idle .assignment
                  if operation.isEmpty then put name right
                  else
                    let left ← lookUp name
                    if idle then return right
                    else put name (← (apply operation left right : Except Fault Int))
          | _ => calculate around n idle .conditional
      | .conditional =>
          let condition ← calculate around n idle .disjunction
          if ← Calculation.accept "?" then
            let yes ← calculate around n (idle || condition = 0) .assignment
            unless ← Calculation.accept ":" do Calculation.refuse .noColon
            let no ← calculate around n (idle || condition ≠ 0) .conditional
            return if condition ≠ 0 then yes else no
          else return condition
      | .disjunction =>
          let left ← calculate around n idle .conjunction
          if ← Calculation.accept "||" then
            let right ← calculate around n (idle || left ≠ 0) .disjunction
            return ofBool (left ≠ 0 || right ≠ 0)
          else return left
      | .conjunction =>
          let left ← calculate around n idle (.operations 8)
          if ← Calculation.accept "&&" then
            let right ← calculate around n (idle || left = 0) .conjunction
            return ofBool (left ≠ 0 && right ≠ 0)
          else return left
      | .operations rank =>
          let left ← calculate around n idle .primary
          calculate around n idle (.operationsRest rank left)
      | .operationsRest rank left =>
          match ← Calculation.peek with
          | some (.operator op) =>
              match rank? op with
              | none => return left
              | some r =>
                  if rank < r then return left
                  else
                    Calculation.advance
                    let right ← calculate around n idle (.operations (r - 1))
                    let value ←
                      if idle then pure right else (apply op left right : Except Fault Int)
                    calculate around n idle (.operationsRest rank value)
          | _ => return left
      | .primary =>
          match ← Calculation.peek with
          | some (.number value) =>
              Calculation.advance
              return value
          | some (.name name) =>
              Calculation.advance
              if ← (if bash then Calculation.accept "[" else pure false) then
                let subscript ← calculate around n idle .assignment
                unless ← Calculation.accept "]" do Calculation.refuse .noPrimary
                lookUp (name ++ "[" ++ toString subscript ++ "]")
              else
                let value ← lookUp name
                if ← Calculation.accept "++" then
                  let _ ← put name (wrap (value + 1))
                  return value
                else if ← Calculation.accept "--" then
                  let _ ← put name (wrap (value - 1))
                  return value
                else return value
          | some (.operator op) =>
              Calculation.advance
              match op with
              | "(" =>
                  let value ← calculate around n idle (if bash then .all else .assignment)
                  unless ← Calculation.accept ")" do Calculation.refuse .notClosed
                  return value
              | "+" => calculate around n idle .primary
              | "-" => return wrap (-(← calculate around n idle .primary))
              | "!" => return ofBool ((← calculate around n idle .primary) = 0)
              | "~" => return wrap (-(← calculate around n idle .primary) - 1)
              | "++" | "--" =>
                  match ← Calculation.peek with
                  | some (.name name) =>
                      Calculation.advance
                      let value ← lookUp name
                      put name (wrap (if op = "++" then value + 1 else value - 1))
                  | _ =>
                      let value ← calculate around n idle .primary
                      return value
              | _ => Calculation.refuse .noPrimary
          | none => Calculation.refuse .noPrimary

/-- The value of an expression, and what it assigns, first things first. -/
def evaluate (around : Surroundings) (text : List Char) :
    Except Fault (Int × List (String × Int)) :=
  let tokens := readTokens around.dialect (text.length + 1) text
  if tokens.isEmpty && around.dialect = .bash then .ok (0, [])
  else
    let fuel := 20 * text.length + 200
    match (calculate around fuel false .all).run ⟨tokens, []⟩ with
    | .error fault => .error fault
    | .ok (value, p) =>
        if p.tokens.isEmpty then .ok (value, p.assigned.reverse) else .error .tooMuch

end ClojureBuild.Shell.Arithmetic
