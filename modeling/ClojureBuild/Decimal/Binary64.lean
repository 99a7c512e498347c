/-!
Binary floating-point numbers of 64 bits, and the shortest decimal text that reads back as one.

A finite number is a natural multiple of a power of two.  All arithmetic here is exact.
-/

namespace ClojureBuild

/-- A floating-point number: `mantissa · 2 ^ exponent` with a sign, or no finite number. -/
inductive Binary64 where
  | finite (negative : Bool) (mantissa : Nat) (exponent : Int)
  | infinite (negative : Bool)
  | notANumber
deriving DecidableEq, Repr, Inhabited

namespace Binary64

def pow2 (n : Nat) : Nat := Nat.pow 2 n

def pow10 (n : Nat) : Nat := Nat.pow 10 n

def leastExponent : Int := -1074

def greatestExponent : Int := 971

/-- The natural number nearest to a quotient; a tie goes to the even one. -/
def nearest (num den : Nat) : Nat :=
  let q := num / den
  let r := num % den
  if den < 2 * r then q + 1
  else if 2 * r < den then q
  else q + q % 2

/-- The number nearest to `num / den · 2 ^ -exponent` on the grid of an exponent. -/
def onGrid (num den : Nat) (exponent : Int) : Nat :=
  if 0 ≤ exponent then nearest num (den * pow2 exponent.toNat)
  else nearest (num * pow2 (-exponent).toNat) den

/-- The floating-point number nearest to a positive quotient. -/
def ofQuotient (negative : Bool) (num den : Nat) : Binary64 :=
  let guess : Int := (Nat.log2 num : Int) - (Nat.log2 den : Int) - 53
  -- The guess is one or two too small, never too large.
  let fits (q : Int) : Bool := onGrid num den q < pow2 53
  let q := if fits guess then guess else if fits (guess + 1) then guess + 1 else guess + 2
  let q := max q leastExponent
  let m := onGrid num den q
  let (m, q) := if m = pow2 53 then (pow2 52, q + 1) else (m, q)
  if greatestExponent < q then .infinite negative else .finite negative m q

/-- The floating-point number nearest to `digits · 10 ^ exponent`. -/
def ofDecimal (negative : Bool) (digits : Nat) (exponent : Int) : Binary64 :=
  if digits = 0 then .finite negative 0 leastExponent
  else if 400 < exponent then .infinite negative
  else if exponent < -(400 + (Nat.toDigits 10 digits).length : Int) then
    .finite negative 0 leastExponent
  else if 0 ≤ exponent then ofQuotient negative (digits * pow10 exponent.toNat) 1
  else ofQuotient negative digits (pow10 (-exponent).toNat)

/-- The floating-point number nearest to `num / den · 2 ^ exponent`. -/
def ofScaled (negative : Bool) (num den : Nat) (exponent : Int) : Binary64 :=
  if num = 0 then .finite negative 0 leastExponent
  else if 0 ≤ exponent then ofQuotient negative (num * pow2 exponent.toNat) den
  else ofQuotient negative num (den * pow2 (-exponent).toNat)

/-- The number nearest to the product of two finite numbers. -/
def times : Binary64 → Binary64 → Binary64
  | .finite a m p, .finite b n q => ofScaled (a != b) (m * n) 1 (p + q)
  | _, _ => .notANumber

/-- The number nearest to the quotient of two finite numbers, the second one not zero. -/
def dividedBy : Binary64 → Binary64 → Binary64
  | .finite a m p, .finite b n q => ofScaled (a != b) m n (p - q)
  | _, _ => .notANumber

def isZero : Binary64 → Bool
  | .finite _ 0 _ => true
  | _ => false

def isFinite : Binary64 → Bool
  | .finite .. => true
  | _ => false

/-- The place of the leading digit of `num / den`: the least `p` with `num / den < 10 ^ p`, searched
from `start` upward. -/
def leadingPlace (num den : Nat) : Nat → Int → Int
  | 0, p => p
  | n + 1, p =>
      let below := if 0 ≤ p then num < den * pow10 p.toNat else num * pow10 (-p).toNat < den
      if below then p else leadingPlace num den n (p + 1)

/-- A decimal number `digits · 10 ^ place`. -/
structure Decimal where
  digits : Nat
  place : Int
deriving DecidableEq, Repr, Inhabited

/-- Which of two decimals is taken that are as short and as near to a number. -/
inductive Tie where
  | greater
  | even
deriving DecidableEq, Repr

def Tie.lesser (tie : Tie) (digits : Nat) : Bool := tie = .even && digits % 2 = 0

/-- The shortest decimal with at most `count + tried` digits that lies between the half-way points
around the number; the nearest one where several are as short. -/
def search (tie : Tie) (value below above den : Nat) (closed : Bool) (p : Int) :
    Nat → Nat → Decimal
  | tried, 0 => ⟨nearest value den, -(tried : Int)⟩
  | tried, count + 1 =>
      let place : Int := p - (tried + 1 : Nat)
      -- In units of `1 / (den · scale)`, one step of the grid is `unit`.
      let scale := if 0 ≤ place then 1 else pow10 (-place).toNat
      let unit := den * (if 0 ≤ place then pow10 place.toNat else 1)
      let v := value * scale
      let c := v / unit
      let inside (x : Nat) : Bool :=
        let lo := v - below * scale
        let hi := v + above * scale
        if closed then lo ≤ x && x ≤ hi else lo < x && x < hi
      let down := inside (c * unit)
      let up := inside ((c + 1) * unit)
      if down && up then
        let down := v - c * unit
        let up := (c + 1) * unit - v
        if down < up || (down = up && tie.lesser c) then ⟨c, place⟩ else ⟨c + 1, place⟩
      else if down then ⟨c, place⟩
      else if up then ⟨c + 1, place⟩
      else search tie value below above den closed p (tried + 1) count

/-- The same number without a zero at the end of its digits.  The search finds one at most: where it
rounds up to ten. -/
def Decimal.trimmed (d : Decimal) : Decimal :=
  if d.digits ≠ 0 ∧ d.digits % 10 = 0 then ⟨d.digits / 10, d.place + 1⟩ else d

/-- The shortest decimal that reads back as `mantissa · 2 ^ exponent`. -/
def shortest (tie : Tie) (mantissa : Nat) (exponent : Int) : Decimal :=
  if mantissa = 0 then ⟨0, 0⟩
  else
    let shift := (2 - exponent).toNat
    let power := (exponent + shift).toNat
    let den := pow2 shift
    let value := mantissa * pow2 power
    let above := pow2 (power - 1)
    let below :=
      if mantissa = pow2 52 && leastExponent < exponent then pow2 (power - 2) else above
    let p := leadingPlace value den 700 (-330)
    (search tie value below above den (mantissa % 2 = 0) p 0 17).trimmed

/-- The positional text of a decimal number, always with a point. -/
def Decimal.text (d : Decimal) : String :=
  let digits := Nat.toDigits 10 d.digits
  if 0 ≤ d.place then String.ofList (digits ++ List.replicate d.place.toNat '0') ++ ".0"
  else
    let back := (-d.place).toNat
    let padded := List.replicate (back + 1 - digits.length) '0' ++ digits
    let front := padded.take (padded.length - back)
    let fraction := padded.drop (padded.length - back)
    String.ofList front ++ "." ++ String.ofList fraction

def text : Binary64 → String
  | .finite negative m e => (if negative then "-" else "") ++ (shortest .greater m e).text
  | .infinite negative => if negative then "-inf" else "inf"
  | .notANumber => "NaN"

/-- The text of a decimal number with one digit in front of the point, and an exponent with its
sign. -/
def Decimal.scientificText (d : Decimal) : String :=
  let digits := Nat.toDigits 10 d.digits
  let exponent : Int := d.place + (digits.length - 1 : Nat)
  let fraction := if digits.length ≤ 1 then [] else '.' :: digits.tail
  String.ofList (digits.take 1 ++ fraction) ++ "e" ++
    (if exponent < 0 then "-" else "+") ++ toString exponent.natAbs

/-- The text of a decimal number: positional from `0.00001` up to sixteen digits in front of the
point, scientific outside. -/
def Decimal.compactText (d : Decimal) : String :=
  let exponent : Int := d.place + ((Nat.toDigits 10 d.digits).length - 1 : Nat)
  if -5 ≤ exponent ∧ exponent ≤ 15 then d.text else d.scientificText

def compactText : Binary64 → String
  | .finite negative m e => (if negative then "-" else "") ++ (shortest .even m e).compactText
  | .infinite negative => if negative then "-inf" else "inf"
  | .notANumber => "NaN"

end Binary64

end ClojureBuild
