import ClojureBuild.Decimal.Binary64
/-!
Numbers of JSON texts, read the quick way.

The digits that fit 64 bits make one floating-point number, and a power of ten makes another; the
number that is read is their product or quotient.  All three are rounded, so it need not be the one
nearest to the text.
-/

namespace ClojureBuild.Decimal

/-- A number as it is read: whole numbers of 64 bits stay exact. -/
inductive Quick where
  | integer (value : Int)
  | float (value : Binary64)
deriving DecidableEq, Repr, Inhabited

namespace Quick

/-- Takes digits up into a number as long as it fits 64 bits: the number and the digits left. -/
def takeUp (n : Nat) : List Char → Nat × List Char
  | [] => (n, [])
  | c :: rest =>
      let next := 10 * n + (c.toNat - '0'.toNat)
      if next < Binary64.pow2 64 then takeUp next rest else (n, c :: rest)

/-- A number times `10 ^ exponent`; nothing when that is too large.  Powers of ten beyond the
greatest one that is finite are divided by one after another. -/
def scale? : Nat → Binary64 → Int → Option Binary64
  | 0, x, _ => some x
  | fuel + 1, x, exponent =>
      let power (k : Nat) : Binary64 := Binary64.ofDecimal false 1 k
      if exponent.natAbs ≤ 308 then
        if 0 ≤ exponent then
          let y := x.times (power exponent.toNat)
          if y.isFinite then some y else none
        else some (x.dividedBy (power (-exponent).toNat))
      else if x.isZero then some x
      else if 0 ≤ exponent then none
      else scale? fuel (x.dividedBy (power 308)) (exponent + 308)

/-- The number whose text has these digits in front of the point, behind it, and this exponent;
nothing when it is too large. -/
def float? (negative : Bool) (whole fraction : List Char) (exponent : Int) : Option Binary64 :=
  let (n, above) := takeUp 0 whole
  let (n, behind) := takeUp n fraction
  -- Digits that did not fit count in front of the point and are dropped behind it.
  let place : Int := above.length - (fraction.length - behind.length : Nat)
  -- Three rounds are enough: the second division already leaves nothing.
  scale? 3 (Binary64.ofDecimal negative n 0) (place + exponent)

/-- Reads a number; nothing when it is too large. -/
def read? (text : List Char) : Option Quick :=
  let (negative, text) := match text with
    | '-' :: rest => (true, rest)
    | _ => (false, text)
  let whole := text.takeWhile Char.isDigit
  let rest := text.drop whole.length
  let n := (whole.foldl (fun n c => 10 * n + (c.toNat - '0'.toNat)) 0 : Nat)
  match rest with
  | [] =>
      if negative then
        if 0 < n ∧ n ≤ Binary64.pow2 63 then some (.integer (-n))
        else (float? true whole [] 0).map .float
      else if n < Binary64.pow2 64 then some (.integer n)
      else (float? false whole [] 0).map .float
  | _ =>
      let (fraction, rest) := match rest with
        | '.' :: rest => (rest.takeWhile Char.isDigit, rest.dropWhile Char.isDigit)
        | _ => ([], rest)
      let exponent : Int := match rest.drop 1 with
        | '-' :: digits => -((String.ofList digits).toNat?.getD 0 : Nat)
        | '+' :: digits => ((String.ofList digits).toNat?.getD 0 : Nat)
        | digits => ((String.ofList digits).toNat?.getD 0 : Nat)
      (float? negative whole fraction exponent).map .float

end Quick

end ClojureBuild.Decimal
