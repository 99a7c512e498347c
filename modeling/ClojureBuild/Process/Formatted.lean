import ClojureBuild.Decimal.Binary64
import ClojureBuild.Shell.Arithmetic
/-!
Texts with escapes, and texts made by a format: what `echo` and `printf` write.

A format is used again while arguments are left.  What a program of this kind understands differs a
little from one to the next; a `Manner` says which one is meant.
-/

namespace ClojureBuild.Formatted

/-- Whose rules hold: those of the plain shell, of `bash`, or of the separate programs. -/
inductive Manner where
  | plain
  | bash
  | separate
deriving DecidableEq, Repr, Inhabited

/-! ### Escapes -/

/-- The character that a letter behind a backslash stands for. -/
def simpleEscape? : Char → Option Char
  | 'a' => some (Char.ofNat 7)
  | 'b' => some (Char.ofNat 8)
  | 'f' => some (Char.ofNat 12)
  | 'n' => some '\n'
  | 'r' => some '\r'
  | 't' => some '\t'
  | 'v' => some (Char.ofNat 11)
  | '\\' => some '\\'
  | _ => none

/-- The digits to base eight that a text begins with, at most so many. -/
def octalDigits (text : List Char) (most : Nat) : List Char :=
  (text.take most).takeWhile fun c => '0' ≤ c && c ≤ '7'

/-- The digits to base sixteen that a text begins with, at most so many. -/
def hexDigits (text : List Char) (most : Nat) : List Char :=
  (text.take most).takeWhile fun c => (Shell.Arithmetic.digitValue? 16 c).isSome

/-- The character with the number that some digits write. -/
def ofDigits (base : Nat) (digits : List Char) : Char :=
  Char.ofNat ((Shell.Arithmetic.readDigits base digits).1 % 256)

/-- Where an escape stands: in a format, in an argument that is unescaped, or in the words of
`echo`. -/
inductive Place where
  | format
  | argument
  | words
deriving DecidableEq, Repr

/-- What a backslash and the text behind it mean: a character, or nothing and an end. -/
inductive Escape where
  | char (c : Char) (rest : List Char)
  | stop
  /-- The backslash stands for itself. -/
  | none
deriving DecidableEq, Repr

/-- The escape that a text begins with, behind its backslash. -/
def readEscape (manner : Manner) (place : Place) (text : List Char) : Escape :=
  match text with
  | [] => .none
  | c :: rest =>
      match simpleEscape? c with
      | some d => .char d rest
      | .none =>
          if c = '0' && place ≠ .format then
            let digits := octalDigits rest 3
            .char (ofDigits 8 digits) (rest.drop digits.length)
          else if '0' ≤ c && c ≤ '7' && (manner ≠ .bash || place ≠ .words) then
            let digits := octalDigits text 3
            .char (ofDigits 8 digits) (text.drop digits.length)
          else if c = 'c' then
            if place = .format && manner ≠ .separate then .none else .stop
          else if c = 'e' then .char (Char.ofNat 27) rest
          else if manner = .plain then .none
          else if c = 'x' then
            let digits := hexDigits rest 2
            if digits.isEmpty then .none else .char (ofDigits 16 digits) (rest.drop digits.length)
          else if c = 'E' then .char (Char.ofNat 27) rest
          else if c = '"' && place ≠ .words then .char c rest
          else .none

/-- A text with its escapes carried out, and whether it was cut short. -/
def unescape (manner : Manner) (place : Place) : Nat → List Char → List Char × Bool
  | 0, _ => ([], false)
  | _, [] => ([], false)
  | n + 1, c :: rest =>
      let go (d : Char) (rest : List Char) : List Char × Bool :=
        let (others, cut) := unescape manner place n rest
        (d :: others, cut)
      if c = '\\' then
        match readEscape manner place rest with
        | .char d rest => go d rest
        | .stop => ([], true)
        | .none => go c rest
      else go c rest

/-- The options of `echo` at the front of its words: whether the line end is left out, whether
escapes are carried out, and the words. -/
def echoOptions (manner : Manner) : List String → Bool → Bool → Bool × Bool × List String
  | [], bare, escapes => (bare, escapes, [])
  | arg :: rest, bare, escapes =>
      match manner with
      | .plain => if arg = "-n" then (true, escapes, rest) else (bare, escapes, arg :: rest)
      | _ =>
          match arg.toList with
          | '-' :: c :: letters =>
              if (c :: letters).all fun d => d = 'n' || d = 'e' || d = 'E' then
                let last := ((c :: letters).filter (· != 'n')).getLast?
                let escapes := match last with
                  | some 'e' => true
                  | some _ => false
                  | none => escapes
                echoOptions manner rest (bare || (c :: letters).contains 'n') escapes
              else (bare, escapes, arg :: rest)
          | _ => (bare, escapes, arg :: rest)

def echo (manner : Manner) (args : List String) : String :=
  let (bare, escapes, words) := echoOptions manner args false (manner = .plain)
  let text := (String.intercalate " " words).toList
  let (text, cut) := if escapes then unescape manner .words (text.length + 1) text
    else (text, false)
  String.ofList text ++ (if bare || cut then "" else "\n")

/-! ### Numbers -/

/-- How a piece of text is set: flags, least width, and precision. -/
structure Setting where
  flags : List Char
  width : Nat
  precision : Option Nat
deriving DecidableEq, Repr, Inhabited

def pad (s : Setting) (text : List Char) : List Char :=
  let gap := List.replicate (s.width - text.length) ' '
  if s.flags.contains '-' then text ++ gap else gap ++ text

/-- Digits with a sign and a mark in front, filled up to the width. -/
def padNumber (s : Setting) (zeros : Bool) (front digits : List Char) : List Char :=
  if zeros && s.flags.contains '0' && !s.flags.contains '-' then
    front ++ List.replicate (s.width - front.length - digits.length) '0' ++ digits
  else pad s (front ++ digits)

def signOf (s : Setting) (negative : Bool) : List Char :=
  if negative then ['-'] else if s.flags.contains '+' then ['+']
  else if s.flags.contains ' ' then [' '] else []

def setWhole (s : Setting) (kind : Char) (value : Int) : List Char :=
  let signed := kind = 'd' || kind = 'i'
  let base := if kind = 'o' then 8 else if kind = 'x' || kind = 'X' then 16 else 10
  let size := if signed then value.natAbs else Shell.Arithmetic.bits value
  let digits := Nat.toDigits base size
  let digits := if s.precision = some 0 && size = 0 then [] else digits
  let digits := if kind = 'X' then digits.map Char.toUpper else digits
  let digits := List.replicate (s.precision.getD 0 - digits.length) '0' ++ digits
  let alternate := s.flags.contains '#' && size ≠ 0
  let digits := if alternate && base = 8 && digits.head? ≠ some '0' then '0' :: digits else digits
  let front := if signed then signOf s (value < 0)
    else if alternate && base = 16 then ['0', kind] else []
  padNumber s s.precision.isNone front digits

/-- The digits of a quotient with a number of places behind the point. -/
def fixedDigits (num den places : Nat) : List Char × List Char :=
  let n := Binary64.nearest (num * Binary64.pow10 places) den
  let digits := Nat.toDigits 10 n
  let padded := List.replicate (places + 1 - digits.length) '0' ++ digits
  (padded.take (padded.length - places), padded.drop (padded.length - places))

def quotientOf (mantissa : Nat) (exponent : Int) : Nat × Nat :=
  if 0 ≤ exponent then (mantissa * Binary64.pow2 exponent.toNat, 1)
  else (mantissa, Binary64.pow2 (-exponent).toNat)

/-- The exponent of the leading digit when the number is rounded to some more digits, and the whole
of those digits. -/
def scientificDigits (num den places : Nat) : Int × List Char :=
  if num = 0 then (0, List.replicate (places + 1) '0')
  else
    let p := Binary64.leadingPlace num den 700 (-330) - 1
    let rounded (p : Int) : Nat :=
      let shift : Int := places - p
      if 0 ≤ shift then Binary64.nearest (num * Binary64.pow10 shift.toNat) den
      else Binary64.nearest num (den * Binary64.pow10 (-shift).toNat)
    let digits := Nat.toDigits 10 (rounded p)
    if digits.length = places + 1 then (p, digits) else (p + 1, digits.take (places + 1))

/-- A text with a point and a fraction, which may be missing. -/
def withFraction (alternate : Bool) (whole fraction : List Char) : List Char :=
  if fraction.isEmpty && !alternate then whole else whole ++ '.' :: fraction

/-- The text of an exponent: a letter, a sign and at least two digits. -/
def exponentText (e : Char) (n : Int) : List Char :=
  let digits := Nat.toDigits 10 n.natAbs
  e :: (if n < 0 then '-' else '+') :: (List.replicate (2 - digits.length) '0' ++ digits)

def dropZeros (fraction : List Char) : List Char :=
  (fraction.reverse.dropWhile (· == '0')).reverse

def setReal (s : Setting) (kind : Char) (value : Binary64) : List Char :=
  let lower := kind.toLower
  let raised (text : List Char) : List Char := if kind.isUpper then text.map Char.toUpper else text
  match value with
  | .notANumber => pad s (raised "nan".toList)
  | .infinite negative => pad s (signOf s negative ++ raised "inf".toList)
  | .finite negative m e =>
      let (num, den) := quotientOf m e
      let alternate := s.flags.contains '#'
      let places := s.precision.getD 6
      let scientific (places : Nat) (drop : Bool) : List Char :=
        let (p, digits) := scientificDigits num den places
        let fraction := digits.drop 1
        withFraction alternate (digits.take 1) (if drop then dropZeros fraction else fraction) ++
          exponentText 'e' p
      let body :=
        if lower = 'f' then
          let (whole, fraction) := fixedDigits num den places
          withFraction alternate whole fraction
        else if lower = 'e' then scientific places false
        else
          let wanted := if places = 0 then 1 else places
          let (p, _) := scientificDigits num den (wanted - 1)
          if p < -4 || (wanted : Int) ≤ p then scientific (wanted - 1) (!alternate)
          else
            let (whole, fraction) := fixedDigits num den (wanted - 1 - p).toNat
            withFraction alternate whole (if alternate then fraction else dropZeros fraction)
      padNumber s true (signOf s negative) (raised body)

/-- The number at the front of a text, and what is behind it. -/
def readReal (text : List Char) : Binary64 × List Char :=
  let body := text.dropWhile Shell.Arithmetic.isSpace
  let (negative, body) := match body with
    | '-' :: rest => (true, rest)
    | '+' :: rest => (false, rest)
    | rest => (false, rest)
  let whole := body.takeWhile Char.isDigit
  let rest := body.drop whole.length
  let fraction := match rest with
    | '.' :: behind => behind.takeWhile Char.isDigit
    | _ => []
  let rest := match rest with
    | '.' :: behind =>
        if whole.isEmpty && fraction.isEmpty then rest else behind.drop fraction.length
    | _ => rest
  if whole.isEmpty && fraction.isEmpty then (.finite false 0 0, text)
  else
    let (exponent, rest) : Int × List Char :=
      match rest with
      | e :: behind =>
          if e = 'e' || e = 'E' then
            let (minus, digits) := match behind with
              | '-' :: d => (true, d)
              | '+' :: d => (false, d)
              | d => (false, d)
            let taken := digits.takeWhile Char.isDigit
            if taken.isEmpty then (0, rest)
            else
              let n : Int := (Shell.Arithmetic.readDigits 10 taken).1
              (if minus then -n else n, digits.drop taken.length)
          else (0, rest)
      | [] => (0, [])
    let digits := (Shell.Arithmetic.readDigits 10 (whole ++ fraction)).1
    (Binary64.ofDecimal negative digits (exponent - fraction.length), rest)

/-- What is wrong with an argument that should be a number. -/
inductive Doubt where
  | noNumber
  | notAll
  | outOfRange
deriving DecidableEq, Repr

/-- The whole number that an argument writes, or the number of the character behind a quote. -/
def readWhole (signed : Bool) (arg : List Char) : Int × Option Doubt :=
  match arg with
  | '\'' :: c :: _ => (c.toNat, none)
  | '"' :: c :: _ => (c.toNat, none)
  | _ =>
      let body := arg.dropWhile Shell.Arithmetic.isSpace
      let (negative, body) := match body with
        | '-' :: rest => (true, rest)
        | '+' :: rest => (false, rest)
        | rest => (false, rest)
      let (n, rest) := Shell.Arithmetic.readNatural body
      let value : Int := if negative then -n else n
      let doubt : Option Doubt :=
        if arg.isEmpty then none
        else if rest.length = body.length then some .noNumber
        else if !rest.isEmpty then some .notAll
        else none
      let value := if rest.length = body.length then 0 else value
      if signed then
        if value < Shell.Arithmetic.least then (Shell.Arithmetic.least, some .outOfRange)
        else if Shell.Arithmetic.greatest < value then
          (Shell.Arithmetic.greatest, some .outOfRange)
        else (value, doubt)
      else if (Shell.Arithmetic.modulus : Int) ≤ n then
        ((Shell.Arithmetic.modulus : Int) - 1, some .outOfRange)
      else (value, doubt)

/-! ### Formats -/

/-- A text that was made, with what there is to say about it. -/
structure Made where
  text : List Char
  complaints : List String
  /-- Why the making ended early. -/
  fatal : Option String
  /-- Whether an escape ended everything. -/
  stopped : Bool
deriving DecidableEq, Repr, Inhabited

def Made.andThen (first second : Made) : Made :=
  ⟨first.text ++ second.text, first.complaints ++ second.complaints, second.fatal, second.stopped⟩

/-- The message about an argument that is no number. -/
def doubtText (manner : Manner) (arg : String) : Doubt → String
  | .noNumber =>
      match manner with
      | .plain => arg ++ ": expected numeric value"
      | .bash => arg ++ ": invalid number"
      | .separate => "'" ++ arg ++ "': expected a numeric value"
  | .notAll =>
      match manner with
      | .plain => arg ++ ": not completely converted"
      | .bash => arg ++ ": invalid number"
      | .separate => "'" ++ arg ++ "': value not completely converted"
  | .outOfRange =>
      match manner with
      | .plain => arg ++ ": Numerical result out of range"
      | .bash => "warning: " ++ arg ++ ": Numerical result out of range"
      | .separate => "'" ++ arg ++ "': Numerical result out of range"

def quoteForShell (text : List Char) : List Char :=
  if text.isEmpty then "''".toList
  else text.flatMap fun c =>
    if c.isAlphanum || "_-./:,+@%=".toList.contains c then [c] else ['\\', c]

/-- A number in a format, or a star that takes it from the arguments. -/
def readSize (text : List Char) (args : List String) : Option Int × List Char × List String :=
  match text with
  | '*' :: rest => (some (readWhole true (args.headD "").toList).1, rest, args.tail)
  | _ =>
      let digits := text.takeWhile Char.isDigit
      (if digits.isEmpty then none else some (Shell.Arithmetic.readDigits 10 digits).1,
        text.drop digits.length, args)

/-- The setting behind a percent sign, with what is left of format and arguments. -/
def readSetting (text : List Char) (args : List String) : Setting × List Char × List String :=
  let flags := text.takeWhile fun c => "#-+ 0".toList.contains c
  let (width, rest, args) := readSize (text.drop flags.length) args
  let flags := if width.any (· < 0) then '-' :: flags else flags
  let (precision, rest, args) :=
    match rest with
    | '.' :: behind =>
        let (p, rest, args) := readSize behind args
        (some (p.getD 0), rest, args)
    | _ => (none, rest, args)
  let precision := precision.bind fun p => if p < 0 then none else some p.toNat
  (⟨flags, (width.getD 0).natAbs, precision⟩, rest, args)

/-- What an argument becomes under a kind of conversion; nothing for an unknown kind. -/
def convert (manner : Manner) (s : Setting) (kind : Char) (arg : Option String) : Option Made :=
  let text := (arg.getD "").toList
  let cut (t : List Char) : List Char := match s.precision with
    | some p => t.take p
    | none => t
  let number (value : List Char) (doubt : Option Doubt) : Made :=
    let complaints := match doubt, arg with
      | some d, some a => [doubtText manner a d]
      | _, _ => []
    ⟨value, complaints, none, false⟩
  if kind = 's' then some ⟨pad s (cut text), [], none, false⟩
  else if kind = 'b' then
    let (t, stopped) := unescape manner .argument (text.length + 1) text
    some ⟨pad s (cut t), [], none, stopped⟩
  else if kind = 'c' then
    let c := match text with
      | c :: _ => [c]
      | [] => if manner = .plain then [Char.ofNat 0] else []
    some ⟨pad s c, [], none, false⟩
  else if kind = 'q' && manner ≠ .plain then some ⟨pad s (quoteForShell text), [], none, false⟩
  else if "diouxX".toList.contains kind then
    let (value, doubt) := readWhole (kind = 'd' || kind = 'i') text
    some (number (setWhole s kind value) doubt)
  else if "eEfFgG".toList.contains kind then
    match text with
    | '\'' :: c :: _ => some (number (setReal s kind (.finite false c.toNat 0)) none)
    | _ =>
        let (value, rest) := readReal text
        let doubt : Option Doubt :=
          if rest.isEmpty then none
          else if rest.length = text.length then some .noNumber
          else some .notAll
        some (number (setReal s kind value) doubt)
  else none

/-- The complaint about a conversion of unknown kind, of which the text is given. -/
def unknownText (manner : Manner) (spec : List Char) : String :=
  match manner with
  | .plain => String.ofList spec ++ ": invalid directive"
  | .bash => "\x60" ++ String.ofList (spec.drop (spec.length - 1)) ++ "': invalid format character"
  | .separate => String.ofList spec ++ ": invalid conversion specification"

/-- One pass over a format: what it makes, and the arguments that are left. -/
def formatOnce (manner : Manner) : Nat → List Char → List String → Made × List String
  | 0, _, args => (⟨[], [], none, false⟩, args)
  | _, [], args => (⟨[], [], none, false⟩, args)
  | n + 1, c :: rest, args =>
      let go (made : Made) (rest : List Char) (args : List String) : Made × List String :=
        if made.stopped then (made, args)
        else
          let (others, args) := formatOnce manner n rest args
          (made.andThen others, args)
      let text (d : Char) : Made := ⟨[d], [], none, false⟩
      if c = '\\' then
        match readEscape manner .format rest with
        | .char d rest => go (text d) rest args
        | .stop => (⟨[], [], none, true⟩, args)
        | .none => go (text c) rest args
      else if c = '%' then
        match rest with
        | '%' :: rest => go (text '%') rest args
        | _ =>
            let (s, behind, left) := readSetting rest args
            let behind := if manner = .plain then behind
              else behind.dropWhile fun d => "lhLjzt".toList.contains d
            match behind with
            | [] =>
                let message := match manner with
                  | .plain => "missing format character"
                  | .bash => "\x60%': missing format character"
                  | .separate => "%" ++ String.ofList rest ++ ": invalid conversion specification"
                (⟨[], [], some message, false⟩, left)
            | kind :: behind =>
                match convert manner s kind left.head? with
                | some made => go made behind left.tail
                | none =>
                    let spec := '%' :: rest.take (rest.length - behind.length)
                    (⟨[], [], some (unknownText manner spec), false⟩, left)
      else go (text c) rest args

/-- What a format makes of arguments; it is used again while arguments are left. -/
def format (manner : Manner) : Nat → List Char → List String → Made
  | 0, _, _ => ⟨[], [], none, false⟩
  | n + 1, pattern, args =>
      let (made, left) := formatOnce manner (pattern.length + 1) pattern args
      if left.isEmpty || left.length = args.length || made.stopped || made.fatal.isSome then
        if left.length = args.length && !left.isEmpty && manner = .separate &&
            made.fatal.isNone && !made.stopped then
          { made with complaints := made.complaints ++
              ["warning: ignoring excess arguments, starting with '" ++ left.headD "" ++ "'"] }
        else made
      else made.andThen (format manner n pattern left)

example : (format .plain 3 "%03d|%-4s|%.2f\\n".toList ["7", "ab", "3.14159"]).text =
    "007|ab  |3.14\n".toList := by decide +kernel

end ClojureBuild.Formatted
