import ClojureBuild.Process.Program.Lines
import ClojureBuild.Text.Regex
/-!
The program that searches lines, and the one that calculates with numbers and texts.
-/

namespace ClojureBuild.Program

/-! ### Searching -/

/-- What is searched for: expressions of which one has to match, and how much of a line or word. -/
structure Wanted where
  regexes : List Regex
  foldsCase : Bool
  words : Bool
  wholeLines : Bool
deriving Inhabited

namespace Wanted

/-- The first match of an expression that is a whole word or line where that is asked for; the
number bounds the places. -/
def matchOne (w : Wanted) (s : Regex.Subject) (r : Regex) : Nat → Nat → Option (Nat × Nat)
  | 0, _ => none
  | n + 1, start =>
      match r.find? s start with
      | none => none
      | some (i, found) =>
          let j := found.stop
          let isWord := !(0 < i && s.isWordAt (i - 1)) && !(s.isWordAt j)
          let fits := (!w.words || isWord) && (!w.wholeLines || (i = 0 && j = s.text.size))
          if fits then some (i, j) else matchOne w s r n (i + 1)

/-- The first match in a line from a place on: its start and end. -/
def find? (w : Wanted) (line : Array Char) (start : Nat) : Option (Nat × Nat) :=
  let s : Regex.Subject := ⟨line, w.foldsCase⟩
  w.regexes.foldl (fun best r =>
    match best, w.matchOne s r (line.size + 2) start with
    | none, found => found
    | best, none => best
    | some (i, j), some (k, l) => if k < i || (k = i && j < l) then some (k, l) else some (i, j))
    none

/-- All matches in a line that are not empty; the number bounds them. -/
def findAll (w : Wanted) (line : Array Char) : Nat → Nat → List String
  | 0, _ => []
  | n + 1, start =>
      if line.size < start then []
      else
        match w.find? line start with
        | none => []
        | some (i, j) =>
            if j ≤ i then findAll w line n (i + 1)
            else String.ofList (line.extract i j).toList :: findAll w line n j

end Wanted

/-- The places of some things in a list, each with its neighbours. -/
def withContext (before after size : Nat) (hits : List Nat) : List Nat :=
  (List.range size).filter fun i => hits.any fun h => i ≤ h + after && h ≤ i + before

/-- The lines that are shown, with marks between parts that do not touch. -/
def shownLines (row : Nat → Bool → String → String) (context : Bool) (lines : Array String)
    (hits : List Nat) : List Nat → Option Nat → List String
  | [], _ => []
  | i :: rest, last =>
      let gap := context && (match last with
        | some l => l + 1 < i
        | none => false)
      (if gap then ["--"] else []) ++
        row (i + 1) (hits.contains i) (lines[i]?.getD "") ::
          shownLines row context lines hits rest (some i)

def filesBelow : Nat → String → Program (List String)
  | 0, _ => return []
  | n + 1, name => do
      let w ← world
      match w.stat ⟨name⟩ with
      | .ok (loc, .dir _) =>
          let names := w.childNames loc
          return (← names.mapM fun child => filesBelow n (joinNames name child)).flatten
      | .ok _ => return [name]
      | .error _ => return []

def grepForms : Forms :=
  { (Forms.ofLetters "EFGPicvnlLqshHowxrRzaUbyT" "efmABCdD" [("extended-regexp", 'E'),
    ("fixed-strings", 'F'), ("basic-regexp", 'G'), ("ignore-case", 'i'), ("count", 'c'),
    ("invert-match", 'v'), ("line-number", 'n'), ("files-with-matches", 'l'),
    ("files-without-match", 'L'), ("quiet", 'q'), ("silent", 'q'), ("no-messages", 's'),
    ("no-filename", 'h'), ("with-filename", 'H'), ("only-matching", 'o'), ("word-regexp", 'w'),
    ("line-regexp", 'x'), ("recursive", 'r'), ("regexp", 'e'), ("file", 'f'), ("max-count", 'm'),
    ("after-context", 'A'), ("before-context", 'B'), ("context", 'C')]) with fault := 2 }

def refuseGrep {α : Type} : Program α := do
  let name := (← read).name
  let _ ← writeTo 2 ("Usage: " ++ name ++ " [OPTION]... PATTERNS [FILE]...\nTry '" ++ name ++
    " --help' for more information.\n")
  stop 2

/-- Searches with a kind of expression that may be chosen by an option. -/
def grepWith (kind : Char) : Program ExitStatus := do
  let a ← arguments grepForms
  let kind := (a.lastOf? "EFGP").getD kind
  let given := (a.options.filter (·.1 == 'e')).map (·.2)
  let listed ← match a.value? 'f' with
    | none => pure []
    | some name => do
        match ← content name with
        | .ok text => pure (linesOf text).1
        | .error e => refuse 2 (faulty name e)
  let (texts, names) ← match given ++ listed, a.operands with
    | [], _ => do
        if a.has 'f' then pure ([], a.operands)
        else
          match a.operands with
          | [] => refuseGrep
          | first :: names => pure ([first], names)
    | texts, names => pure (texts, names)
  let texts := texts.flatMap (Text.splitString '\n')
  let regexes ← texts.mapM fun text => do
    if kind = 'F' then return Regex.literal text.toList
    else
      match Regex.ofText (kind ≠ 'G') text with
      | .ok r => return r
      | .error message => refuse 2 message
  let wanted : Wanted := ⟨regexes, a.has 'i' || a.has 'y', a.has 'w', a.has 'x'⟩
  let number (c : Char) : Option Nat := (a.value? c).bind String.toNat?
  let around := (number 'C').getD 0
  let before := (number 'B').getD around
  let after := (number 'A').getD around
  let recursive := a.has 'r' || a.has 'R'
  let names ← if recursive then do
      let roots := if names.isEmpty then ["."] else names
      let found ← roots.mapM fun root => do
        if ← isDir root then filesBelow 2000 root else return [root]
      pure (if names.isEmpty then found.flatten.map fun f => String.ofList (f.toList.drop 2)
        else found.flatten)
    else pure (if names.isEmpty then ["-"] else names)
  let labelled := (1 < names.length || a.has 'H' || recursive) && !a.has 'h'
  let step (sofar : Bool × Bool) (name : String) : Program (Bool × Bool) := do
    let (any, bad) := sofar
    match ← content name with
    | .error e =>
        unless a.has 's' do warn (faulty name e)
        return (any, true)
    | .ok text =>
        let lines := (linesOf text).1.toArray
        let shownName := if name = "-" then "(standard input)" else name
        let hit (i : Nat) : Bool :=
          (wanted.find? ((lines[i]?.getD "").toList.toArray) 0).isSome != a.has 'v'
        let hits := (List.range lines.size).filter hit
        let hits := match number 'm' with
          | some n => hits.take n
          | none => hits
        let label (mark : String) (i : Nat) : String :=
          (if labelled then shownName ++ mark else "") ++
            (if a.has 'n' then toString i ++ mark else "")
        if a.has 'q' then pure ()
        else if a.has 'l' || a.has 'L' then
          unless hits.isEmpty == a.has 'l' do say (shownName ++ "\n")
        else if a.has 'c' then
          say ((if labelled then shownName ++ ":" else "") ++ toString hits.length ++ "\n")
        else if a.has 'o' then
          unless a.has 'v' do
            say (joinLines (hits.flatMap fun i =>
              let line := (lines[i]?.getD "").toList.toArray
              (wanted.findAll line (line.size + 2) 0).map fun m => label ":" (i + 1) ++ m))
        else
          let row (i : Nat) (isHit : Bool) (line : String) : String :=
            label (if isHit then ":" else "-") i ++ line
          let context := 0 < before || 0 < after
          say (joinLines (shownLines row context lines hits
            (withContext before after lines.size hits) none))
        return (any || !hits.isEmpty, bad)
  let (any, bad) ← names.foldlM step (false, false)
  if a.has 'q' && any then return .exited 0
  else return .exited (if bad then 2 else if any then 0 else 1)
where
  isDir (name : String) : Program Bool := return (← world).isDir ⟨name⟩

/-! ### Expressions -/

/-- A value of an expression. -/
inductive ExprValue where
  | number (n : Int)
  | text (s : String)
deriving DecidableEq, Repr, Inhabited

namespace ExprValue

def shown : ExprValue → String
  | .number n => toString n
  | .text s => s

def number? : ExprValue → Option Int
  | .number n => some n
  | .text s =>
      let digits := match s.toList with
        | '-' :: rest => rest
        | rest => rest
      if digits.isEmpty || !digits.all Char.isDigit then none else s.toInt?

def isNull : ExprValue → Bool
  | .number n => n == 0
  | .text s =>
      let digits := match s.toList with
        | '-' :: rest => rest
        | rest => rest
      s.isEmpty || (!digits.isEmpty && digits.all (· == '0'))

end ExprValue

/-- What is to be calculated: the level of the operators, least binding first. -/
abbrev ExprReader := ExceptT (Nat × String) (StateM (List String × String))

namespace Expr

def fail {α : Type} (status : Nat) (text : String) : ExprReader α := throw (status, text)

def operators : Nat → List String
  | 0 => ["|"]
  | 1 => ["&"]
  | 2 => ["<", "<=", "=", "==", "!=", ">=", ">"]
  | 3 => ["+", "-"]
  | 4 => ["*", "/", "%"]
  | _ => [":"]

/-- What an expression matches at the front of a text: its group, or its length. -/
def matchFront (a b : ExprValue) : ExprReader ExprValue := do
  match Regex.ofText false b.shown with
  | .error message => fail 2 message
  | .ok r =>
      let text := a.shown.toList.toArray
      let hasGroup := (Text.occursIn ['\\', '('] b.shown.toList)
      match r.matchAt ⟨text, false⟩ 0 with
      | some found =>
          match hasGroup, found.groups.find? (·.1 == 1) with
          | true, some (_, i, j) => return .text (String.ofList (text.extract i j).toList)
          | true, none => return .text ""
          | false, _ => return .number found.stop
      | none => return if hasGroup then .text "" else .number 0

def apply (operator : String) (a b : ExprValue) : ExprReader ExprValue := do
  let numbers (f : Int → Int → ExprReader Int) : ExprReader ExprValue := do
    match a.number?, b.number? with
    | some x, some y => return .number (← f x y)
    | _, _ => fail 2 "non-integer argument"
  let compared (o : Ordering → Bool) : ExprReader ExprValue :=
    let ordering := match a.number?, b.number? with
      | some x, some y => compare x y
      | _, _ => compare a.shown b.shown
    return .number (if o ordering then 1 else 0)
  match operator with
  | "|" =>
      if !a.isNull then return a else if !b.isNull then return b else return .number 0
  | "&" => return if a.isNull || b.isNull then .number 0 else a
  | "<" => compared (· == .lt)
  | "<=" => compared (· != .gt)
  | "=" | "==" => compared (· == .eq)
  | "!=" => compared (· != .eq)
  | ">=" => compared (· != .lt)
  | ">" => compared (· == .gt)
  | "+" => numbers fun x y => return x + y
  | "-" => numbers fun x y => return x - y
  | "*" => numbers fun x y => return x * y
  | "/" => numbers fun x y => do
      if y = 0 then fail 2 "division by zero" else return Int.tdiv x y
  | "%" => numbers fun x y => do
      if y = 0 then fail 2 "division by zero" else return Int.tmod x y
  | _ => matchFront a b

def word : ExprReader String := do
  match ← get with
  | (w :: rest, _) =>
      set (rest, w)
      return w
  | ([], last) => fail 2 ("syntax error: missing argument after " ++ quoted last)

/-- Calculates at a level, or goes on with the operators of a level behind a value. -/
def calculate : Nat → Nat → Option ExprValue → ExprReader ExprValue
  | 0, _, _ => fail 2 "syntax error"
  | n + 1, level, some a => do
      match (← get).1 with
      | operator :: _ =>
          if (operators level).contains operator then
            let _ ← word
            let b ← calculate n (level + 1) none
            calculate n level (some (← apply operator a b))
          else return a
      | [] => return a
  | n + 1, level, none => do
      if level < 6 then
        let a ← calculate n (level + 1) none
        calculate n level (some a)
      else
        let next := calculate n 6 none
        match ← word with
        | "(" =>
            let a ← calculate n 0 none
            match (← get).1 with
            | ")" :: _ =>
                let _ ← word
                return a
            | [] => fail 2 ("syntax error: expecting ')' after " ++ quoted (← get).2)
            | w :: _ => fail 2 ("syntax error: expecting ')' instead of " ++ quoted w)
        | ")" => fail 2 "syntax error: unexpected ')'"
        | "+" => return .text (← word)
        | "length" => return .number (← next).shown.length
        | "match" => do
            let a ← next
            matchFront a (← next)
        | "index" => do
            let text := (← next).shown.toList
            let set := (← next).shown.toList
            return .number (match text.findIdx? set.contains with
              | some i => i + 1
              | none => 0)
        | "substr" => do
            let text := (← next).shown.toList
            let start := (← next).number?
            let length := (← next).number?
            match start, length with
            | some i, some k =>
                if i ≤ 0 || k ≤ 0 then return .text ""
                else return .text (String.ofList ((text.drop (i.toNat - 1)).take k.toNat))
            | _, _ => return .text ""
        | w => return .text w

end Expr

/-- Calculates the value of an expression of whole numbers and texts. -/
def expr : Program ExitStatus := do
  let args := match (← read).args with
    | "--" :: rest => rest
    | args => args
  if args.isEmpty then refuseUsage 2 "missing operand"
  match (Expr.calculate (20 * args.length + 20) 0 none).run.run (args, "") with
  | (.error (status, text), _) => refuse status text
  | (.ok value, ([], _)) =>
      say (value.shown ++ "\n")
      return .exited (if value.isNull then 1 else 0)
  | (.ok _, (extra :: _, _)) => refuse 2 ("syntax error: unexpected argument " ++ quoted extra)

end ClojureBuild.Program
