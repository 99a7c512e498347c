import ClojureBuild.Shell.Arithmetic
import ClojureBuild.Shell.Pattern
import ClojureBuild.Shell.State
/-!
The expansion of words: tildes, parameters, command substitutions and arithmetic, then the splitting
into fields, then file names.

What a word expands to is first a list of *atoms*, which remember where each character comes from.
Only what an expansion outside of quotes gave is split, and only characters outside of quotes have a
meaning in patterns.
-/

namespace ClojureBuild.Shell

/-- A piece of an expanded word. -/
inductive Atom where
  /-- A character; `divides` tells whether it can separate fields. -/
  | char (quoted divides : Bool) (c : Char)
  /-- A pair of quotes, which makes a field even if there is nothing in it. -/
  | quotes
  /-- The end of a field; where there are no fields, some text instead. -/
  | cut (text : List Char)
deriving DecidableEq, Repr, Inhabited

/-- How the script of a command substitution is carried out: its output. -/
abbrev Substitution := Nat → List Char → Act String

/-- A character and whether it is quoted. -/
abbrev Marked := List (Char × Bool)

namespace Atom

def ofText (quoted divides : Bool) (text : List Char) : List Atom :=
  text.map (.char quoted divides)

def marked : List Atom → Marked
  | [] => []
  | .char quoted _ c :: rest => (c, quoted) :: marked rest
  | .quotes :: rest => marked rest
  | .cut text :: rest => text.map (·, true) ++ marked rest

/-- The text of some atoms, without the places where fields end. -/
def text (atoms : List Atom) : String := String.ofList ((marked atoms).map (·.1))

end Atom

/-! ### Fields -/

/-- A field while it is put together: its characters in reverse, unless nothing makes it a field
yet. -/
abbrev OpenField := Option (List (Char × Bool))

/-- Whether the separators so far end a field, or already count for a mark between fields. -/
inductive Between where
  | inside
  | behindBlank
  | behindMark
deriving DecidableEq, Repr

def splitFields (separators : List Char) : List Atom → OpenField → Between → List Marked
  | [], field, _ => (field.map List.reverse).toList
  | .quotes :: rest, field, _ => splitFields separators rest (some (field.getD [])) .inside
  | .cut _ :: rest, field, _ =>
      (field.map List.reverse).toList ++ splitFields separators rest none .inside
  | .char quoted divides c :: rest, field, between =>
      if divides && separators.contains c then
        let blank := c = ' ' || c = '\t' || c = '\n'
        if blank then
          match field, between with
          | some chars, _ => chars.reverse :: splitFields separators rest none .behindBlank
          | none, between => splitFields separators rest none between
        else
          match field, between with
          | none, .behindBlank => splitFields separators rest none .behindMark
          | _, _ => (field.getD []).reverse :: splitFields separators rest none .behindMark
      else splitFields separators rest (some ((c, quoted) :: field.getD [])) .inside

example : splitFields [' ', ':'] (Atom.ofText false true " a : b::c:".toList) none .inside =
    ["a", "b", "", "c"].map fun s => s.toList.map (·, false) := by decide +kernel

/-! ### File names -/

def patternPieces : Marked → List Marked
  | [] => [[]]
  | (c, quoted) :: rest =>
      if c = '/' then [] :: patternPieces rest
      else
        match patternPieces rest with
        | [] => [[(c, quoted)]]
        | piece :: pieces => ((c, quoted) :: piece) :: pieces

def unmarked (text : Marked) : String := String.ofList (text.map (·.1))

/-- A piece of a path without the backslashes that take away a meaning. -/
def withoutEscapes : Marked → List Char
  | ('\\', false) :: (c, _) :: rest => c :: withoutEscapes rest
  | (c, _) :: rest => c :: withoutEscapes rest
  | [] => []

/-- The names in the directory that a text leads to. -/
def namesIn (w : World) (dir : String) (dots : Bool) : List String :=
  match w.stat ⟨if dir.isEmpty then "." else dir⟩ with
  | .ok (loc, .dir _) =>
      (if dots then [".", ".."] else []) ++ w.childNames loc
  | _ => []

/-- Whether anything stands at a path, be it a link that leads nowhere. -/
def standsAt (w : World) (name : String) : Bool :=
  match w.resolve false ⟨name⟩ with
  | .ok (.taken _) => true
  | _ => false

/-- The paths that the pieces of a pattern match behind a given front. -/
def matchPieces (w : World) (bash : Bool) : String → List Marked → List String
  | front, [] => if standsAt w front then [front] else []
  | front, piece :: rest =>
      if !isPattern piece then
        let path := front ++ String.ofList (withoutEscapes piece)
        if rest.isEmpty then (if standsAt w path then [path] else [])
        else matchPieces w bash (path ++ "/") rest
      else
        let items := patternOf bash piece
        let dotted := items.head? = some (.literal '.')
        let names := (namesIn w front (!bash)).filter fun name =>
          (dotted || name.toList.head? ≠ some '.') && matchesAll items name.toList
        names.flatMap fun name =>
          if rest.isEmpty then [front ++ name]
          else if w.isDir ⟨front ++ name⟩ then
            matchPieces w bash (front ++ name ++ "/") rest
          else []

def fileNames (w : World) (bash : Bool) (field : Marked) : List String :=
  if !isPattern field then [unmarked field]
  else
    match matchPieces w bash "" (patternPieces field) with
    | [] => [unmarked field]
    | names => sortBy (fun a b => decide (a < b)) names

/-! ### Parameters -/

/-- The value of a parameter. -/
inductive Value where
  | missing
  | text (text : String)
  /-- Several values; `joined` tells whether quotes make one field of them. -/
  | list (joined : Bool) (items : List String)
deriving DecidableEq, Repr, Inhabited

def shownOptions : List Char := "ubaCEVvxsnmiIfe".toList

/-- The number that decides where a name stands among the subscripts of a list. -/
def namePlace (name : String) : Nat :=
  name.toList.foldl (fun h c => Nat.xor ((h * 16777619) % 4294967296) c.toNat) 2166136261 % 1024

/-- The elements of a list in the order of their subscripts; names have an order of their own, in
which of two at one place the later one comes first. -/
def sortedElements (v : Variable) (elements : List (String × String)) : List (String × String) :=
  if v.associative then
    sortBy (fun a b => decide (namePlace a.1 < namePlace b.1)) elements.reverse
  else sortBy (fun a b => decide ((a.1.toNat?).getD 0 < (b.1.toNat?).getD 0)) elements

def elementValue (st : State) (name subscript : String) : Value :=
  let found := if name = "PIPESTATUS" then
      some { State.Variable.blank with
        elements := some (st.statuses.zipIdx.map fun (n, i) => (toString i, toString n)) }
    else st.lookUp? name
  match found with
  | none => if subscript = "@" then .list false [] else if subscript = "*" then .list true [] else
      .missing
  | some v =>
      let elements := v.elements.getD ((v.value.map fun text => ("0", text)).toList)
      if subscript = "@" || subscript = "*" then
        .list (subscript = "*") ((sortedElements v elements).map (·.2))
      else
        match elements.lookup subscript with
        | some text => .text text
        | none => .missing

def parameterValue (st : State) (name : String) : Value :=
  let ofOption : Option String → Value
    | some text => .text text
    | none => .missing
  match name with
  | "@" => .list false st.args
  | "*" => .list true st.args
  | "#" => .text (toString st.args.length)
  | "?" => .text (toString st.status)
  | "$" => .text (toString st.mainProcess)
  | "!" => ofOption (st.lastJob.map toString)
  | "-" => .text (String.ofList (shownOptions.filter st.options.contains))
  | "0" => .text st.name
  | _ =>
      match name.toNat? with
      | some n => ofOption st.args[n - 1]?
      | none =>
          if st.isBash && name = "PIPESTATUS" then
            ofOption (st.statuses.head?.map toString)
          else ofOption (st.value? name)

/-- What stands between several values that are joined. -/
def joiner (st : State) : List Char :=
  match st.value? "IFS" with
  | none => [' ']
  | some ifs => ifs.toList.take 1

/-- The atoms of several values, each a field of its own. -/
def listAtoms (quoted : Bool) (between : List Char) : List String → List Atom
  | [] => []
  | [item] => (if quoted then [.quotes] else []) ++ Atom.ofText quoted (!quoted) item.toList
  | item :: rest =>
      (if quoted then [.quotes] else []) ++ Atom.ofText quoted (!quoted) item.toList ++
        .cut between :: listAtoms quoted between rest

def valueAtoms (st : State) (quoted : Bool) : Value → List Atom
  | .missing => []
  | .text text => Atom.ofText quoted (!quoted) text.toList
  | .list joined items =>
      if joined && quoted then
        Atom.ofText true false (String.intercalate (String.ofList (joiner st)) items).toList
      else listAtoms quoted (joiner st) items

def valueText (st : State) : Value → String
  | .missing => ""
  | .text text => text
  | .list _ items => String.intercalate (String.ofList (joiner st)) items

def changeEnds (atFront : Bool) (f : String → String) : Value → Value
  | .missing => .missing
  | .text text => .text (f text)
  | .list joined items =>
      if atFront then .list joined (items.take 1 |>.map f |>.append (items.drop 1))
      else .list joined (items.dropLast ++ (items.getLast?.map f).toList)

def changeAll (f : String → String) : Value → Value
  | .missing => .missing
  | .text text => .text (f text)
  | .list joined items => .list joined (items.map f)

def isAbsent (emptyToo : Bool) : Value → Bool
  | .missing => true
  | .text text => emptyToo && text.isEmpty
  | .list _ items => items.isEmpty || (emptyToo && items.all String.isEmpty)

/-- The home directory that a tilde with a name stands for. -/
def homeOf? (st : State) (name : List Char) : Option String :=
  if name.isEmpty then st.value? "HOME"
  else if name = "root".toList then some "/root"
  else none

/-- The unquoted characters at the front, up to one of some marks. -/
def tildeName (stops : List Char) : Word → Option (List Char × Word)
  | [] => some ([], [])
  | .char false c :: rest =>
      if stops.contains c then some ([], .char false c :: rest)
      else (tildeName stops rest).map fun (name, rest) => (c :: name, rest)
  | _ => none

def expandTilde (st : State) (stops : List Char) (w : Word) : Word :=
  match w with
  | .char false '~' :: rest =>
      match tildeName stops rest with
      | some (name, behind) =>
          match homeOf? st name with
          | some home => .quotes :: plainWord true home.toList ++ behind
          | none => w
      | none => w
  | _ => w

/-- The value of an assignment with the tildes at its front and behind its colons expanded; the
number bounds the colons. -/
def expandTildes (st : State) : Nat → Word → Word
  | 0, w => w
  | n + 1, w =>
      let w := expandTilde st ['/', ':'] w
      match splitWord? ':' w with
      | some (front, behind) => front ++ .char false ':' :: expandTildes st n behind
      | none => w

/-! ### Expansion -/

/-- A whole number with the name of what has to be one. -/
def refuseFault {α : Type} (expression : String) (fault : Arithmetic.Fault) : Act α := do
  let bash := (← get).isBash
  match fault with
  | .badNumber _ => Act.fail fault.message
  | .readonly _ => Act.fail fault.message
  | .zeroDivision =>
      if bash then Act.fail (expression ++ ": division by 0 (error token is \"" ++
        String.ofList ((expression.toList.reverse.takeWhile
          (fun c => c != '/' && c != '%')).reverse.dropWhile (· == ' ')) ++ "\")")
      else Act.fail ("arithmetic expression: " ++ fault.message ++ ": \"" ++ expression ++ "\"")
  | _ =>
      if bash then Act.fail (expression ++ ": syntax error in expression")
      else Act.fail ("arithmetic expression: " ++ fault.message ++ ": \"" ++ expression ++ "\"")

/-- The value that a calculation sees for a variable, or for an element of a list. -/
def numberSource (st : State) (name : String) : Option String :=
  match Text.breakAt '[' name.toList with
  | (front, some back) =>
      match elementValue st (String.ofList front) (String.ofList back.dropLast) with
      | .text text => some text
      | _ => none
  | (_, none) =>
      match parameterValue st name with
      | .text text => some text
      | _ => none

/-- The value of an expression, whose assignments are carried out. -/
def calculate (expression : String) : Act Int := do
  let st ← get
  match Arithmetic.evaluate ⟨st.dialect, numberSource st⟩ expression.toList with
  | .error fault => refuseFault expression fault
  | .ok (value, assigned) =>
      assigned.forM fun (name, n) => Act.assign name (toString n)
      return value

/-- The message for a parameter without a value. -/
def absentMessage (bash emptyToo : Bool) (name message : String) : String :=
  if !message.isEmpty then name ++ ": " ++ message
  else if bash then
    name ++ ": parameter " ++ (if emptyToo then "null or not set" else "not set")
  else name ++ ": parameter not set" ++ (if emptyToo then " or null" else "")

def upperChar (c : Char) : Char := if c.isLower then Char.ofNat (c.toNat - 32) else c

def lowerChar (c : Char) : Char := if c.isUpper then Char.ofNat (c.toNat + 32) else c

def changeChars (all : Bool) (f : Char → Char) (text : String) : String :=
  match text.toList with
  | [] => text
  | c :: rest => String.ofList (f c :: (if all then rest.map f else rest))

/-- The piece of a list from a place on, which is counted from the end if it is negative. -/
def sliceOf {α : Type} (items : List α) (start : Int) (length : Option Int) : List α :=
  let size : Int := items.length
  let first := if start < 0 then start + size else start
  if first < 0 then []
  else
    let rest := items.drop first.toNat
    match length with
    | none => rest
    | some n => if n < 0 then rest.take (rest.length - n.natAbs) else rest.take n.toNat

/-- The atoms of a word.  The Boolean tells whether its plain text may be split as well, which is so
for the operand of a parameter. -/
def expandParts (substitute : Substitution) : Nat → Bool → Word → Act (List Atom)
  | 0, _, _ => return []
  | _, _, [] => return []
  | n + 1, divides, part :: rest => do
      let first ← match part with
        | .char quoted c => pure [Atom.char quoted (divides && !quoted) c]
        | .quotes => pure [Atom.quotes]
        | .stream line script => do
            let text ← substitute line script
            let st ← get
            let (machine, number) :=
              st.machine.openBuffer (if text.isEmpty then text else text ++ "\n")
            let used (d : Nat) : Bool := (st.descriptors.lookup d).isSome
            let descriptor := ((List.range 54).map (63 - ·)).find? (!used ·) |>.getD 63
            set { st with
              machine, descriptors := (descriptor, number) :: st.descriptors }
            pure (Atom.ofText true false ("/dev/fd/" ++ toString descriptor).toList)
        | .output quoted line script => do
            let text ← substitute line script
            pure (Atom.ofText quoted (!quoted) text.toList)
        | .arithmetic quoted expression => do
            let atoms ← expandParts substitute n false expression
            let value ← calculate (Atom.text atoms)
            pure (Atom.ofText quoted (!quoted) (toString value).toList)
        | .parameter quoted name subscript operation operand extra => do
            let whole (divides : Bool) (w : Word) : Act (List Atom) := do
              expandParts substitute n divides (expandTilde (← get) ['/'] w)
            let lookUp : Act Value := do
              if subscript.isEmpty then return parameterValue (← get) name
              else
                let inner := Atom.text (← expandParts substitute n false subscript)
                let st ← get
                if inner = "@" || inner = "*" || (st.lookUp? name).any (·.associative) then
                  return elementValue st name inner
                else
                  let index ← calculate inner
                  return elementValue st name (toString index)
            let value ← lookUp
            let st ← get
            let unknown : Act (List Atom) := do
              if st.isBash then Act.fail "bad substitution" else Act.fail "Bad substitution"
            let demanded (value : Value) : Act Value := do
              match value with
              | .missing =>
                  if st.has 'u' then
                    if st.isBash then Act.fail (name ++ ": unbound variable")
                    else Act.fail (name ++ ": parameter not set")
                  else return value
              | _ => return value
            let pattern : Act (List PatternItem) := do
              return patternOf st.isBash (Atom.marked (← whole false operand))
            let shown (value : Value) : List Atom := valueAtoms st quoted value
            match operation with
            | .value => pure (shown (← demanded value))
            | .length =>
                let length ← match value, subscript with
                  | .list _ items, [] =>
                      if st.isBash then pure items.length
                      else pure (valueText st value).length
                  | .list _ items, _ => pure items.length
                  | _, _ => pure (valueText st (← demanded value)).length
                pure (Atom.ofText quoted (!quoted) (toString length).toList)
            | .orElse emptyToo =>
                if isAbsent emptyToo value then whole (!quoted) operand else pure (shown value)
            | .instead emptyToo =>
                if isAbsent emptyToo value then pure [] else whole (!quoted) operand
            | .assign emptyToo =>
                if isAbsent emptyToo value then
                  if !isName name.toList then Act.fail (name ++ ": bad variable name")
                  let text := Atom.text (← whole false operand)
                  Act.assign name text
                  pure (Atom.ofText quoted (!quoted) text.toList)
                else pure (shown value)
            | .require emptyToo =>
                if isAbsent emptyToo value then
                  let message := Atom.text (← whole false operand)
                  Act.fail (absentMessage st.isBash emptyToo name message)
                else pure (shown value)
            | .dropFront longest =>
                let items ← pattern
                let change (text : String) : String :=
                  String.ofList (dropMatchingFront longest items text.toList)
                let value ← demanded value
                pure (shown (if st.isBash then changeAll change value
                  else changeEnds true change value))
            | .dropBack longest =>
                let items ← pattern
                let change (text : String) : String :=
                  String.ofList (dropMatchingBack longest items text.toList)
                let value ← demanded value
                pure (shown (if st.isBash then changeAll change value
                  else changeEnds false change value))
            | .slice =>
                let start ← calculate (Atom.text (← whole false operand))
                let length ←
                  if extra.isEmpty then pure none
                  else do
                    let n ← calculate (Atom.text (← whole false extra))
                    pure (some n)
                match ← demanded value with
                | .list joined items =>
                    let items := if subscript.isEmpty then st.name :: items else items
                    let start := if subscript.isEmpty && start = 0 then 0 else start
                    pure (shown (.list joined (sliceOf items start length)))
                | value =>
                    let text := (valueText st value).toList
                    pure (shown (.text (String.ofList (sliceOf text start length))))
            | .replace | .replaceAll =>
                let items ← pattern
                let new := (Atom.text (← whole false extra)).toList
                pure (shown (changeAll (fun text => String.ofList
                  (replaceMatches (operation = .replaceAll) items new (text.length + 1)
                    text.toList)) (← demanded value)))
            | .replaceFront =>
                let items ← pattern
                let new := (Atom.text (← whole false extra)).toList
                pure (shown (changeAll (fun text =>
                  match longestMatch? items text.toList with
                  | some (_, back) => String.ofList (new ++ back)
                  | none => text) (← demanded value)))
            | .replaceBack =>
                let items ← pattern
                let new := (Atom.text (← whole false extra)).toList
                pure (shown (changeAll (fun text =>
                  match (splits text.toList).find? fun (_, back) => matchesAll items back with
                  | some (front, _) => String.ofList (front ++ new)
                  | none => text) (← demanded value)))
            | .raise all => pure (shown (changeAll (changeChars all upperChar) (← demanded value)))
            | .lower all => pure (shown (changeAll (changeChars all lowerChar) (← demanded value)))
            | .indirect => pure (shown (parameterValue st (valueText st value)))
            | .subscripts =>
                match st.lookUp? name with
                | some v =>
                    let keys := (sortedElements v (v.elements.getD [])).map (·.1)
                    pure (shown (.list false keys))
                | none => pure []
            | .unknown => unknown
      return first ++ (← expandParts substitute n divides rest)

/-- How deep expansions may stand in one another, with the number of parts. -/
def expansionFuel : Nat := 1000000

def expandWord (substitute : Substitution) (w : Word) : Act (List Atom) := do
  expandParts substitute expansionFuel false (expandTilde (← get) ['/'] w)

def expandText (substitute : Substitution) (w : Word) : Act String := do
  return Atom.text (← expandWord substitute w)

def expandValue (substitute : Substitution) (w : Word) : Act String := do
  let w := expandTildes (← get) (w.length + 1) w
  return Atom.text (← expandParts substitute expansionFuel false w)

def expandPattern (substitute : Substitution) (w : Word) : Act (List PatternItem) := do
  let bash := (← get).isBash
  return patternOf bash (Atom.marked (← expandWord substitute w))

def looksAssigned (w : Word) : Option (Word × Word) :=
  match splitWord? '=' w with
  | some (name, value) =>
      match plainText? name with
      | some text => if isName text then some (name, value) else none
      | none => none
  | none => none

def expandArguments (substitute : Substitution) (w : Word) : Act (List String) := do
  let atoms ← expandWord substitute w
  let st ← get
  let fields := splitFields st.separators atoms none .inside
  if st.has 'f' then return fields.map unmarked
  else return fields.flatMap (fileNames st.machine.world st.isBash)

/-- The argument of a command that takes assignments as arguments. -/
def expandAssigned (substitute : Substitution) (w : Word) : Act (List String) := do
  match looksAssigned w with
  | some (name, value) =>
      let text ← expandValue substitute value
      let front := (name.filterMap fun
        | .char _ c => some c
        | _ => none)
      return [String.ofList front ++ "=" ++ text]
  | none => expandArguments substitute w

/-! ### Braces -/

/-- The alternatives between braces, and what stands behind them; the number of open braces decides
what a comma belongs to. -/
def braceItems : Nat → Word → Word → Option (List Word × Word)
  | _, _, [] => none
  | depth, item, part :: rest =>
      match part with
      | .char false c =>
          if c = openBrace then braceItems (depth + 1) (part :: item) rest
          else if c = closeBrace then
            match depth with
            | 0 => some ([item.reverse], rest)
            | d + 1 => braceItems d (part :: item) rest
          else if c = ',' && depth = 0 then
            (braceItems 0 [] rest).map fun (items, rest) => (item.reverse :: items, rest)
          else braceItems depth (part :: item) rest
      | _ => braceItems depth (part :: item) rest

/-- The numbers or letters of a range between braces. -/
def braceRange? (item : Word) : Option (List Word) := do
  let text ← plainText? item
  let pieces := (String.ofList text).splitOn ".."
  let ordered (a b : Nat) : List Nat :=
    if a ≤ b then (List.range (b + 1 - a)).map (a + ·)
    else ((List.range (a + 1 - b)).map (b + ·)).reverse
  match pieces with
  | [a, b] =>
      match a.toNat?, b.toNat? with
      | some a, some b => some ((ordered a b).map fun n => plainWord false (toString n).toList)
      | _, _ =>
          match a.toList, b.toList with
          | [c], [d] =>
              if c.isAlpha && d.isAlpha then
                some ((ordered c.toNat d.toNat).map fun n => [.char false (Char.ofNat n)])
              else none
          | _, _ => none
  | _ => none

/-- The words that a word with alternatives between braces stands for; the number bounds them. -/
def expandBraces : Nat → Word → List Word
  | 0, w => [w]
  | n + 1, w =>
      match splitWord? openBrace w with
      | none => [w]
      | some (front, behind) =>
          let plain := (expandBraces n behind).map fun rest =>
            front ++ .char false openBrace :: rest
          match braceItems 0 [] behind with
          | none => plain
          | some ([item], rest) =>
              match braceRange? item with
              | some items =>
                  let rests := expandBraces n rest
                  items.flatMap fun i => rests.map fun r => front ++ i ++ r
              | none => plain
          | some (items, rest) =>
              let rests := expandBraces n rest
              (items.flatMap (expandBraces n)).flatMap fun i =>
                rests.map fun r => front ++ i ++ r

def expandAll (substitute : Substitution) (words : List Word) : Act (List String) := do
  let words := if (← get).isBash then words.flatMap fun w => expandBraces (w.length + 1) w
    else words
  let args ← words.mapM (expandArguments substitute)
  return args.flatten

end ClojureBuild.Shell
