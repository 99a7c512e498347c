import ClojureBuild.Shell.Pattern
/-!
Regular expressions in their two spellings.

The basic spelling writes groups and counts with backslashes, the extended one without.  A match is
the leftmost one; repetitions take as much as they can, and of alternatives the longer one wins.
-/

namespace ClojureBuild

/-- A regular expression. -/
inductive Regex where
  | nothing
  | char (c : Char)
  | anyChar
  | set (negated : Bool) (members : List Shell.SetMember)
  | lineStart
  | lineEnd
  | wordStart
  | wordEnd
  | wordEdge
  | group (number : Nat) (inner : Regex)
  | again (number : Nat)
  | sequence (first second : Regex)
  | either (first second : Regex)
  | times (inner : Regex) (least : Nat) (most : Option Nat)
deriving Inhabited

namespace Regex

/-! ### Reading -/

/-- What is left to read, and how many groups were begun. -/
structure Reading where
  rest : List Char
  groups : Nat

/-- Reading an expression, which may end with a complaint. -/
abbrev Reader := ExceptT String (StateM Reading)

def drop (n : Nat) : Reader Unit := modify fun s => { s with rest := s.rest.drop n }

def readSet : Nat → Bool → List Char → Option (List Shell.SetMember × List Char)
  | 0, _, _ => none
  | _, _, [] => none
  | n + 1, first, c :: rest =>
      if c = ']' && !first then some ([], rest)
      else
        let single (c : Char) (rest : List Char) :=
          match rest with
          | '-' :: d :: behind =>
              if d = ']' then
                (readSet n false rest).map fun (ms, r) => (.range c c :: ms, r)
              else (readSet n false behind).map fun (ms, r) => (.range c d :: ms, r)
          | _ => (readSet n false rest).map fun (ms, r) => (.range c c :: ms, r)
        match c, rest with
        | '[', ':' :: inside =>
            let name := inside.takeWhile Char.isLower
            match inside.drop name.length with
            | ':' :: ']' :: behind =>
                (readSet n false behind).map fun (ms, r) =>
                  (.named (String.ofList name) :: ms, r)
            | _ => single c rest
        | '[', '.' :: d :: '.' :: ']' :: behind => single d behind
        | '[', '=' :: d :: '=' :: ']' :: behind => single d behind
        | _, _ => single c rest

/-- The members that stand for letters, digits and the underscore. -/
def wordMembers : List Shell.SetMember := [.named "alnum", .range '_' '_']

/-- What is to be read. -/
inductive Goal where
  | alternatives
  | branch (atStart : Bool)
  | atom (atStart : Bool)

def readCounts (close : List Char) : Reader (Nat × Option Nat) := do
  let text := (← get).rest
  let first := text.takeWhile Char.isDigit
  let rest := text.drop first.length
  let numberOf (digits : List Char) : Nat := ((String.ofList digits).toNat?).getD 0
  let finish (rest : List Char) (result : Nat × Option Nat) : Reader (Nat × Option Nat) := do
    if close.isPrefixOf rest then
      drop ((text.length - rest.length) + close.length)
      return result
    else throw "Invalid content of \\\x7b\\\x7d"
  match rest with
  | ',' :: rest =>
      let last := rest.takeWhile Char.isDigit
      finish (rest.drop last.length)
        (numberOf first, if last.isEmpty then none else some (numberOf last))
  | rest =>
      if first.isEmpty then throw "Invalid content of \\\x7b\\\x7d"
      else finish rest (numberOf first, some (numberOf first))

/-- The repetitions behind an atom; the number bounds them. -/
def readRepeats (extended : Bool) : Nat → Regex → Reader Regex
  | 0, r => return r
  | n + 1, r => do
      let openBrace := Char.ofNat 0x7b
      let closeBrace := Char.ofNat 0x7d
      let counted (skip : Nat) (close : List Char) : Reader Regex := do
        drop skip
        let (least, most) ← readCounts close
        readRepeats extended n (.times r least most)
      let simple (skip least : Nat) (most : Option Nat) : Reader Regex := do
        drop skip
        readRepeats extended n (.times r least most)
      match (← get).rest with
      | '*' :: _ => simple 1 0 none
      | '\\' :: c :: _ =>
          if extended then return r
          else if c = '+' then simple 2 1 none
          else if c = '?' then simple 2 0 (some 1)
          else if c = openBrace then counted 2 ['\\', closeBrace]
          else return r
      | c :: _ =>
          if !extended then return r
          else if c = '+' then simple 1 1 none
          else if c = '?' then simple 1 0 (some 1)
          else if c = openBrace then counted 1 [closeBrace]
          else return r
      | [] => return r

/-- Whether a text begins with what closes a group or parts alternatives. -/
def endsBranch (extended : Bool) : List Char → Bool
  | [] => true
  | '\\' :: c :: _ => !extended && (c = ')' || c = '|')
  | c :: _ => extended && (c = ')' || c = '|')

/-- Reads an expression; the number bounds its parts. -/
def read (extended : Bool) : Nat → Goal → Reader Regex
  | 0, _ => throw "Regular expression too big"
  | n + 1, .alternatives => do
      let first ← read extended n (.branch true)
      match extended, (← get).rest with
      | true, '|' :: _ =>
          drop 1
          return .either first (← read extended n .alternatives)
      | false, '\\' :: '|' :: _ =>
          drop 2
          return .either first (← read extended n .alternatives)
      | _, _ => return first
  | n + 1, .branch atStart => do
      if endsBranch extended (← get).rest then return .nothing
      else
        let atom ← read extended n (.atom atStart)
        let repeated ← readRepeats extended n atom
        let others ← read extended n (.branch (match atom with
          | .lineStart => !extended
          | _ => false))
        return match others with
          | .nothing => repeated
          | others => .sequence repeated others
  | n + 1, .atom atStart => do
      let group (skip : Nat) (close : List Char) : Reader Regex := do
        drop skip
        let number := (← get).groups + 1
        modify fun s => { s with groups := number }
        let inner ← read extended n .alternatives
        if close.isPrefixOf (← get).rest then
          drop close.length
          return .group number inner
        else throw "Unmatched ( or \\("
      match (← get).rest with
      | [] => return .nothing
      | '\\' :: c :: _ =>
          if c = '(' && !extended then group 2 ['\\', ')']
          else
            drop 2
            if c.isDigit && c ≠ '0' then return .again (c.toNat - 48)
            else
              match c with
              | 'w' => return .set false wordMembers
              | 'W' => return .set true wordMembers
              | 's' => return .set false [.named "space"]
              | 'S' => return .set true [.named "space"]
              | '<' => return .wordStart
              | '>' => return .wordEnd
              | 'b' => return .wordEdge
              | 'n' => return .char '\n'
              | 't' => return .char '\t'
              | _ => return .char c
      | ['\\'] => throw "Trailing backslash"
      | '[' :: rest =>
          let (negated, body) := match rest with
            | '^' :: body => (true, body)
            | body => (false, body)
          match readSet (body.length + 1) true body with
          | some (members, behind) =>
              modify fun s => { s with rest := behind }
              return .set negated members
          | none => throw "Unmatched [, [^, [:, [., or [="
      | '.' :: _ =>
          drop 1
          return .anyChar
      | '^' :: _ =>
          drop 1
          return if extended || atStart then .lineStart else .char '^'
      | '$' :: rest =>
          drop 1
          return if extended || endsBranch extended rest then .lineEnd else .char '$'
      | c :: _ =>
          if extended && c = '(' then group 1 [')']
          else if extended && (c = '*' || c = '+' || c = '?') && !atStart then
            throw "Invalid preceding regular expression"
          else
            drop 1
            return .char c

def ofText (extended : Bool) (text : String) : Except String Regex :=
  let fuel := 4 * text.length + 10
  match (read extended fuel .alternatives).run.run ⟨text.toList, 0⟩ with
  | (.ok r, s) =>
      if s.rest.isEmpty then .ok r
      else if extended then .ok r
      else .error "Unmatched ) or \\)"
  | (.error e, _) => .error e

def literal (text : List Char) : Regex :=
  text.foldr (fun c r => .sequence (.char c) r) .nothing

/-! ### Matching -/

/-- The places of a match: where it ends, and the groups in it. -/
structure Found where
  stop : Nat
  groups : List (Nat × Nat × Nat)
deriving DecidableEq, Repr, Inhabited

/-- What is matched against. -/
structure Subject where
  text : Array Char
  foldsCase : Bool

def lowerOf (c : Char) : Char := if c.isUpper then Char.ofNat (c.toNat + 32) else c

def upperOf (c : Char) : Char := if c.isLower then Char.ofNat (c.toNat - 32) else c

def isWord (c : Char) : Bool := c.isAlphanum || c = '_'

namespace Subject

/-- Whether the character at a place belongs to words. -/
def isWordAt (s : Subject) (i : Nat) : Bool := (s.text[i]?).any isWord

def same (s : Subject) (c d : Char) : Bool :=
  if s.foldsCase then lowerOf c == lowerOf d else c == d

end Subject

def longer : Option Found → Option Found → Option Found
  | some a, some b => if a.stop < b.stop then some b else some a
  | none, b => b
  | a, none => a

/-- Matches an expression from a place on, and then what `behind` asks for. -/
def matchFrom (s : Subject) : Nat → Regex → Nat → List (Nat × Nat × Nat) →
    (Nat → List (Nat × Nat × Nat) → Option Found) → Option Found
  | 0, _, _, _, _ => none
  | n + 1, r, i, groups, behind =>
      let one (p : Char → Bool) : Option Found :=
        match s.text[i]? with
        | some c => if p c then behind (i + 1) groups else none
        | none => none
      let onlyIf (holds : Bool) : Option Found := if holds then behind i groups else none
      match r with
      | .nothing => behind i groups
      | .char c => one (s.same c)
      | .anyChar => one fun _ => true
      | .set negated members => one fun c =>
          let inside := members.any fun m => m.accepts c ||
            (s.foldsCase && (m.accepts (lowerOf c) || m.accepts (upperOf c)))
          inside != negated
      | .lineStart => onlyIf (i == 0)
      | .lineEnd => onlyIf (i == s.text.size)
      | .wordStart => onlyIf (s.isWordAt i && !(0 < i && s.isWordAt (i - 1)))
      | .wordEnd => onlyIf (!s.isWordAt i && 0 < i && s.isWordAt (i - 1))
      | .wordEdge => onlyIf (s.isWordAt i != (0 < i && s.isWordAt (i - 1)))
      | .group number inner =>
          matchFrom s n inner i groups fun j groups => behind j ((number, i, j) :: groups)
      | .again number =>
          match groups.find? (·.1 == number) with
          | none => none
          | some (_, start, stop) =>
              let size := stop - start
              let equal := (List.range size).all fun k =>
                match s.text[start + k]?, s.text[i + k]? with
                | some c, some d => s.same c d
                | _, _ => false
              if equal then behind (i + size) groups else none
      | .sequence first second =>
          matchFrom s n first i groups fun j groups => matchFrom s n second j groups behind
      | .either first second =>
          longer (matchFrom s n first i groups behind) (matchFrom s n second i groups behind)
      | .times inner least most =>
          let more : Option Found :=
            if most = some 0 then none
            else matchFrom s n inner i groups fun j groups =>
              if j = i && least = 0 then none
              else matchFrom s n (.times inner (least - 1) (most.map (· - 1))) j groups behind
          match more with
          | some found => some found
          | none => if least = 0 then behind i groups else none

def matchAt (r : Regex) (s : Subject) (i : Nat) : Option Found :=
  matchFrom s (100 * s.text.size + 10000) r i [] fun stop groups => some ⟨stop, groups⟩

/-- The first match from a place on: where it begins, and the match; the number bounds the
places. -/
def findFrom (r : Regex) (s : Subject) : Nat → Nat → Option (Nat × Found)
  | 0, _ => none
  | n + 1, i =>
      match r.matchAt s i with
      | some found => some (i, found)
      | none => findFrom r s n (i + 1)

def find? (r : Regex) (s : Subject) (start : Nat) : Option (Nat × Found) :=
  findFrom r s (s.text.size + 1 - start) start

end Regex

end ClojureBuild
