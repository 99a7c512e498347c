import ClojureBuild.Toml.Scalar
/-!
Whole TOML documents: arrays, tables in all their notations, and lines.

A document is read into *sections*, which remember how each table came about, because that decides
what may still be added to it: a table with a header of its own is closed to dotted keys, an inline
table is closed to everything, and a table that is only implied by the names of others may get a
header later.

A table below the top whose first key is `momentKey` is no table: it stands for the date or time
that the key's text spells.
-/

namespace ClojureBuild.Toml

open Reader

/-- A part of a document. -/
inductive Section where
  | value (v : Value)
  | list (items : List Section)
  | inlineTable (entries : List (String × Section))
  /-- A table.  `implied` says that it has no header yet, `dotted` that dotted keys made it. -/
  | table (implied dotted : Bool) (entries : List (String × Section))
  /-- An array of tables, the newest last: their entries. -/
  | tables (items : List (List (String × Section)))

namespace Section

/-- The entries of a table, in the order of the document. -/
abbrev Entries := List (String × Section)

def find? (key : String) : Entries → Option Section
  | [] => none
  | (k, s) :: rest => if k = key then some s else find? key rest

/-- The entries with another section for a key; a new key stands behind the others. -/
def replace (key : String) (new : Section) : Entries → Entries
  | [] => [(key, new)]
  | (k, s) :: rest => if k = key then (key, new) :: rest else (k, s) :: replace key new rest

/-- Changes the table at a path.  Missing tables on the way are implied; in an array of tables the
newest one is meant.  `dotted` says that the path is that of a dotted key, which may not enter a
table with a header. -/
def alter (dotted : Bool) (change : Bool → Entries → Option Entries) :
    List String → Bool → Entries → Option Entries
  | [], here, entries => change here entries
  | k :: path, _, entries =>
      match find? k entries with
      | none => do
          let inner ← alter dotted change path dotted []
          return replace k (.table true dotted inner) entries
      | some (.value _) | some (.list _) | some (.inlineTable _) => none
      | some (.table implied made inner) =>
          if dotted && !implied then none
          else do
            let inner ← alter dotted change path made inner
            return replace k (.table implied made inner) entries
      | some (.tables items) =>
          match items.reverse with
          | [] => none
          | newest :: older => do
              let inner ← alter dotted change path false newest
              return replace k (.tables (older.reverse ++ [inner])) entries

/-- Adds a value under a key that is still free.  A dotted key may only add to a table that dotted
keys made, a plain one only to one that they did not. -/
def addValue (plain : Bool) (key : String) (v : Section) (here : Bool) (entries : Entries) :
    Option Entries :=
  if here = plain then none
  else
    match find? key entries with
    | none => some (replace key v entries)
    | some _ => none

/-- Adds a value under a dotted key, whose parts are given, to the table at a path. -/
def assign (path : List String) (keys : List String) (v : Section) (root : Entries) :
    Option Entries :=
  match keys.reverse with
  | [] => none
  | last :: front =>
      alter false
        (fun here entries =>
          alter true (addValue front.isEmpty last v) front.reverse here entries)
        path false root

/-- Opens the table with a header.  A table that was only implied takes its place behind the ones
that are there. -/
def openTable (path : List String) (root : Entries) : Option Entries :=
  match path.reverse with
  | [] => none
  | last :: front =>
      alter false
        (fun _ entries =>
          match find? last entries with
          | none => some (replace last (.table false false []) entries)
          | some (.table true false inner) =>
              some (entries.filter (·.1 != last) ++ [(last, .table false false inner)])
          | some _ => none)
        front.reverse false root

/-- Adds a table to the array of tables with a header. -/
def openItem (path : List String) (root : Entries) : Option Entries :=
  match path.reverse with
  | [] => none
  | last :: front =>
      alter false
        (fun _ entries =>
          match find? last entries with
          | none => some (replace last (.tables [[]]) entries)
          | some (.tables items) => some (replace last (.tables (items ++ [[]])) entries)
          | some _ => none)
        front.reverse false root

def inOrder (entries : List (String × Value)) : List (String × Value) :=
  sortBy (fun a b => decide (a.1 < b.1)) entries

/-- The key of a table that stands for a date or time. -/
def momentKey : String := "$__toml_private_datetime"

mutual

/-- The finished value; nothing when a table should be a date or time and is none. -/
def finish : Section → Option Value
  | .value v => some v
  | .list items => (finishList items).map .array
  | .inlineTable entries | .table _ _ entries => finishTable entries
  | .tables items => (finishItems items).map .array

def finishTable : List (String × Section) → Option Value
  | (k, s) :: rest =>
      if k = momentKey then
        match s with
        | .value (.text text) => (moment? text).map .datetime
        | _ => none
      else
        match finish s, finishEntries rest with
        | some v, some others => some (.table (inOrder ((k, v) :: others)))
        | _, _ => none
  | [] => some (.table [])

def finishEntries : List (String × Section) → Option (List (String × Value))
  | [] => some []
  | (k, s) :: rest =>
      match finish s, finishEntries rest with
      | some v, some others => some ((k, v) :: others)
      | _, _ => none

/-- The values of the items of an array, if all of them have one. -/
def finishList : List Section → Option (List Value)
  | [] => some []
  | s :: rest =>
      match finish s, finishList rest with
      | some v, some others => some (v :: others)
      | _, _ => none

def finishItems : List (List (String × Section)) → Option (List Value)
  | [] => some []
  | entries :: rest =>
      match finishTable entries, finishItems rest with
      | some v, some others => some (v :: others)
      | _, _ => none

end

/-- The table that an inline notation spells: dotted keys may share tables that dotted keys made. -/
def ofInline (pairs : List (List String × Section)) : Option Section := do
  let entries ← pairs.foldlM (fun entries (keys, v) => assign [] keys v entries) []
  return .inlineTable entries

end Section

def array (item : Reader Section) : Reader Section := fun text => do
  let (_, rest) ← exactly '[' text
  let spaced : Reader Section := fun t => do
    let (_, t) ← gap t
    let (v, t) ← item t
    let (_, t) ← gap t
    return (v, t)
  let (items, rest) ← separated spaced (exactly ',') rest
  let (_, rest) ← if items.isEmpty then some (none, rest) else optional (exactly ',') rest
  let (_, rest) ← gap rest
  let (_, rest) ← exactly ']' rest
  return (.list items, rest)

/-- A table on one line. -/
def inlineTable (item : Reader Section) : Reader Section := fun text => do
  let (_, rest) ← exactly (Char.ofNat 0x7b) text
  let pair : Reader (List String × Section) := fun t => do
    let (keys, t) ← key t
    let (_, t) ← exactly '=' t
    let (_, t) ← blanks t
    let (v, t) ← item t
    let (_, t) ← blanks t
    return ((keys, v), t)
  let (pairs, rest) ← separated pair (exactly ',') rest
  let (_, rest) ← blanks rest
  let (_, rest) ← exactly (Char.ofNat 0x7d) rest
  let table ← Section.ofInline pairs
  return (table, rest)

/-- A value with arrays and tables nested below the given depth. -/
def value : Nat → Reader Section
  | 0 => plain
  | depth + 1 => fun text =>
      match text with
      | [] => none
      | c :: _ =>
          if c = '[' then array (value depth) text
          else if c = Char.ofNat 0x7b then inlineTable (value depth) text
          else plain text
where
  plain : Reader Section := fun text => do
    let (v, rest) ← scalar text
    return (.value v, rest)

def lineEnd : Reader Unit := fun text => do
  let (_, rest) ← blanks text
  let (_, rest) ← optional comment rest
  match rest with
  | [] => return ((), [])
  | _ => newline rest

/-- The document so far: the path of the open table, and all tables. -/
structure Draft where
  path : List String
  root : Section.Entries

/-- Reads one line, from its first character that is not blank. -/
def line (draft : Draft) : Reader Draft := fun text =>
  match text with
  | '#' :: _ => do
      let (_, rest) ← lineEnd text
      return (draft, rest)
  | '[' :: '[' :: rest => do
      let (path, rest) ← key rest
      let (_, rest) ← word [']', ']'] rest
      let (_, rest) ← lineEnd rest
      let root ← Section.openItem path draft.root
      return (⟨path, root⟩, rest)
  | '[' :: rest => do
      let (path, rest) ← key rest
      let (_, rest) ← exactly ']' rest
      let (_, rest) ← lineEnd rest
      let root ← Section.openTable path draft.root
      return (⟨path, root⟩, rest)
  | '\n' :: rest => some (draft, rest)
  | '\r' :: _ => do
      let (_, rest) ← newline text
      return (draft, rest)
  | _ => do
      let (keys, rest) ← key text
      let (_, rest) ← exactly '=' rest
      let (_, rest) ← blanks rest
      let (v, rest) ← value (nestingLimit - 1) rest
      let (_, rest) ← lineEnd rest
      let root ← Section.assign draft.path keys v draft.root
      return ({ draft with root }, rest)

/-- Reads lines to the end; each takes at least one character. -/
def lines : Nat → Draft → List Char → Option Draft
  | 0, _, _ => none
  | fuel + 1, draft, text =>
      match text.dropWhile isBlankChar with
      | [] => some draft
      | rest =>
          match line draft rest with
          | none => none
          | some (draft, rest) => lines fuel draft rest

/-- The table that a document spells, with keys in ascending order; nothing when the text is no
document. -/
def parse? (text : String) : Option (List (String × Value)) := do
  let chars := match text.toList with
    | c :: rest => if c.toNat = 0xfeff then rest else c :: rest
    | [] => []
  let draft ← lines (chars.length + 1) ⟨[], []⟩ chars
  let entries ← Section.finishEntries draft.root
  return Section.inOrder entries

end ClojureBuild.Toml
