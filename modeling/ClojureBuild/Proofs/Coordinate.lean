import ClojureBuild.Classpath
import ClojureBuild.Proofs.Planning.Grammar
import Mathlib.Data.List.DropRight
/-!
The grammar of artifact coordinates.

A coordinate is written as three, four or five fields with a colon between any two neighbours.  Only
the white space around the whole text is dropped, so a field may hold white space, and begin or end
with it where it is not the first or the last.  The printer always names the kind.  Main statement:
the reader accepts exactly the texts of that form, and what it makes of one is given back by the
text that the printer makes of it.
-/

namespace ClojureBuild

namespace Text

/-! ### White space at the ends -/

/-- A text with no white space at its ends. -/
structure Trimmed (text : List Char) : Prop where
  head : ∀ c ∈ text.head?, isBlank c = false
  last : ∀ c ∈ text.getLast?, isBlank c = false

theorem head?_dropWhile_isBlank (text : List Char) :
    ∀ c ∈ (text.dropWhile isBlank).head?, isBlank c = false := by
  intro c hc
  have hfirst := List.head?_dropWhile_not isBlank text
  rw [Option.mem_def.1 hc] at hfirst
  simpa using hfirst

/-- Trimming leaves no white space at the ends. -/
theorem trimmed_trim (text : List Char) : Trimmed (trim text) := by
  constructor
  · intro c hc
    have hfront : trim text <+: text.dropWhile isBlank :=
      List.rdropWhile_prefix isBlank (text.dropWhile isBlank)
    obtain ⟨more, hmore⟩ := hfront
    refine head?_dropWhile_isBlank text c ?_
    rw [← hmore, List.head?_append, Option.mem_def.1 hc]
    rfl
  · intro c hc
    refine head?_dropWhile_isBlank (text.dropWhile isBlank).reverse c ?_
    rwa [trim, List.getLast?_reverse] at hc

/-- A text with no white space at its ends is not trimmed any further. -/
theorem Trimmed.trim_eq {text : List Char} (h : Trimmed text) : trim text = text := by
  have hkeep : ∀ {chars : List Char}, (∀ c ∈ chars.head?, isBlank c = false) →
      chars.dropWhile isBlank = chars := by
    intro chars hhead
    cases chars with
    | nil => rfl
    | cons c rest => exact List.dropWhile_cons_of_neg (by simp [hhead c rfl])
  rw [trim, hkeep h.head, hkeep, List.reverse_reverse]
  rw [List.head?_reverse]
  exact h.last

theorem head?_joinWith {sep : Char} {piece : List Char} (hpiece : piece ≠ [])
    (rest : List (List Char)) : (joinWith sep (piece :: rest)).head? = piece.head? := by
  cases rest with
  | nil => rfl
  | cons next more => rw [joinWith, List.head?_append_of_ne_nil _ hpiece]

theorem getLast?_joinWith {sep : Char} (front : List (List Char)) {piece : List Char}
    (hpiece : piece ≠ []) : (joinWith sep (front ++ [piece])).getLast? = piece.getLast? := by
  induction front with
  | nil => rfl
  | cons first rest ih =>
      obtain ⟨next, more, hrest⟩ := List.exists_cons_of_ne_nil (List.concat_ne_nil piece rest)
      rw [List.cons_append, hrest, joinWith, ← hrest, List.getLast?_append, List.getLast?_cons, ih]
      cases hlast : piece.getLast? with
      | none => exact absurd (List.getLast?_eq_none_iff.1 hlast) hpiece
      | some c => rfl

theorem not_mem_trim {c : Char} {text : List Char} (h : c ∉ text) : c ∉ trim text := by
  intro hin
  have hback := (List.dropWhile_sublist _).subset (List.mem_reverse.1 hin)
  exact h ((List.dropWhile_sublist _).subset (List.mem_reverse.1 hback))

theorem not_mem_of_mem_splitString {sep c : Char} {text piece : String} (h : c ∉ text.toList)
    (hpiece : piece ∈ splitString sep text) : c ∉ piece.toList := by
  obtain ⟨chars, hchars, rfl⟩ := List.mem_map.1 hpiece
  rw [String.toList_ofList]
  exact fun hc => h (mem_of_mem_splitOn hchars hc)

end Text

namespace Coordinate

variable {text : String} {c d : Coordinate}

/-! ### The fields of a coordinate -/

/-- What the printer writes between the colons. -/
def parts (c : Coordinate) : List String :=
  [c.group, c.id, c.kind] ++ c.classifier.toList ++ [c.version]

theorem render_eq (c : Coordinate) : c.render = Text.joinStrings ':' c.parts := by
  rw [← String.toList_inj]
  cases hclassifier : c.classifier <;>
    simp [render, parts, hclassifier, Text.joinStrings, Text.joinWith]

theorem ofFields?_parts (c : Coordinate) : ofFields? c.parts = some c := by
  obtain ⟨group, id, kind, classifier, version⟩ := c
  cases classifier <;> rfl

/-- A list of fields spells a coordinate: they are what the printer writes for it, or the kind is
left out. -/
def SpelledBy (c : Coordinate) (fields : List String) : Prop :=
  fields = c.parts ∨
    c.kind = defaultKind ∧ c.classifier = none ∧ fields = [c.group, c.id, c.version]

theorem ofFields?_eq_some_iff {fields : List String} :
    ofFields? fields = some c ↔ c.SpelledBy fields := by
  constructor
  · intro h
    unfold ofFields? at h
    split at h
    case h_1 => exact Or.inr (by cases h; exact ⟨rfl, rfl, rfl⟩)
    case h_2 => exact Or.inl (by cases h; rfl)
    case h_3 => exact Or.inl (by cases h; rfl)
    case h_4 => exact absurd h (by simp)
  · rintro (rfl | ⟨hkind, hclassifier, rfl⟩)
    · exact ofFields?_parts c
    · obtain ⟨group, id, kind, classifier, version⟩ := c
      obtain rfl : kind = defaultKind := hkind
      obtain rfl : classifier = none := hclassifier
      rfl

theorem exists_ofFields?_iff {fields : List String} :
    (∃ c, ofFields? fields = some c) ↔ fields.length ∈ [3, 4, 5] := by
  rcases fields with - | ⟨a, - | ⟨b, - | ⟨c, - | ⟨d, - | ⟨e, - | ⟨f, rest⟩⟩⟩⟩⟩⟩ <;>
    simp [ofFields?]

theorem parse?_eq_some_iff :
    parse? text = some c ↔ (∀ field ∈ fields text, field ≠ "") ∧ c.SpelledBy (fields text) := by
  have hfull : (fields text).any String.isEmpty = true ↔ ¬ ∀ field ∈ fields text, field ≠ "" := by
    simp
  rw [parse?]
  split
  next h => simp [hfull.1 h]
  next h => rw [ofFields?_eq_some_iff, and_iff_right (not_not.1 (mt hfull.2 h))]

theorem parse_eq_ok_iff : parse text = .ok c ↔ parse? text = some c := by
  rw [parse]
  cases parse? text <;> simp

/-! ### Reading what was printed -/

/-- A coordinate whose text gives it back. -/
structure Readable (c : Coordinate) : Prop where
  full : ∀ part ∈ c.parts, part ≠ ""
  plain : ∀ part ∈ c.parts, ':' ∉ part.toList
  /-- The text does not begin with white space. -/
  front : ∀ ch ∈ c.group.toList.head?, Text.isBlank ch = false
  /-- The text does not end with white space. -/
  back : ∀ ch ∈ c.version.toList.getLast?, Text.isBlank ch = false

theorem SpelledBy.mem_or_default {fields : List String} (h : c.SpelledBy fields) :
    ∀ part ∈ c.parts, part ∈ fields ∨ part = defaultKind := by
  rcases h with rfl | ⟨hkind, hclassifier, rfl⟩
  · exact fun part hpart => Or.inl hpart
  · intro part hpart
    simp only [parts, hkind, hclassifier, Option.toList_none, List.append_nil, List.cons_append,
      List.nil_append, List.mem_cons, List.not_mem_nil, or_false] at hpart ⊢
    tauto

theorem SpelledBy.exists_between {fields : List String} (h : c.SpelledBy fields) :
    ∃ between, fields = c.group :: between ++ [c.version] := by
  rcases h with rfl | ⟨-, -, rfl⟩
  · exact ⟨[c.id, c.kind] ++ c.classifier.toList, rfl⟩
  · exact ⟨[c.id], rfl⟩

theorem trimmed_render (h : c.Readable) : Text.Trimmed c.render.toList := by
  have hgroup : c.group.toList ≠ [] := by
    simpa using h.full c.group (by simp [parts])
  have hversion : c.version.toList ≠ [] := by
    simpa using h.full c.version (by simp [parts])
  rw [render_eq, Text.joinStrings, String.toList_ofList]
  constructor
  · rw [parts, List.cons_append, List.cons_append, List.map_cons, Text.head?_joinWith hgroup]
    exact h.front
  · rw [parts, List.map_append, List.map_singleton, Text.getLast?_joinWith _ hversion]
    exact h.back

theorem fields_render (h : c.Readable) : fields c.render = c.parts := by
  rw [fields, Text.trimString, (trimmed_render h).trim_eq, String.ofList_toList, render_eq,
    Text.splitString_joinStrings (by simp [parts]) h.plain]

theorem parse?_render (h : c.Readable) : parse? c.render = some c := by
  rw [parse?_eq_some_iff, fields_render h]
  exact ⟨h.full, Or.inl rfl⟩

theorem trim_eq_joinWith (text : String) :
    Text.joinWith ':' ((fields text).map String.toList) = Text.trim text.toList := by
  have hjoined := congrArg String.toList (Text.joinStrings_splitString ':' (Text.trimString text))
  rw [Text.joinStrings, String.toList_ofList] at hjoined
  rw [fields, hjoined, Text.trimString, String.toList_ofList]

theorem not_mem_of_mem_fields {ch : Char} (h : ch ∉ text.toList) :
    ∀ field ∈ fields text, ch ∉ field.toList := by
  intro field hfield
  refine Text.not_mem_of_mem_splitString ?_ hfield
  rw [Text.trimString, String.toList_ofList]
  exact Text.not_mem_trim h

theorem colon_not_mem_of_mem_fields : ∀ field ∈ fields text, ':' ∉ field.toList := by
  intro field hfield
  obtain ⟨piece, hpiece, rfl⟩ := List.mem_map.1 hfield
  rw [String.toList_ofList]
  exact Text.not_mem_of_mem_splitOn hpiece

/-- Every coordinate that is read can be printed and read again. -/
theorem readable_of_parse? (h : parse? text = some c) : c.Readable := by
  obtain ⟨hfull, hspelled⟩ := parse?_eq_some_iff.1 h
  obtain ⟨between, hbetween⟩ := hspelled.exists_between
  have htrimmed := Text.trimmed_trim text.toList
  rw [← trim_eq_joinWith, hbetween] at htrimmed
  have hgroup : c.group.toList ≠ [] := by
    simpa using hfull c.group (by simp [hbetween])
  have hversion : c.version.toList ≠ [] := by
    simpa using hfull c.version (by simp [hbetween])
  refine ⟨fun part hpart => ?_, fun part hpart => ?_, ?_, ?_⟩
  · rcases hspelled.mem_or_default part hpart with hfield | rfl
    · exact hfull part hfield
    · decide
  · rcases hspelled.mem_or_default part hpart with hfield | rfl
    · exact colon_not_mem_of_mem_fields part hfield
    · decide
  · have hhead := htrimmed.head
    rwa [List.cons_append, List.map_cons, Text.head?_joinWith hgroup] at hhead
  · have hlast := htrimmed.last
    rwa [List.map_append, List.map_singleton, Text.getLast?_joinWith _ hversion] at hlast

/-! ### Coordinates on a classpath -/

theorem not_mem_parts {ch : Char} (hch : ch ∉ defaultKind.toList) (htext : ch ∉ text.toList)
    (h : parse? text = some c) : ∀ part ∈ c.parts, ch ∉ part.toList := by
  intro part hpart
  rcases (parse?_eq_some_iff.1 h).2.mem_or_default part hpart with hfield | rfl
  · exact not_mem_of_mem_fields htext part hfield
  · exact hch

theorem spells_iff : spells text = true ↔
    '/' ∉ text.toList ∧ '\\' ∉ text.toList ∧ ∃ c, parse? text = some c := by
  simp [spells, Option.isSome_iff_exists, and_assoc]

theorem spells_render (hspells : spells text = true) (h : parse? text = some c) :
    spells c.render = true := by
  obtain ⟨hslash, hback, -⟩ := spells_iff.1 hspells
  have hnot : ∀ ch : Char, ch ≠ ':' → ch ∉ defaultKind.toList → ch ∉ text.toList →
      ch ∉ c.render.toList := by
    intro ch hcolon hkind htext hin
    rw [render_eq, Text.joinStrings, String.toList_ofList] at hin
    rcases Text.mem_joinWith hin with hsep | ⟨piece, hpiece, hin⟩
    · exact hcolon hsep
    · obtain ⟨part, hpart, rfl⟩ := List.mem_map.1 hpiece
      exact not_mem_parts hkind htext h part hpart hin
  exact spells_iff.2 ⟨hnot '/' (by decide) (by decide) hslash,
    hnot '\\' (by decide) (by decide) hback, c, parse?_render (readable_of_parse? h)⟩

end Coordinate

theorem ClasspathEntry.parse_eq_artifact_iff {text : String} {c : Coordinate} :
    ClasspathEntry.parse text = .artifact c ↔
      Coordinate.spells text = true ∧ Coordinate.parse? text = some c := by
  rw [ClasspathEntry.parse]
  split
  next hspells => cases Coordinate.parse? text <;> simp [hspells]
  next hspells => simp [hspells]

theorem ClasspathEntry.parse_eq_path_iff {text : String} {p : Path} :
    ClasspathEntry.parse text = .path p ↔
      Coordinate.spells text = false ∧ p = Path.ofText text := by
  rw [ClasspathEntry.parse]
  split
  next hspells =>
      obtain ⟨-, -, c, hc⟩ := Coordinate.spells_iff.1 hspells
      simp [hspells, hc]
  next hspells => simp [hspells, eq_comm]

namespace Coordinate

/-- The reader accepts exactly the texts that are cut at their colons into three, four or five
fields, none of them empty, once the white space around the text is dropped.  It reads them as the
printer writes them, or with the kind that is not written.  What was printed is read as the same
coordinate again, so that printing a second time changes nothing and two coordinates with the same
text are one; and it stands for that coordinate on a classpath if the first text did. -/
theorem parse_grammar (text : String) :
    ((∃ c, parse text = .ok c) ↔
      (Text.splitString ':' (Text.trimString text)).length ∈ [3, 4, 5] ∧
        ∀ field ∈ Text.splitString ':' (Text.trimString text), field ≠ "") ∧
    ∀ c, parse text = .ok c →
      c.SpelledBy (Text.splitString ':' (Text.trimString text)) ∧
      parse c.render = .ok c ∧
      (∀ again, parse c.render = .ok again → again.render = c.render) ∧
      (∀ other d, parse other = .ok d → d.render = c.render → d = c) ∧
      (spells text = true → spells c.render = true ∧
        ClasspathEntry.parse text = .artifact c ∧ ClasspathEntry.parse c.render = .artifact c) := by
  have hfields : Text.splitString ':' (Text.trimString text) = fields text := rfl
  have hback : ∀ {s : String} {d : Coordinate}, parse s = .ok d → parse d.render = .ok d := by
    intro s d hd
    exact parse_eq_ok_iff.2 (parse?_render (readable_of_parse? (parse_eq_ok_iff.1 hd)))
  rw [hfields]
  refine ⟨?accepted, fun c hc => ?given⟩
  case accepted =>
    simp only [parse_eq_ok_iff, parse?_eq_some_iff, exists_and_left, ← ofFields?_eq_some_iff,
      exists_ofFields?_iff]
    exact and_comm
  case given =>
    have hread := parse_eq_ok_iff.1 hc
    refine ⟨(parse?_eq_some_iff.1 hread).2, hback hc, fun again hagain => ?_,
      fun other d hd hsame => ?_, fun hspells => ?_⟩
    · rw [Except.ok.inj ((hback hc).symm.trans hagain)]
    · have hgiven := hback hd
      rw [hsame, hback hc] at hgiven
      exact (Except.ok.inj hgiven).symm
    · have hprinted := spells_render hspells hread
      exact ⟨hprinted, ClasspathEntry.parse_eq_artifact_iff.2 ⟨hspells, hread⟩,
        ClasspathEntry.parse_eq_artifact_iff.2 ⟨hprinted, parse_eq_ok_iff.1 (hback hc)⟩⟩

/-- White space around the text goes, that at the ends of inner fields stays, and the kind is
written when it was not. -/
theorem parse_grammar_padded :
    parse "\ta b: c :1\n" = .ok ⟨"a b", " c ", "jar", none, "1"⟩ ∧
      parse "a b: c :jar:1" = .ok ⟨"a b", " c ", "jar", none, "1"⟩ ∧
      ClasspathEntry.parse "a b: c :jar:1" = .artifact ⟨"a b", " c ", "jar", none, "1"⟩ := by
  have hread : parse "\ta b: c :1\n" = .ok ⟨"a b", " c ", "jar", none, "1"⟩ := by rfl
  obtain ⟨-, hagain, -, -, hentry⟩ := (parse_grammar "\ta b: c :1\n").2 _ hread
  exact ⟨hread, hagain, (hentry (by decide)).2.2⟩

end Coordinate

end ClojureBuild
