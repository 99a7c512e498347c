import ClojureBuild.UnitId
import ClojureBuild.Proofs.Path.Descent
import Mathlib.Algebra.GroupWithZero.Nat
/-!
The grammar of unit identifiers.

An identifier is a row of segments with a dot between any two neighbours; a segment is some text
without dots, white space and separators.  The reader looks at the two ends of a text, for two dots
in a row and at each character by itself.  Main statement: these tests accept exactly the texts that
are cut into segments at their dots.
-/

namespace ClojureBuild

namespace Text

theorem splitOn_joinWith_flatMap {sep : Char} {texts : List (List Char)} (hne : texts ≠ []) :
    splitOn sep (joinWith sep texts) = texts.flatMap (splitOn sep) := by
  induction texts with
  | nil => exact absurd rfl hne
  | cons text rest ih =>
      cases rest with
      | nil => exact (List.append_nil _).symm
      | cons next more =>
          rw [joinWith, splitOn_append_sep, ih (List.cons_ne_nil _ _)]
          rfl

theorem splitString_joinStrings {sep : Char} {texts : List String} (hne : texts ≠ [])
    (h : ∀ text ∈ texts, sep ∉ text.toList) : splitString sep (joinStrings sep texts) = texts := by
  have hpieces : ∀ piece ∈ texts.map String.toList, sep ∉ piece := by
    intro piece hpiece
    obtain ⟨text, htext, rfl⟩ := List.mem_map.1 hpiece
    exact h text htext
  rw [splitString, joinStrings, String.toList_ofList,
    splitOn_joinWith (mt List.map_eq_nil_iff.1 hne) hpieces, List.map_map]
  exact (List.map_congr_left fun text _ => String.ofList_toList).trans (List.map_id _)

/-- A text has one piece more than separators. -/
theorem length_splitOn (sep : Char) (text : List Char) :
    (splitOn sep text).length = text.count sep + 1 := by
  induction text with
  | nil => rfl
  | cons c rest ih =>
      by_cases hc : c = sep
      · rw [splitOn, if_pos hc, List.length_cons, ih, List.count_cons, if_pos (by simpa using hc)]
      · have hstep : (splitOn sep (c :: rest)).length = (splitOn sep rest).length := by
          rw [splitOn, if_neg hc]
          cases hpieces : splitOn sep rest with
          | nil => exact absurd hpieces (splitOn_ne_nil sep rest)
          | cons piece pieces => rfl
        rw [hstep, ih, List.count_cons_of_ne hc]

/-- Joined strings are split into one piece for each string, and one more for each separator that
stands in a string. -/
theorem length_splitString_joinStrings {sep : Char} {texts : List String} (hne : texts ≠ []) :
    (splitString sep (joinStrings sep texts)).length =
      texts.length + (texts.map fun text => text.toList.count sep).sum := by
  rw [splitString, joinStrings, String.toList_ofList, List.length_map,
    splitOn_joinWith_flatMap (mt List.map_eq_nil_iff.1 hne)]
  induction texts with
  | nil => exact absurd rfl hne
  | cons text rest ih =>
      by_cases hrest : rest = []
      · subst hrest
        simp [length_splitOn, Nat.add_comm]
      · simp only [List.map_cons, List.flatMap_cons, List.length_append, List.length_cons,
          List.sum_cons, length_splitOn, ih hrest]
        omega

theorem splitString_joinStrings_iff {sep : Char} {texts : List String} (hne : texts ≠ []) :
    splitString sep (joinStrings sep texts) = texts ↔ ∀ text ∈ texts, sep ∉ text.toList := by
  refine ⟨fun h text htext => ?_, splitString_joinStrings hne⟩
  rw [← h] at htext
  obtain ⟨piece, hpiece, rfl⟩ := List.mem_map.1 htext
  rw [String.toList_ofList]
  exact not_mem_of_mem_splitOn hpiece

/-- What holds of the separator holds of all characters of a text when it holds of those of its
pieces. -/
theorem forall_mem_splitOn_iff {sep : Char} {text : List Char} {P : Char → Prop} (hsep : P sep) :
    (∀ piece ∈ splitOn sep text, ∀ c ∈ piece, P c) ↔ ∀ c ∈ text, P c := by
  constructor
  · intro h c hc
    rw [← joinWith_splitOn sep text] at hc
    rcases mem_joinWith hc with rfl | ⟨piece, hpiece, hc⟩
    · exact hsep
    · exact h piece hpiece c hc
  · exact fun h piece hpiece c hc => h c (mem_of_mem_splitOn hpiece hc)

theorem exists_of_occursIn {part text : List Char} (h : occursIn part text = true) :
    ∃ front back, text = front ++ part ++ back := by
  induction text with
  | nil =>
      rw [occursIn, List.isEmpty_iff] at h
      exact ⟨[], [], by rw [h]; rfl⟩
  | cons c rest ih =>
      rw [occursIn, Bool.or_eq_true, List.isPrefixOf_iff_prefix] at h
      rcases h with ⟨back, hback⟩ | hrest
      · exact ⟨[], back, hback.symm⟩
      · obtain ⟨front, back, rfl⟩ := ih hrest
        exact ⟨c :: front, back, rfl⟩

/-- A text that neither ends in a separator nor holds two in a row has no empty piece, but for one
in front of a separator that it begins with. -/
theorem pieces_ne_nil {sep : Char} {text : List Char} (hne : text ≠ [])
    (hlast : text.getLast? ≠ some sep) (htwo : occursIn [sep, sep] text = false) :
    (∀ piece ∈ (splitOn sep text).tail, piece ≠ []) ∧
      (text.head? ≠ some sep → ∀ piece ∈ splitOn sep text, piece ≠ []) := by
  induction text with
  | nil => exact absurd rfl hne
  | cons c rest ih =>
      by_cases hrest : rest = []
      · subst hrest
        have hc : c ≠ sep := by simpa using hlast
        simp [splitOn, hc]
      · have hlast' : rest.getLast? ≠ some sep := by
          rwa [List.getLast?_cons_of_ne_nil hrest] at hlast
        simp only [occursIn, Bool.or_eq_false_iff] at htwo
        obtain ⟨htail, hwhole⟩ := ih hrest hlast' htwo.2
        by_cases hc : c = sep
        · subst hc
          have hhead : rest.head? ≠ some c := by
            intro hhead
            obtain ⟨more, rfl⟩ := List.head?_eq_some_iff.1 hhead
            simp at htwo
          simp only [splitOn, ↓reduceIte, List.tail_cons, List.head?_cons, ne_eq, not_true_eq_false,
            false_implies, and_true]
          exact hwhole hhead
        · cases hpieces : splitOn sep rest with
          | nil => exact absurd hpieces (splitOn_ne_nil sep rest)
          | cons first pieces =>
              rw [hpieces] at htail
              simp only [splitOn, hc, ↓reduceIte, hpieces, List.tail_cons]
              refine ⟨htail, fun _ piece hpiece => ?_⟩
              rcases List.mem_cons.1 hpiece with rfl | hpiece
              · exact List.cons_ne_nil _ _
              · exact htail piece hpiece

/-- A text has no empty piece when it has characters, no separator at either end and no two
separators in a row. -/
theorem forall_pieces_ne_nil_iff {sep : Char} {text : List Char} :
    (∀ piece ∈ splitOn sep text, piece ≠ []) ↔
      text ≠ [] ∧ text.head? ≠ some sep ∧ text.getLast? ≠ some sep ∧
        occursIn [sep, sep] text = false := by
  constructor
  · intro h
    refine ⟨?_, ?_, ?_, ?_⟩
    · rintro rfl
      exact h [] (by simp [splitOn]) rfl
    · intro hfirst
      obtain ⟨rest, rfl⟩ := List.head?_eq_some_iff.1 hfirst
      exact h [] (by simp [splitOn]) rfl
    · intro hlast
      obtain ⟨front, rfl⟩ := List.getLast?_eq_some_iff.1 hlast
      exact h [] (by simp [splitOn_append_sep, splitOn]) rfl
    · rw [Bool.eq_false_iff]
      intro htwo
      obtain ⟨front, back, rfl⟩ := exists_of_occursIn htwo
      rw [List.append_assoc] at h
      exact h [] (by simp [splitOn_append_sep, splitOn]) rfl
  · rintro ⟨hne, hfirst, hlast, htwo⟩
    exact (pieces_ne_nil hne hlast htwo).2 hfirst

end Text

namespace UnitId

/-- What may stand between the dots of an identifier. -/
structure Segment (segment : String) : Prop where
  nonempty : segment ≠ ""
  plain : ∀ c ∈ segment.toList, Text.isBlank c = false ∧ c ≠ '/' ∧ c ≠ '\\'

theorem segment_iff {segment : String} :
    Segment segment ↔ segment ≠ "" ∧
      ∀ c ∈ segment.toList, Text.isBlank c = false ∧ c ≠ '/' ∧ c ≠ '\\' :=
  ⟨fun h => ⟨h.nonempty, h.plain⟩, fun ⟨hnonempty, hplain⟩ => ⟨hnonempty, hplain⟩⟩

/-- A text that is cut into segments at its dots. -/
def Dotted (text : String) : Prop := ∀ segment ∈ Text.splitString '.' text, Segment segment

theorem dotted_iff {text : String} :
    Dotted text ↔ (∀ piece ∈ Text.splitOn '.' text.toList, piece ≠ []) ∧
      ∀ piece ∈ Text.splitOn '.' text.toList, ∀ c ∈ piece,
        Text.isBlank c = false ∧ c ≠ '/' ∧ c ≠ '\\' := by
  simp only [Dotted, Text.splitString, List.forall_mem_map, segment_iff, String.toList_ofList,
    ne_eq, String.ofList_eq_empty_iff, forall_and]

theorem wellFormed_iff {text : String} : wellFormed text.toList = true ↔ Dotted text := by
  rw [dotted_iff, Text.forall_pieces_ne_nil_iff, Text.forall_mem_splitOn_iff (by decide)]
  simp only [wellFormed, Bool.and_eq_true, Bool.not_eq_true', bne_iff_ne, ne_eq,
    List.isEmpty_eq_false_iff, List.all_eq_true, and_assoc]

/-- The tests of the reader decide whether a text is cut into segments. -/
instance (text : String) : Decidable (Dotted text) :=
  decidable_of_iff (wellFormed text.toList = true) wellFormed_iff

/-- A text is read as an identifier exactly when it is cut into segments, and is then that text. -/
theorem parse_eq_ok_iff {text : String} {unit : UnitId} :
    parse text = .ok unit ↔ Dotted text ∧ unit = ⟨text⟩ := by
  rw [parse, ← wellFormed_iff]
  split
  next h => rw [Except.ok.injEq, and_iff_right h, eq_comm]
  next h => simp [h]

theorem parse_eq_error_iff {text : String} {e : Malformed} :
    parse text = .error e ↔ ¬ Dotted text ∧ e = ⟨text⟩ := by
  rw [parse, ← wellFormed_iff]
  split
  next h => simp [h]
  next h => rw [Except.error.injEq, and_iff_right h, eq_comm]

theorem dotted_of_parse {text : String} {unit : UnitId} (h : parse text = .ok unit) :
    Dotted unit.text := by
  obtain ⟨hdotted, rfl⟩ := parse_eq_ok_iff.1 h
  exact hdotted

/-- An identifier that the reader gives back from its own text. -/
def Valid (unit : UnitId) : Prop := parse unit.text = .ok unit

theorem valid_iff {unit : UnitId} : unit.Valid ↔ Dotted unit.text := by
  rw [Valid, parse_eq_ok_iff]
  exact and_iff_left rfl

instance (unit : UnitId) : Decidable unit.Valid :=
  decidable_of_iff _ valid_iff.symm

theorem Dotted.noSlash {text : String} (h : Dotted text) : '/' ∉ text.toList := by
  have hall := (Text.forall_mem_splitOn_iff (P := fun c => Text.isBlank c = false ∧ c ≠ '/' ∧
    c ≠ '\\') (by decide)).1 (dotted_iff.1 h).2
  exact fun hslash => (hall '/' hslash).2.1 rfl

end UnitId

end ClojureBuild
