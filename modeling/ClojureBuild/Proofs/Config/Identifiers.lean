import ClojureBuild.Cli.Arguments
import ClojureBuild.Config.Decode
import ClojureBuild.Proofs.Planning.Grammar
import Mathlib.Data.List.Basic
/-!
Reading identifiers back.

A list of identifiers may be written to the table of compile options, to the two lists of test
suites, and behind `--libs`.  Main statement: the tables give it back exactly when all identifiers
are valid; on the command line it may not be empty either, and no identifier may hold a comma.
-/

namespace ClojureBuild

namespace Config

open Toml (Value)

variable {units : List UnitId}

/-- Identifiers as a value of a document. -/
def unitsValue (units : List UnitId) : Value := .array (units.map fun u => .text u.text)

/-- What the decoder of identifiers makes of a text. -/
theorem unit_text (u : UnitId) :
    unit (.text u.text) = if u.Valid then .ok u else fault (.badUnit ⟨u.text⟩) := by
  by_cases hu : u.Valid
  · have hparse : UnitId.parse u.text = .ok u := hu
    rw [if_pos hu]
    simp only [unit, text, bind, Except.bind, hparse]
    rfl
  · have hparse : UnitId.parse u.text = .error ⟨u.text⟩ :=
      UnitId.parse_eq_error_iff.2 ⟨mt UnitId.valid_iff.2 hu, rfl⟩
    rw [if_neg hu]
    simp only [unit, text, bind, Except.bind, hparse]

/-- A list of identifiers is decoded to itself exactly when all are valid, and else to no list. -/
theorem list_unit_eq_ok_iff {read : List UnitId} :
    list unit (unitsValue units) = .ok read ↔ (∀ u ∈ units, u.Valid) ∧ read = units := by
  change each unit (units.map fun u => .text u.text) = .ok read ↔ _
  induction units generalizing read with
  | nil =>
      change Except.ok [] = _ ↔ _
      simp [eq_comm]
  | cons u rest ih =>
      rw [List.map_cons, each, unit_text]
      by_cases hu : u.Valid
      · rw [if_pos hu]
        cases hrest : each unit (rest.map fun u => .text u.text) with
        | error e =>
            have hbad : ¬ ∀ v ∈ rest, v.Valid := by
              intro hall
              rw [ih.2 ⟨hall, rfl⟩] at hrest
              exact absurd hrest (by simp)
            change Except.error e = _ ↔ _
            simp [hbad]
        | ok others =>
            obtain ⟨hall, rfl⟩ := ih.1 hrest
            change Except.ok (u :: others) = _ ↔ _
            rw [Except.ok.injEq, eq_comm, List.forall_mem_cons, and_iff_right ⟨hu, hall⟩]
      · rw [if_neg hu]
        change Except.error _ = _ ↔ _
        simp [hu]

namespace Record

variable {σ α : Type} {r : Record σ} {decoder : Decoder α} {put : α → σ → σ} {name : String}
  {mayEnd : Bool} {v : Value}

/-- A table with a single key that may be left out, decoded by a record that requires none. -/
theorem decode_single (hfield : r.field? name = some (optional name mayEnd decoder put))
    (hrequired : ∀ f ∈ r.fields, f.required = false) :
    r.decode (.table [(name, v)]) =
      ((decoder v).mapError (Mismatch.under name)).map (put · r.blank) := by
  have hnone : r.fields.find?
      (fun f => f.required && (Toml.entry? f.name [(name, v)]).isNone) = none := by
    rw [List.find?_eq_none]
    intro f hf
    simp [hrequired f hf]
  rw [decode, readKeys, hfield]
  cases hvalue : decoder v with
  | error m =>
      have hread : (optional name mayEnd decoder put).read v r.blank = .error m := by
        change (decoder v >>= fun a => pure (put a r.blank)) = _
        rw [hvalue]
        rfl
      simp only [hread]
      rfl
  | ok a =>
      have hread : (optional name mayEnd decoder put).read v r.blank = .ok (put a r.blank) := by
        change (decoder v >>= fun a => pure (put a r.blank)) = _
        rw [hvalue]
        rfl
      simp only [hread, hnone]
      rfl

/-- The table gives a list of identifiers back exactly when all are valid. -/
theorem decode_units_iff {put : List UnitId → σ → σ}
    (hfield : r.field? name = some (optional name mayEnd (list unit) put))
    (hrequired : ∀ f ∈ r.fields, f.required = false) :
    r.decode (.table [(name, unitsValue units)]) = .ok (put units r.blank) ↔
      ∀ u ∈ units, u.Valid := by
  rw [decode_single hfield hrequired]
  constructor
  · intro h
    cases hlist : list unit (unitsValue units) with
    | error m =>
        rw [hlist] at h
        exact absurd h (by simp [Except.mapError, Except.map])
    | ok read => exact (list_unit_eq_ok_iff.1 hlist).1
  · intro hvalid
    rw [list_unit_eq_ok_iff.2 ⟨hvalid, rfl⟩]
    rfl

end Record

end Config

namespace Cli

/-- The option that a list of identifiers is given with. -/
def libsOption : OptionSpec := ⟨"libs", none, .units⟩

theorem accepts_units_iff {text : String} :
    Taking.units.accepts text = true ↔ (⟨text⟩ : UnitId).Valid := by
  rw [Taking.accepts, UnitId.Valid]
  cases hparse : UnitId.parse text with
  | error e => simp [Except.toBool]
  | ok u =>
      obtain ⟨-, rfl⟩ := UnitId.parse_eq_ok_iff.1 hparse
      simp [Except.toBool]

/-- Behind an equals sign the option takes the pieces between the commas. -/
theorem readLong_libs (text : String) :
    readLong buildSpec ("--libs=" ++ text) .start = Reading.start.add libsOption [text] := by
  have hcut : Text.breakAt '=' (("--libs=" ++ text).toList.drop 2) =
      ("libs".toList, some text.toList) := by
    rw [String.toList_append]
    rfl
  have hfind : buildSpec.options.find? (·.name == "libs") = some libsOption := by rfl
  rw [readLong, hcut]
  simp only [String.ofList_toList, hfind]
  rfl

/-- What was read when the option was given once. -/
def Reading.withLibs (texts : List String) : Reading :=
  { Reading.start with options := [("libs", texts)] }

theorem add_libs (text : String) :
    Reading.start.add libsOption [text] =
      match (Text.splitString ',' text).find? (!Taking.units.accepts ·) with
      | some v => .error (.usage (.badValue "libs" v))
      | none => .ok (.withLibs (Text.splitString ',' text)) := by
  have hsplit : libsOption.split [text] = Text.splitString ',' text :=
    List.append_nil (Text.splitString ',' text)
  rw [Reading.add, if_neg (by simp), if_neg (by simp [libsOption]), hsplit]
  rfl

/-- The command takes a single such option as it is. -/
theorem readCommand_libs (text : String) :
    readCommand buildSpec ["--libs=" ++ text] = Reading.start.add libsOption [text] := by
  have hchars : ("--libs=" ++ text).toList = "--libs=".toList ++ text.toList :=
    String.toList_append
  have hnot : "--libs=" ++ text ≠ "--" := by
    intro h
    rw [← String.toList_inj, hchars] at h
    exact absurd h (by simp)
  have hdashes : "--".toList.isPrefixOf ("--libs=" ++ text).toList = true := by
    rw [hchars]
    rfl
  have hnone : buildSpec.commands.contains ("--libs=" ++ text) = false := rfl
  rw [readCommand, readLevel, hnone, Bool.and_false, if_neg Bool.false_ne_true, if_neg hnot,
    if_pos hdashes, readLong_libs, add_libs]
  cases (Text.splitString ',' text).find? (!Taking.units.accepts ·) with
  | some v => rfl
  | none => rfl

/-- A request to build some units, and nothing else. -/
def Arguments.ofLibs (units : List UnitId) : Arguments where
  settings := ⟨false, false, none, none⟩
  action := .build units false .text

/-- The command line with a single option asks for the pieces between its commas. -/
theorem readArguments_libs (text : String) :
    readArguments ["build", "--libs=" ++ text] =
      match (Text.splitString ',' text).find? (!Taking.units.accepts ·) with
      | some v => .error (.usage (.badValue "libs" v))
      | none => .ok (.ofLibs ((Text.splitString ',' text).map UnitId.mk)) := by
  have houter : readLevel programSpec ["build", "--libs=" ++ text] .start =
      .ok { Reading.start with command := some ("build", ["--libs=" ++ text]) } := rfl
  rw [readArguments, houter]
  change (actionOf "build" ["--libs=" ++ text] >>= _) = _
  rw [actionOf, readCommand_libs, add_libs]
  cases hfind : (Text.splitString ',' text).find? (!Taking.units.accepts ·) with
  | some v => rfl
  | none =>
      have hread : ∀ piece ∈ Text.splitString ',' text,
          (UnitId.parse piece).toOption = some ⟨piece⟩ := by
        intro piece hpiece
        have haccepted := List.find?_eq_none.1 hfind piece hpiece
        have hvalid : UnitId.parse piece = .ok ⟨piece⟩ :=
          accepts_units_iff.1 (by simpa using haccepted)
        rw [hvalid]
        rfl
      have hvalues : (Reading.withLibs (Text.splitString ',' text)).values "libs" =
          Text.splitString ',' text := List.append_nil (Text.splitString ',' text)
      have hunits : ((Reading.withLibs (Text.splitString ',' text)).values "libs").filterMap
          (UnitId.parse · |>.toOption) = (Text.splitString ',' text).map UnitId.mk := by
        rw [hvalues, ← List.filterMap_eq_map]
        exact List.filterMap_congr hread
      rw [Arguments.ofLibs, ← hunits]
      rfl

/-- The command line gives a list of identifiers back exactly when it is not empty and all of them
are valid and hold no comma. -/
theorem readArguments_units_iff {units : List UnitId} :
    readArguments ["build", "--libs=" ++ Text.joinStrings ',' (units.map UnitId.text)] =
        .ok (.ofLibs units) ↔
      units ≠ [] ∧ ∀ u ∈ units, u.Valid ∧ ',' ∉ u.text.toList := by
  rw [readArguments_libs]
  constructor
  · intro h
    split at h
    · exact absurd h (by simp)
    next hfind =>
        simp only [Arguments.ofLibs, Except.ok.injEq, Arguments.mk.injEq, true_and,
          Action.build.injEq, and_true] at h
        rw [← h]
        refine ⟨?_, fun u hu => ?_⟩
        · rw [ne_eq, List.map_eq_nil_iff, Text.splitString, List.map_eq_nil_iff]
          exact Text.splitOn_ne_nil _ _
        · obtain ⟨piece, hpiece, rfl⟩ := List.mem_map.1 hu
          have haccepted := List.find?_eq_none.1 hfind piece hpiece
          obtain ⟨chars, hchars, rfl⟩ := List.mem_map.1 hpiece
          refine ⟨accepts_units_iff.1 (by simpa using haccepted), ?_⟩
          rw [String.toList_ofList]
          exact Text.not_mem_of_mem_splitOn hchars
  · rintro ⟨hne, hunits⟩
    have hsplit : Text.splitString ',' (Text.joinStrings ',' (units.map UnitId.text)) =
        units.map UnitId.text := by
      apply Text.splitString_joinStrings (by simpa using hne)
      intro text htext
      obtain ⟨u, hu, rfl⟩ := List.mem_map.1 htext
      exact (hunits u hu).2
    have hfind : (units.map UnitId.text).find? (!Taking.units.accepts ·) = none := by
      rw [List.find?_eq_none]
      intro text htext
      obtain ⟨u, hu, rfl⟩ := List.mem_map.1 htext
      simpa using accepts_units_iff.2 (hunits u hu).1
    rw [hsplit, hfind, List.map_map]
    exact congrArg (fun us => Except.ok (Arguments.ofLibs us)) (List.map_id units)

end Cli

end ClojureBuild
