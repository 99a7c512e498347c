import ClojureBuild.Proofs.Config.Identifiers
import ClojureBuild.Proofs.Planning.Identifier
import ClojureBuild.Proofs.Planning.Partition
/-!
Identifiers in circulation.

An identifier that was read is valid, but one that comes from the tree is put together from names of
entries, and nothing is checked.  Main statement: the identifier of a source file is valid exactly
when every name on the way from its root is an identifier itself, the last without its extension.
Only lists of valid identifiers can be given back.
-/

namespace ClojureBuild

open ClojureBuild.Path (IsName Reached)

/-! ### Identifiers from names -/

namespace UnitId

/-- Characters of a name may stand in an identifier when they may do so as they are written
there. -/
theorem plain_charOfPath_iff {c : Char} (hslash : c ≠ '/') :
    (Text.isBlank (charOfPath c) = false ∧ charOfPath c ≠ '/' ∧ charOfPath c ≠ '\\') ↔
      (Text.isBlank c = false ∧ c ≠ '/' ∧ c ≠ '\\') := by
  rw [charOfPath, if_neg hslash]
  split
  next hunder => simp only [hunder]; decide
  next => rfl

/-- The pieces between the dots of an identifier that is put together from names. -/
theorem splitOn_ofPath {names : List String} (hne : names ≠ [])
    (hslash : ∀ name ∈ names, '/' ∉ name.toList) :
    Text.splitOn '.' (ofPath (Text.joinStrings '/' names)).text.toList =
      names.flatMap fun name => (Text.splitOn '.' name.toList).map (List.map charOfPath) := by
  have hjoined : (ofPath (Text.joinStrings '/' names)).text.toList =
      Text.joinWith '.' (names.map fun name => name.toList.map charOfPath) := by
    rw [ofPath, Text.joinStrings, String.toList_ofList, String.toList_ofList, Text.map_joinWith,
      List.map_map]
    rfl
  rw [hjoined, Text.splitOn_joinWith_flatMap (by simpa using hne), List.flatMap_map]
  refine List.flatMap_congr fun name hname => Text.splitOn_map fun c hc => ?_
  have hc' : c ≠ '/' := fun heq => hslash name hname (heq ▸ hc)
  rw [charOfPath, if_neg hc']
  split
  next hunder => simp [hunder]
  next => rfl

/-- An identifier that is put together from names is cut into segments when each of them is. -/
theorem dotted_ofPath_iff {names : List String} (hne : names ≠ [])
    (hslash : ∀ name ∈ names, '/' ∉ name.toList) :
    Dotted (ofPath (Text.joinStrings '/' names)).text ↔ ∀ name ∈ names, Dotted name := by
  simp only [dotted_iff, splitOn_ofPath hne hslash, List.forall_mem_flatMap, List.forall_mem_map,
    ← forall_and]
  refine forall₂_congr fun name hname => forall₂_congr fun piece hpiece => and_congr (by simp) ?_
  refine forall₂_congr fun c hc => plain_charOfPath_iff ?_
  rintro rfl
  exact hslash name hname (Text.mem_of_mem_splitOn hpiece hc)

end UnitId

/-! ### Identifiers of source files -/

theorem dotted_leftOf_iff {stem : String} :
    UnitId.Dotted (Path.leftOf stem) ↔ UnitId.Dotted stem := by
  rw [Path.leftOf]
  split
  next hdot => rw [hdot]; decide
  next => rfl

/-- An identifier that is put together from the names of a source file is valid exactly when they
are identifiers. -/
theorem valid_unitOf_iff {dirs : List String} {stem : String} {unit : UnitId}
    (hnames : ∀ name ∈ dirs.map Octets.ofText ++ [Octets.ofText stem ++ ".clj"], IsName name)
    (hunit : unit = UnitId.ofPath (Text.joinStrings '/' (dirs ++ [Path.leftOf stem]))) :
    unit.Valid ↔ ∀ name ∈ dirs ++ [stem], UnitId.Dotted name := by
  have hback : ∀ {name : String}, '/' ∉ (Octets.ofText name).toList → '/' ∉ name.toList :=
    fun h hin => h ((Octets.mem_ofText_iff (by decide)).2 hin)
  have hslash : ∀ name ∈ dirs ++ [Path.leftOf stem], '/' ∉ name.toList := by
    intro name hname
    rcases List.mem_append.1 hname with hdir | hlast
    · have hin : Octets.ofText name ∈ dirs.map Octets.ofText := List.mem_map_of_mem hdir
      exact hback (hnames _ (List.mem_append_left _ hin)).noSlash
    · rw [List.mem_singleton.1 hlast, Path.leftOf]
      split
      next => decide
      next =>
          have hfile := (hnames (Octets.ofText stem ++ ".clj") (by simp)).noSlash
          rw [String.toList_append, List.mem_append, not_or] at hfile
          exact hback hfile.1
  rw [hunit, UnitId.valid_iff, UnitId.dotted_ofPath_iff (by simp) hslash]
  simp only [List.forall_mem_append, List.forall_mem_singleton, dotted_leftOf_iff]

/-- Where a list of identifiers may be written, and when it is read there as it was. -/
structure ReadBack (units : List UnitId) : Prop where
  libs_iff : Config.compileOptions.decode (.table [("libs", Config.unitsValue units)]) =
      .ok { CompileOptions.default with libs := some units } ↔ ∀ u ∈ units, u.Valid
  include_iff : Config.testSettings.decode (.table [("include", Config.unitsValue units)]) =
      .ok { TestSettings.blank with added := units } ↔ ∀ u ∈ units, u.Valid
  exclude_iff : Config.testSettings.decode (.table [("exclude", Config.unitsValue units)]) =
      .ok { TestSettings.blank with excluded := units } ↔ ∀ u ∈ units, u.Valid
  /-- On the command line a comma ends an identifier. -/
  arguments_iff : Cli.readArguments
        ["build", "--libs=" ++ Text.joinStrings ',' (units.map UnitId.text)] =
      .ok (.ofLibs units) ↔ units ≠ [] ∧ ∀ u ∈ units, u.Valid ∧ ',' ∉ u.text.toList

theorem readBack (units : List UnitId) : ReadBack units := by
  have hlibs : Config.compileOptions.field? "libs" =
      some (Config.Record.optional "libs" true (Config.list Config.unit) fun us s =>
        { s with libs := some us }) := rfl
  have hinclude : Config.testSettings.field? "include" =
      some (Config.Record.optional "include" true (Config.list Config.unit) fun us s =>
        { s with added := us }) := rfl
  have hexclude : Config.testSettings.field? "exclude" =
      some (Config.Record.optional "exclude" true (Config.list Config.unit) fun us s =>
        { s with excluded := us }) := rfl
  exact ⟨Config.Record.decode_units_iff hlibs (by decide),
    Config.Record.decode_units_iff hinclude (by decide),
    Config.Record.decode_units_iff hexclude (by decide), Cli.readArguments_units_iff⟩

/-- The identifier of a source file that a walk shows is valid exactly when the names that lead from
the root to the file, the last without its extension, are identifiers.  These are the identifiers
that a search finds, and a list of identifiers is read back only when all of them are valid. -/
theorem circulation_iff {w : World} (htree : w.IsTree) (root : Path) (units : List UnitId) :
    (∀ (all : Bool) (p : Path) (unit : UnitId), p ∈ w.filesUnder all root →
      unitOf root p = some unit →
      ∃ (dirs : List String) (stem : String),
        Reached root (dirs.map Octets.ofText ++ [Octets.ofText stem ++ ".clj"]) p ∧
          (unit.Valid ↔ ∀ name ∈ dirs ++ [stem], UnitId.Dotted name)) ∧
    (∀ unit, unit ∈ discover w root ↔ ∃ p ∈ w.filesUnder false root, unitOf root p = some unit) ∧
    ReadBack units := by
  refine ⟨fun all p unit hp hunit => ?_, fun unit => ?_, readBack units⟩
  · have hext := hasExtension_of_unitOf hunit
    obtain ⟨names, hne, hnames, rfl⟩ := exists_descend_of_unitOf htree hp hunit
    obtain ⟨folders, base, rfl, hbase⟩ := exists_stem_of_hasExtension hne hnames hext
    obtain ⟨dirs, stem, rfl, rfl, heq⟩ := exists_texts_of_unitOf hnames hbase hunit
    exact ⟨dirs, stem, Path.reached_descend root hne hnames, valid_unitOf_iff hnames heq⟩
  · rw [discover_eq, List.mem_filterMap]

/-- A tree with a source file whose name holds a blank. -/
def blankName : World where
  nodes := [(["src"], .dir 0), (["a b.clj", "src"], .file ByteArray.empty 0 false)]
  cwd := []
  clock := 1

/-- The identifier of a file with a blank in its name is found, but is not valid, and neither the
configuration nor the command line takes it back. -/
theorem circulation_iff_blank :
    blankName.IsTree ∧ discover blankName ⟨"src"⟩ = [⟨"a b"⟩] ∧
      (∃ p ∈ blankName.filesUnder false ⟨"src"⟩, unitOf ⟨"src"⟩ p = some ⟨"a b"⟩ ∧
        ∃ (dirs : List String) (stem : String),
          Reached ⟨"src"⟩ (dirs.map Octets.ofText ++ [Octets.ofText stem ++ ".clj"]) p ∧
            ¬ ∀ name ∈ dirs ++ [stem], UnitId.Dotted name) ∧
      Config.compileOptions.decode (.table [("libs", Config.unitsValue [⟨"a b"⟩])]) ≠
        .ok { CompileOptions.default with libs := some [⟨"a b"⟩] } ∧
      Cli.readArguments ["build", "--libs=a b"] ≠ .ok (.ofLibs [⟨"a b"⟩]) := by
  have htree : blankName.IsTree := by decide +kernel
  have hunits : discover blankName ⟨"src"⟩ = [⟨"a b"⟩] := by decide +kernel
  have hnot : ¬ (⟨"a b"⟩ : UnitId).Valid := by decide
  obtain ⟨hfiles, hfound, hback⟩ := circulation_iff htree ⟨"src"⟩ [⟨"a b"⟩]
  refine ⟨htree, hunits, ?_, ?_, ?_⟩
  · obtain ⟨p, hp, hunit⟩ := (hfound ⟨"a b"⟩).1 (by simp [hunits])
    obtain ⟨dirs, stem, hreached, hvalid⟩ := hfiles false p ⟨"a b"⟩ hp hunit
    exact ⟨p, hp, hunit, dirs, stem, hreached, mt hvalid.2 hnot⟩
  · intro hread
    exact hnot (hback.libs_iff.1 hread ⟨"a b"⟩ (by simp))
  · intro hread
    exact hnot ((hback.arguments_iff.1 hread).2 ⟨"a b"⟩ (by simp)).1

end ClojureBuild
