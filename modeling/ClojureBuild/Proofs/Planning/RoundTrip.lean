import ClojureBuild.Proofs.Path.Extension
import ClojureBuild.Proofs.Planning.Partition
/-!
From files to units and back.

The path of a unit is spelled without dots and hyphens, so its source file has canonical names below
every root.  Main statement: a root shows a file under a unit exactly when its names are texts, and
the file is the source file of that unit exactly when they are canonical; the source file of an
identifier without `_` is shown under that identifier.
-/

namespace ClojureBuild

open ClojureBuild.Path (Component IsName IsPiece)

namespace UnitId

/-- The names that the path of a unit spells. -/
def names (unit : UnitId) : List String :=
  (Text.splitString '/' unit.toPath).filter (· ≠ "")

theorem not_mem_of_mem_pieces {unit : UnitId} {piece : String}
    (h : piece ∈ Text.splitString '/' unit.toPath) :
    '/' ∉ piece.toList ∧ '.' ∉ piece.toList ∧ '-' ∉ piece.toList := by
  obtain ⟨chars, hchars, rfl⟩ := List.mem_map.1 h
  obtain ⟨hdot, hhyphen⟩ := SourceName.not_mem_toPath unit
  rw [String.toList_ofList]
  exact ⟨Text.not_mem_of_mem_splitOn hchars, fun hin => hdot (Text.mem_of_mem_splitOn hchars hin),
    fun hin => hhyphen (Text.mem_of_mem_splitOn hchars hin)⟩

theorem plainName_of_mem_names {unit : UnitId} {name : String} (h : name ∈ unit.names) :
    PlainName name := by
  obtain ⟨hpiece, hne⟩ := List.mem_filter.1 h
  obtain ⟨hslash, hdot, hhyphen⟩ := not_mem_of_mem_pieces hpiece
  exact ⟨by simpa using hne, hslash, hdot, hhyphen⟩

theorem isPiece_of_mem_pieces {unit : UnitId} {piece : OsText}
    (h : piece ∈ (Text.splitString '/' unit.toPath).map Octets.ofText) : IsPiece piece := by
  obtain ⟨text, htext, rfl⟩ := List.mem_map.1 h
  by_cases hempty : text = ""
  · exact Or.inl (Octets.ofText_eq_empty_iff.2 hempty)
  · have hname : text ∈ unit.names := List.mem_filter.2 ⟨htext, by simpa using hempty⟩
    exact Or.inr (plainName_of_mem_names hname).isName.ofText

/-- The names that the path of a unit spells, in octets. -/
def octets (unit : UnitId) : List OsText := unit.names.map Octets.ofText

theorem octets_eq (unit : UnitId) :
    unit.octets = ((Text.splitString '/' unit.toPath).map Octets.ofText).filter (· ≠ "") := by
  rw [octets, names, List.filter_map]
  congr 2
  funext text
  exact decide_eq_decide.2 (not_congr Octets.ofText_eq_empty_iff.symm)

theorem plainName_of_mem_octets {unit : UnitId} {name : OsText} (h : name ∈ unit.octets) :
    PlainName name := by
  obtain ⟨text, htext, rfl⟩ := List.mem_map.1 h
  exact (plainName_of_mem_names htext).ofText

theorem components_relativePath (unit : UnitId) (root : Path) :
    (root / unit.relativePath).components = root.components ++ unit.octets.map .name := by
  obtain ⟨hhead, hcomponents⟩ :=
    Path.components_ofPieces fun _ => @isPiece_of_mem_pieces unit _
  rw [← octets_eq] at hcomponents
  exact (Path.components_join root hhead).trans (congrArg _ hcomponents)

/-- The source file of a unit: its names with the extension behind the last, and the root with
another extension if the unit spells none. -/
theorem components_sourceFile (unit : UnitId) (root : Path) :
    (unit.sourceFile root).components =
      (root.components ++ unit.octets.map Component.name).dropLast ++
        ((root.components ++ unit.octets.map Component.name).getLast?.map
          (Component.withExtension sourceExtension)).toList := by
  rw [sourceFile, Path.components_withExtension _ (by decide) (by decide) (by decide),
    components_relativePath]

/-- A file below a root that is the source file of a unit has canonical names. -/
theorem canonical_of_same {unit : UnitId} {root : Path} {names : List String} (hne : names ≠ [])
    (hnames : ∀ name ∈ names, IsName name)
    (h : (unit.sourceFile root).same (root.descend names) = true) : Canonical names := by
  rw [Path.same, beq_iff_eq, components_sourceFile, Path.components_descend root hnames] at h
  rcases List.eq_nil_or_concat unit.names with hnone | ⟨dirs, stem, hspelled⟩
  · -- nothing is spelled, so the source file is no deeper than the root
    have hdeeper := List.length_pos_iff.2 hne
    have hlength := congrArg List.length h
    rw [octets, hnone, List.map_nil, List.map_nil, List.append_nil] at hlength
    rcases List.eq_nil_or_concat root.components with hroot | ⟨above, last, hroot⟩
    · rw [hroot] at hlength
      exact absurd hlength (by simp; omega)
    · rw [hroot] at hlength
      exact absurd hlength (by simp; omega)
  · rw [List.concat_eq_append] at hspelled
    have hplain : ∀ name ∈ dirs ++ [stem], PlainName name := by
      intro name hname
      exact plainName_of_mem_names (hspelled ▸ hname)
    have hstem := Path.splitExtension_of_not_mem (hplain stem (by simp)).ofText.noDot
    have hcut : Component.withExtension sourceExtension (.name (Octets.ofText stem)) =
        .name (Octets.ofText stem ++ ".clj") := by
      rw [Component.withExtension, hstem, String.ofList_append, String.ofList_toList]
      rfl
    rw [octets, hspelled, List.map_append, List.map_singleton, List.map_append, ← List.append_assoc,
      List.map_singleton, List.dropLast_concat, List.getLast?_concat, Option.map_some, hcut,
      List.append_assoc, List.append_cancel_left_eq] at h
    refine ⟨dirs, stem, ?_, fun name hname =>
      ⟨(hplain name hname).noDot, (hplain name hname).noHyphen⟩⟩
    refine List.map_injective_iff.2 (fun _ _ => Component.name.inj) ?_
    rw [← h, List.map_append, List.map_singleton]
    rfl

end UnitId

/-- A root shows a source file under a unit exactly when the names on the way are texts. -/
theorem exists_unitOf_iff {root : Path} {names : List OsText} (hne : names ≠ [])
    (hnames : ∀ name ∈ names, IsName name)
    (hext : hasExtension UnitId.sourceExtension (root.descend names) = true) :
    (∃ unit, unitOf root (root.descend names) = some unit) ↔
      ∀ name ∈ names, Octets.isText name = true := by
  obtain ⟨dirs, stem, rfl, hstem⟩ := exists_stem_of_hasExtension hne hnames hext
  have hlast := @Octets.isText_append_ascii stem ".clj" (by decide)
  rw [List.forall_mem_append, List.forall_mem_singleton, hlast, ← Octets.exists_map_ofText_iff,
    Octets.isText_iff]
  constructor
  · rintro ⟨unit, hunit⟩
    obtain ⟨texts, last, rfl, rfl, -⟩ := exists_texts_of_unitOf hnames hstem hunit
    exact ⟨⟨texts, rfl⟩, last, rfl⟩
  · rintro ⟨⟨texts, rfl⟩, last, rfl⟩
    exact ⟨_, unitOf_descend_texts hnames (mt Octets.ofText_eq_empty_iff.2 hstem) root⟩

/-- Below a root a source file shows a unit exactly when its names are texts, and is the source file
of that unit exactly when they are canonical.  Conversely, the source file of an identifier without
`_` shows it. -/
theorem sourceFile_unitOf_iff :
    (∀ (root : Path) (names : List OsText), names ≠ [] → (∀ name ∈ names, IsName name) →
      hasExtension UnitId.sourceExtension (root.descend names) = true →
      ((∃ unit, unitOf root (root.descend names) = some unit) ↔
        ∀ name ∈ names, Octets.isText name = true) ∧
      ((∃ unit, unitOf root (root.descend names) = some unit ∧
        (unit.sourceFile root).same (root.descend names) = true) ↔ Canonical names)) ∧
    ∀ (root : Path) (text : String) (unit : UnitId), UnitId.parse text = .ok unit →
      '_' ∉ text.toList → unitOf root (unit.sourceFile root) = some unit := by
  refine ⟨fun root names hne hnames hext => ⟨exists_unitOf_iff hne hnames hext, ?_⟩,
    fun root text unit hparse hunder => ?_⟩
  · constructor
    · rintro ⟨unit, -, hsame⟩
      exact UnitId.canonical_of_same hne hnames hsame
    · intro hcanonical
      obtain ⟨n, rfl⟩ := exists_file_eq hnames hext hcanonical
      refine ⟨n.unit, n.unitOf_file root, ?_⟩
      rw [n.sourceFile_unit root, Path.same, beq_self_eq_true]
  · obtain ⟨n, rfl⟩ := SourceName.exists_of_parse hparse ((UnitId.text_of_parse hparse).2 ▸ hunder)
    rw [n.sourceFile_unit root, n.unitOf_file root]

/-- A file with an underscore is found again, one with a hyphen is not, and an identifier with a
hyphen is. -/
theorem sourceFile_unitOf_iff_names :
    (∃ unit, unitOf ⟨"r"⟩ ((⟨"r"⟩ : Path).descend ["a", "b_c.clj"]) = some unit ∧
      (unit.sourceFile ⟨"r"⟩).same ((⟨"r"⟩ : Path).descend ["a", "b_c.clj"]) = true) ∧
    (¬ ∃ unit, unitOf ⟨"r"⟩ ((⟨"r"⟩ : Path).descend ["a-b.clj"]) = some unit ∧
      (unit.sourceFile ⟨"r"⟩).same ((⟨"r"⟩ : Path).descend ["a-b.clj"]) = true) ∧
    ∃ unit, UnitId.parse "a.b-c" = .ok unit ∧ unitOf ⟨"r"⟩ (unit.sourceFile ⟨"r"⟩) = some unit := by
  obtain ⟨hfiles, hunits⟩ := sourceFile_unitOf_iff
  refine ⟨?_, ?_, ⟨"a.b-c"⟩, by decide, hunits ⟨"r"⟩ "a.b-c" ⟨"a.b-c"⟩ (by decide) (by decide)⟩
  · rw [(hfiles ⟨"r"⟩ ["a", "b_c.clj"] (by decide) (by decide) (by decide)).2]
    exact ⟨["a"], "b_c", by decide, by decide⟩
  · rw [(hfiles ⟨"r"⟩ ["a-b.clj"] (by decide) (by decide) (by decide)).2]
    rintro ⟨dirs, stem, hnames, hplain⟩
    have hlast := congrArg (fun names => names.getLast?.map String.toList) hnames
    simp only [List.getLast?_concat, List.getLast?_singleton, Option.map_some, Option.some.injEq,
      String.toList_append] at hlast
    have hstem : (Octets.ofText stem).toList = "a-b".toList :=
      (List.append_cancel_right (hlast : "a-b".toList ++ ".clj".toList = _)).symm
    have hin : '-' ∈ (Octets.ofText stem).toList := by rw [hstem]; decide
    exact (hplain stem (by simp)).2 ((Octets.mem_ofText_iff (by decide)).1 hin)

/-- A name without dots and hyphens that is no text: the file shows no unit, and so it is not found
again. -/
theorem not_found_of_no_text :
    (∀ name ∈ ["\xff"], IsName name ∧ '.' ∉ name.toList ∧ '-' ∉ name.toList) ∧
      hasExtension UnitId.sourceExtension ((⟨"r"⟩ : Path).descend ["\xff" ++ ".clj"]) = true ∧
      ¬ ∃ unit, unitOf ⟨"r"⟩ ((⟨"r"⟩ : Path).descend ["\xff" ++ ".clj"]) = some unit ∧
        (unit.sourceFile ⟨"r"⟩).same ((⟨"r"⟩ : Path).descend ["\xff" ++ ".clj"]) = true := by
  have hnone : unitOf ⟨"r"⟩ ((⟨"r"⟩ : Path).descend ["\xff" ++ ".clj"]) = none := by
    decide +kernel
  refine ⟨by decide, by decide, ?_⟩
  rintro ⟨unit, hunit, -⟩
  exact absurd (hnone.symm.trans hunit) (by simp)

end ClojureBuild
