import ClojureBuild.Namespaces
import ClojureBuild.Proofs.Path.Extension
import ClojureBuild.Proofs.Planning.Grammar
import Mathlib.Data.List.TakeDrop
import Mathlib.Data.List.TakeWhile
/-!
Source files with plain names.

When no name on the way to a source file holds a dot or a hyphen, the file and its unit determine
each other.  Main statements: the unit of such a file is read off its names, the source file of that
unit is the file again, the path of every identifier spells such names, and every identifier without
`_` is the unit of such a file.
-/

namespace ClojureBuild

/-- A name that holds neither a dot nor a hyphen. -/
structure PlainName (name : String) : Prop where
  nonempty : name.toList ≠ []
  noSlash : '/' ∉ name.toList
  noDot : '.' ∉ name.toList
  noHyphen : '-' ∉ name.toList

theorem PlainName.isName {name : String} (h : PlainName name) : Path.IsName name := by
  refine ⟨h.nonempty, h.noSlash, ?_, ?_⟩
  · intro hhere
    exact h.noDot (by simp [hhere])
  · intro hup
    exact h.noDot (by simp [hup])

theorem PlainName.ofText {name : String} (h : PlainName name) : PlainName (Octets.ofText name) where
  nonempty := h.isName.ofText.nonempty
  noSlash := h.isName.ofText.noSlash
  noDot := by
    rw [Octets.mem_ofText_iff (by decide)]
    exact h.noDot
  noHyphen := by
    rw [Octets.mem_ofText_iff (by decide)]
    exact h.noHyphen

theorem PlainName.append {name suffix : String} (h : PlainName name)
    (hsuffix : '/' ∉ suffix.toList) : Path.IsName (name ++ suffix) := by
  obtain ⟨c, rest, hc⟩ := List.exists_cons_of_ne_nil h.nonempty
  have hdot : c ≠ '.' := by
    rintro rfl
    exact h.noDot (by simp [hc])
  refine ⟨?_, ?_, ?_, ?_⟩
  · simp [hc]
  · simpa using ⟨h.noSlash, hsuffix⟩
  · simp [hc, hdot]
  · simp [hc, hdot]

/-- The names of a source file end in a stem with the extension. -/
theorem exists_stem_of_hasExtension {root : Path} {names : List String} (hne : names ≠ [])
    (hnames : ∀ name ∈ names, Path.IsName name)
    (hext : hasExtension UnitId.sourceExtension (root.descend names) = true) :
    ∃ dirs stem, names = dirs ++ [stem ++ ".clj"] ∧ stem ≠ "" := by
  obtain hnil | ⟨dirs, last, rfl⟩ := List.eq_nil_or_concat names
  · exact absurd hnil hne
  · rw [List.concat_eq_append] at hnames hext ⊢
    have hlast := hnames last (by simp)
    rw [hasExtension, beq_iff_eq, Path.descend_concat, Path.extension?_div _ hlast,
      Option.map_eq_some_iff] at hext
    obtain ⟨chars, hchars, hclj⟩ := hext
    obtain ⟨stem, hstem, hwhole⟩ := Path.exists_stem hchars
    refine ⟨dirs, String.ofList stem, ?_, by simpa using hstem⟩
    have hname : last = String.ofList stem ++ ".clj" := by
      rw [← String.toList_inj, hwhole, String.toList_append, String.toList_ofList,
        ← String.toList_ofList (l := chars), hclj]
      rfl
    rw [hname]

/-- A source file shows the unit that its names spell, if they are texts. -/
theorem unitOf_descend {dirs : List OsText} {stem : OsText}
    (hnames : ∀ name ∈ dirs ++ [stem ++ ".clj"], Path.IsName name) (hstem : stem ≠ "")
    (root : Path) :
    unitOf root (root.descend (dirs ++ [stem ++ ".clj"])) =
      ((dirs ++ [Path.leftOf stem]).mapM Octets.text?).map fun names =>
        UnitId.ofPath (Text.joinStrings '/' names) := by
  have hlast := hnames (stem ++ ".clj") (by simp)
  have hdirs : ∀ name ∈ dirs, Path.IsName name := fun name hname => hnames name (by simp [hname])
  have htext : (stem ++ ".clj").toList = stem.toList ++ '.' :: "clj".toList := String.toList_append
  have hclojure : hasExtension UnitId.sourceExtension
      (root.descend (dirs ++ [stem ++ ".clj"])) = true := by
    rw [hasExtension, beq_iff_eq, Path.descend_concat]
    exact Path.extension?_div_of_append _ hlast hstem (by decide) htext
  have hbelow := Path.below?_descend root hnames (by simp)
  have hspelled : (Path.ofPieces (dirs ++ [stem ++ ".clj"])).dropExtension.components.map
      Path.Component.text = dirs ++ [Path.leftOf stem] := by
    have hempty : (⟨""⟩ : Path).components = [] := by decide
    rw [Path.ofPieces_eq_descend, Path.descend_concat,
      Path.components_dropExtension_div _ hlast hstem (by decide) htext,
      Path.components_descend _ hdirs, hempty, List.nil_append, List.map_append, List.map_map,
      List.map_singleton, Path.text_componentOfPiece, String.ofList_toList]
    exact congrArg (· ++ [Path.leftOf stem]) (List.map_id dirs)
  rw [unitOf, if_pos hclojure, hbelow, Option.bind_eq_bind, Option.bind_some, Option.bind_eq_bind,
    hspelled]
  cases hread : (dirs ++ [Path.leftOf stem]).mapM Octets.text? with
  | none => rfl
  | some names =>
      have hsome : names ≠ [] := by
        rintro rfl
        exact absurd (Octets.mapM_text?_eq_some_iff.1 hread) (by simp)
      rw [Option.bind_some, if_neg (by simpa using hsome)]
      rfl

theorem Path.leftOf_ofText (stem : String) :
    leftOf (Octets.ofText stem) = Octets.ofText (leftOf stem) := by
  have hdot : Octets.ofText stem = "." ↔ stem = "." := Octets.ofText_eq_iff_of_ascii (by decide)
  rw [leftOf, leftOf]
  split_ifs with hleft hright hright
  · exact (Octets.ofText_ascii (by decide)).symm
  · exact absurd (hdot.1 hleft) hright
  · exact absurd (hdot.2 hright) hleft
  · rfl

/-- A file name is a text if that is so of what it leaves without its extension. -/
theorem Path.exists_leftOf_eq {stem : OsText} {left : String}
    (h : Octets.ofText left = leftOf stem) :
    ∃ last, stem = Octets.ofText last ∧ left = leftOf last := by
  by_cases hdot : stem = "."
  · refine ⟨".", by rw [hdot, Octets.ofText_ascii (by decide)], ?_⟩
    rw [leftOf, if_pos hdot, Octets.ofText_eq_iff_of_ascii (by decide)] at h
    exact h
  · rw [leftOf, if_neg hdot] at h
    refine ⟨left, h.symm, ?_⟩
    rw [leftOf, if_neg]
    rintro rfl
    exact hdot (h.symm.trans (Octets.ofText_ascii (by decide)))

theorem unitOf_descend_texts {dirs : List String} {stem : String}
    (hnames : ∀ name ∈ dirs.map Octets.ofText ++ [Octets.ofText stem ++ ".clj"], Path.IsName name)
    (hstem : stem ≠ "") (root : Path) :
    unitOf root (root.descend (dirs.map Octets.ofText ++ [Octets.ofText stem ++ ".clj"])) =
      some (UnitId.ofPath (Text.joinStrings '/' (dirs ++ [Path.leftOf stem]))) := by
  have hread : (dirs.map Octets.ofText ++ [Path.leftOf (Octets.ofText stem)]).mapM Octets.text? =
      some (dirs ++ [Path.leftOf stem]) := by
    rw [Octets.mapM_text?_eq_some_iff, Path.leftOf_ofText, List.map_append, List.map_singleton]
  rw [unitOf_descend hnames (mt Octets.ofText_eq_empty_iff.1 hstem), hread, Option.map_some]

/-- A source file below a root that shows a unit has texts for names. -/
theorem exists_texts_of_unitOf {dirs : List OsText} {stem : OsText}
    (hnames : ∀ name ∈ dirs ++ [stem ++ ".clj"], Path.IsName name) (hstem : stem ≠ "")
    {root : Path} {unit : UnitId}
    (h : unitOf root (root.descend (dirs ++ [stem ++ ".clj"])) = some unit) :
    ∃ (texts : List String) (last : String),
      dirs = texts.map Octets.ofText ∧ stem = Octets.ofText last ∧
        unit = UnitId.ofPath (Text.joinStrings '/' (texts ++ [Path.leftOf last])) := by
  rw [unitOf_descend hnames hstem, Option.map_eq_some_iff] at h
  obtain ⟨spelled, hread, rfl⟩ := h
  rw [Octets.mapM_text?_eq_some_iff] at hread
  obtain ⟨texts, lefts, rfl, hdirs, hlefts⟩ := List.map_eq_append_iff.1 hread
  obtain ⟨left, rfl, hleft⟩ := List.map_eq_singleton_iff.1 hlefts
  obtain ⟨last, hlast, rfl⟩ := Path.exists_leftOf_eq hleft
  exact ⟨texts, last, hdirs.symm, hlast, rfl⟩

/-- The plain names of a source file: its directories, and the file without its extension. -/
structure SourceName where
  dirs : List String
  stem : String
  plain : ∀ name ∈ dirs ++ [stem], PlainName name

namespace SourceName

/-- The names of the unit. -/
def segments (n : SourceName) : List String := n.dirs ++ [n.stem]

/-- The names of the directories, in octets. -/
def folders (n : SourceName) : List OsText := n.dirs.map Octets.ofText

/-- The name of the file without its extension, in octets. -/
def base (n : SourceName) : OsText := Octets.ofText n.stem

/-- The names that lead from a root to the source file. -/
def file (n : SourceName) : List OsText := n.folders ++ [n.base ++ ".clj"]

/-- The names that lead from the target to the compiled loader. -/
def loader (n : SourceName) : List OsText := n.folders ++ [n.base ++ "__init.class"]

/-- The unit that the file holds. -/
def unit (n : SourceName) : UnitId := UnitId.ofPath (Text.joinStrings '/' n.segments)

theorem map_ofText_segments (n : SourceName) :
    n.segments.map Octets.ofText = n.folders ++ [n.base] := by
  rw [segments, List.map_append, List.map_singleton, folders, base]

theorem plain_octets (n : SourceName) : ∀ name ∈ n.folders ++ [n.base], PlainName name := by
  rw [← map_ofText_segments]
  intro name hname
  obtain ⟨text, htext, rfl⟩ := List.mem_map.1 hname
  exact (n.plain text htext).ofText

theorem plain_base (n : SourceName) : PlainName n.base := n.plain_octets n.base (by simp)

theorem base_ne_empty (n : SourceName) : n.base ≠ "" := by
  intro h
  exact n.plain_base.nonempty (by simp [h])

theorem stem_ne_empty (n : SourceName) : n.stem ≠ "" :=
  mt Octets.ofText_eq_empty_iff.2 n.base_ne_empty

theorem folders_isName (n : SourceName) : ∀ name ∈ n.folders, Path.IsName name :=
  fun name h => (n.plain_octets name (by simp [h])).isName

theorem isName_with {suffix : OsText} (n : SourceName) (hsuffix : '/' ∉ suffix.toList) :
    ∀ name ∈ n.folders ++ [n.base ++ suffix], Path.IsName name := by
  intro name h
  rcases List.mem_append.1 h with hdir | hlast
  · exact n.folders_isName name hdir
  · rw [List.mem_singleton.1 hlast]
    exact n.plain_base.append hsuffix

theorem octets_isName (n : SourceName) : ∀ name ∈ n.folders ++ [n.base], Path.IsName name :=
  fun name h => (n.plain_octets name h).isName

theorem file_isName (n : SourceName) : ∀ name ∈ n.file, Path.IsName name :=
  n.isName_with (by decide)

theorem loader_isName (n : SourceName) : ∀ name ∈ n.loader, Path.IsName name :=
  n.isName_with (by decide)

theorem file_ne_nil (n : SourceName) : n.file ≠ [] := by simp [file]

theorem ext_segments {n n' : SourceName} (h : n.segments = n'.segments) : n = n' := by
  obtain ⟨hdirs, hstem⟩ := List.append_inj' h rfl
  cases n
  cases n'
  simp_all

theorem ext_octets {n n' : SourceName} (hfolders : n.folders = n'.folders)
    (hbase : n.base = n'.base) : n = n' := by
  apply ext_segments
  rw [segments, segments, Octets.ofText_injective hbase,
    List.map_injective_iff.2 Octets.ofText_injective hfolders]

theorem file_injective {n n' : SourceName} (h : n.file = n'.file) : n = n' := by
  obtain ⟨hfolders, hlast⟩ := List.append_inj' h rfl
  exact ext_octets hfolders (by simpa using hlast)

end SourceName

namespace UnitId

theorem text_of_parse {text : String} {unit : UnitId} (h : parse text = .ok unit) :
    wellFormed text.toList = true ∧ unit.text = text := by
  obtain ⟨hdotted, rfl⟩ := parse_eq_ok_iff.1 h
  exact ⟨wellFormed_iff.2 hdotted, rfl⟩

/-- A path without dots and hyphens is the path of the unit that it names. -/
theorem toPath_ofPath {path : String} (hdot : '.' ∉ path.toList) (hhyphen : '-' ∉ path.toList) :
    (ofPath path).toPath = path := by
  have hback : ∀ c ∈ path.toList, charToPath (charOfPath c) = c := by
    intro c hc
    have hnotDot : c ≠ '.' := fun h => hdot (h ▸ hc)
    have hnotHyphen : c ≠ '-' := fun h => hhyphen (h ▸ hc)
    unfold charToPath charOfPath
    grind
  rw [toPath, ofPath, String.toList_ofList, List.map_map, ← String.toList_inj,
    String.toList_ofList]
  exact (List.map_congr_left hback).trans (List.map_id _)

/-- The identifier with `-` for every `_`. -/
def hyphenated (unit : UnitId) : UnitId :=
  ⟨String.ofList (unit.text.toList.map fun c => if c = '_' then '-' else c)⟩

theorem hyphenated_eq_self {u : UnitId} (h : '_' ∉ u.text.toList) : u.hyphenated = u := by
  have hkept : ∀ c ∈ u.text.toList, (if c = '_' then '-' else c) = c := by
    intro c hc
    have hunder : c ≠ '_' := fun heq => h (heq ▸ hc)
    exact if_neg hunder
  rw [hyphenated, List.map_congr_left hkept, List.map_id', String.ofList_toList]

theorem toPath_hyphenated (u : UnitId) : u.hyphenated.toPath = u.toPath := by
  have hchar : charToPath ∘ (fun c => if c = '_' then '-' else c) = charToPath := by
    funext c
    unfold charToPath
    grind
  rw [toPath, hyphenated, String.toList_ofList, List.map_map, hchar, toPath]

theorem ofPath_toPath_eq {u : UnitId} (h : '/' ∉ u.text.toList) :
    ofPath u.toPath = u.hyphenated := by
  have hchar : ∀ c ∈ u.text.toList,
      (charOfPath ∘ charToPath) c = if c = '_' then '-' else c := by
    intro c hc
    have hslash : c ≠ '/' := fun heq => h (heq ▸ hc)
    rw [Function.comp_apply]
    unfold charToPath charOfPath
    grind
  rw [ofPath, toPath, String.toList_ofList, List.map_map, List.map_congr_left hchar, hyphenated]

theorem ofPath_toPath {unit : UnitId} (hslash : '/' ∉ unit.text.toList)
    (hunder : '_' ∉ unit.text.toList) : ofPath unit.toPath = unit :=
  (ofPath_toPath_eq hslash).trans (hyphenated_eq_self hunder)

end UnitId

namespace SourceName

/-! ### From the unit to the file -/

theorem joined_plain (n : SourceName) :
    '.' ∉ (Text.joinStrings '/' n.segments).toList ∧
      '-' ∉ (Text.joinStrings '/' n.segments).toList := by
  rw [Text.joinStrings, String.toList_ofList]
  constructor
  · intro hdot
    rcases Text.mem_joinWith hdot with h | ⟨piece, hpiece, hc⟩
    · exact absurd h (by decide)
    · obtain ⟨name, hname, rfl⟩ := List.mem_map.1 hpiece
      exact (n.plain name hname).noDot hc
  · intro hhyphen
    rcases Text.mem_joinWith hhyphen with h | ⟨piece, hpiece, hc⟩
    · exact absurd h (by decide)
    · obtain ⟨name, hname, rfl⟩ := List.mem_map.1 hpiece
      exact (n.plain name hname).noHyphen hc

theorem toPath_unit (n : SourceName) : n.unit.toPath = Text.joinStrings '/' n.segments :=
  UnitId.toPath_ofPath n.joined_plain.1 n.joined_plain.2

theorem splitString_toPath_unit (n : SourceName) :
    Text.splitString '/' n.unit.toPath = n.segments := by
  rw [toPath_unit]
  exact Text.splitString_joinStrings (by simp [segments]) fun name hname =>
    (n.plain name hname).noSlash

theorem relativePath_unit (n : SourceName) :
    n.unit.relativePath = Path.ofPieces (n.folders ++ [n.base]) := by
  rw [UnitId.relativePath, splitString_toPath_unit, map_ofText_segments]

theorem unit_injective {n n' : SourceName} (h : n.unit = n'.unit) : n = n' := by
  have hsegments := congrArg (fun unit => Text.splitString '/' (UnitId.toPath unit)) h
  simp only [splitString_toPath_unit] at hsegments
  exact ext_segments hsegments

/-- The source file of the unit is the file that the names lead to. -/
theorem sourceFile_unit (n : SourceName) (root : Path) :
    n.unit.sourceFile root = root.descend n.file := by
  have hjoined : root / n.unit.relativePath = root.descend n.folders / n.base := by
    rw [relativePath_unit]
    change root.join (Path.ofPieces (n.folders ++ [n.base])) = _
    rw [Path.join_ofPieces root (by simp) n.octets_isName, Path.descend_concat]
  have hext := Path.splitExtension_of_not_mem n.plain_base.noDot
  have hlast : Path.IsName (n.base ++ ".clj") := n.plain_base.append (by decide)
  rw [UnitId.sourceFile, hjoined, file, Path.descend_concat]
  refine Path.withExtension_div _ n.plain_base.isName hlast ?_
  rw [hext, String.toList_append]
  rfl

/-- The compiled loader of the unit is what the names lead to, with its own ending. -/
theorem initArtifact_unit (n : SourceName) (target : Path) :
    n.unit.initArtifact target = target.descend n.loader := by
  have hname : (Path.ofPieces (n.folders ++ [n.base])).fileName? = some n.base := by
    rw [Path.ofPieces_eq_descend, Path.descend_concat]
    exact Path.fileName?_div _ n.plain_base.isName
  have hparent :
      (Path.ofPieces (n.folders ++ [n.base])).parent? = some (Path.ofPieces n.folders) :=
    Path.parent?_ofPieces_concat n.folders_isName n.plain_base.isName
  have hlast : Path.IsName (n.base ++ "__init.class") := n.plain_base.append (by decide)
  have hloader : Path.ofPieces n.loader = Path.ofPieces n.folders / (n.base ++ "__init.class") := by
    rw [Path.ofPieces_eq_descend, loader, Path.descend_concat]
    rfl
  rw [UnitId.initArtifact, relativePath_unit, hname, hparent,
    ← Path.join_ofPieces target (by simp [loader]) n.loader_isName, hloader]
  exact Path.join_assoc target (Path.ofPieces_relative n.folders_isName) hlast.relative

/-! ### From the file to the unit -/

theorem extension?_file (n : SourceName) (root : Path) :
    (root.descend n.file).extension? = some "clj" := by
  rw [file, Path.descend_concat]
  exact Path.extension?_div_of_append _ (n.plain_base.append (by decide)) n.base_ne_empty
    (by decide)
    String.toList_append

theorem unitOf_file (n : SourceName) (root : Path) :
    unitOf root (root.descend n.file) = some n.unit := by
  have hdot : n.stem ≠ "." := by
    intro h
    exact (n.plain n.stem (by simp)).noDot (by simp [h])
  rw [file, folders, base, unitOf_descend_texts n.file_isName n.stem_ne_empty root, Path.leftOf,
    if_neg hdot, unit, segments]

/-- The path of an identifier cut at its slashes: the identifier cut at its dots. -/
theorem splitOn_toPath {unit : UnitId} (hslash : '/' ∉ unit.text.toList) :
    Text.splitOn '/' unit.toPath.toList =
      (Text.splitOn '.' unit.text.toList).map (List.map UnitId.charToPath) := by
  rw [UnitId.toPath, String.toList_ofList]
  apply Text.splitOn_map
  intro c hc
  have hnot : c ≠ '/' := fun h => hslash (h ▸ hc)
  unfold UnitId.charToPath
  grind

/-- A path form holds no dot and no hyphen. -/
theorem not_mem_toPath (unit : UnitId) : '.' ∉ unit.toPath.toList ∧ '-' ∉ unit.toPath.toList := by
  rw [UnitId.toPath, String.toList_ofList]
  constructor
  · rintro hdot
    obtain ⟨c, -, hc⟩ := List.mem_map.1 hdot
    unfold UnitId.charToPath at hc
    grind
  · intro hhyphen
    obtain ⟨c, -, hc⟩ := List.mem_map.1 hhyphen
    unfold UnitId.charToPath at hc
    grind

/-- The path of an identifier spells plain names. -/
theorem exists_segments {unit : UnitId} (h : UnitId.Dotted unit.text) :
    ∃ n : SourceName, n.segments = Text.splitString '/' unit.toPath := by
  have hplain : ∀ name ∈ Text.splitString '/' unit.toPath, PlainName name := by
    intro name hname
    obtain ⟨piece, hpiece, rfl⟩ := List.mem_map.1 hname
    have hpiece' := hpiece
    rw [splitOn_toPath h.noSlash] at hpiece'
    obtain ⟨whole, hwhole, rfl⟩ := List.mem_map.1 hpiece'
    have hsome := (UnitId.dotted_iff.1 h).1 whole hwhole
    refine ⟨?_, ?_, ?_, ?_⟩
    · simpa using hsome
    · rw [String.toList_ofList]
      exact Text.not_mem_of_mem_splitOn hpiece
    · rw [String.toList_ofList]
      exact fun hdot => (not_mem_toPath unit).1 (Text.mem_of_mem_splitOn hpiece hdot)
    · rw [String.toList_ofList]
      exact fun hhyphen => (not_mem_toPath unit).2 (Text.mem_of_mem_splitOn hpiece hhyphen)
  rcases List.eq_nil_or_concat (Text.splitString '/' unit.toPath) with hnil | ⟨dirs, stem, hnames⟩
  · exact absurd (List.map_eq_nil_iff.1 hnil) (Text.splitOn_ne_nil _ _)
  · rw [List.concat_eq_append] at hnames
    exact ⟨⟨dirs, stem, hnames ▸ hplain⟩, hnames.symm⟩

theorem exists_of_parse {text : String} {unit : UnitId} (h : UnitId.parse text = .ok unit)
    (hunder : '_' ∉ unit.text.toList) : ∃ n : SourceName, n.unit = unit := by
  have hdotted := UnitId.dotted_of_parse h
  obtain ⟨n, hn⟩ := exists_segments hdotted
  refine ⟨n, ?_⟩
  rw [SourceName.unit, hn, Text.joinStrings_splitString]
  exact UnitId.ofPath_toPath hdotted.noSlash hunder

end SourceName

end ClojureBuild
