import ClojureBuild.Proofs.Planning.SourceName
/-!
Where an identifier leads.

The path of an identifier goes down through its segments, each written with `_` for `-`.  A segment
holds neither dots nor separators, so it is an ordinary name and never `.` or `..`.  Main statement:
the reader accepts exactly the texts that are cut into segments at their dots, and the source file
and the compiled loader of such an identifier lie strictly below whatever root and target they are
looked for in, at the names that the segments spell.
-/

namespace ClojureBuild

open ClojureBuild.Path (IsName)

namespace Path

/-- A path that goes down from a base through some names, at least one, and no other way. -/
structure Reached (base : Path) (names : List String) (p : Path) : Prop where
  nonempty : names ≠ []
  ordinary : ∀ name ∈ names, IsName name
  descends : p = base.descend names
  components : p.components = base.components ++ names.map .name
  below : below? base p = some (ofPieces names)

theorem reached_descend (base : Path) {names : List String} (hne : names ≠ [])
    (hnames : ∀ name ∈ names, IsName name) : Reached base names (base.descend names) where
  nonempty := hne
  ordinary := hnames
  descends := rfl
  components := components_descend base hnames
  below := below?_descend base hnames hne

end Path

namespace UnitId

/-- A segment as a name in a path. -/
def pathName (segment : String) : OsText :=
  Octets.ofText (String.ofList (segment.toList.map fun c => if c = '-' then '_' else c))

/-- The path of an identifier spells its segments. -/
theorem splitString_toPath {unit : UnitId} (h : Dotted unit.text) :
    (Text.splitString '/' unit.toPath).map Octets.ofText =
      (Text.splitString '.' unit.text).map pathName := by
  rw [Text.splitString, SourceName.splitOn_toPath h.noSlash, Text.splitString, List.map_map,
    List.map_map, List.map_map]
  refine List.map_congr_left fun piece hpiece => ?_
  have hdot := Text.not_mem_of_mem_splitOn hpiece
  have hchars : ∀ c ∈ piece, charToPath c = if c = '-' then '_' else c := by
    intro c hc
    have hnot : c ≠ '.' := fun h => hdot (h ▸ hc)
    rw [charToPath, if_neg hnot]
  rw [Function.comp_apply, Function.comp_apply, Function.comp_apply, pathName,
    String.toList_ofList, List.map_congr_left hchars]

variable {unit : UnitId} {n : SourceName}

theorem relativePath_eq (h : n.segments = Text.splitString '/' unit.toPath) :
    unit.relativePath = n.unit.relativePath := by
  rw [relativePath, ← h, n.relativePath_unit, n.map_ofText_segments]

/-- The source file of an identifier is reached by the names that its path spells. -/
theorem sourceFile_eq (h : n.segments = Text.splitString '/' unit.toPath) (root : Path) :
    unit.sourceFile root = root.descend n.file := by
  rw [sourceFile, relativePath_eq h, ← n.sourceFile_unit root, sourceFile]

/-- So is its compiled loader. -/
theorem initArtifact_eq (h : n.segments = Text.splitString '/' unit.toPath) (target : Path) :
    unit.initArtifact target = target.descend n.loader := by
  rw [initArtifact, relativePath_eq h, ← n.initArtifact_unit target, initArtifact]

/-- The places of a unit: its source file and its compiled loader are reached from any root and any
target by the same directories, and then by the same stem with an ending of its own. -/
structure LeadsTo (unit : UnitId) (dirs : List OsText) (stem : OsText) : Prop where
  source : ∀ root, Path.Reached root (dirs ++ [stem ++ ".clj"]) (unit.sourceFile root)
  loader : ∀ target, Path.Reached target (dirs ++ [stem ++ "__init.class"])
    (unit.initArtifact target)

theorem leadsTo (h : n.segments = Text.splitString '/' unit.toPath) :
    unit.LeadsTo n.folders n.base where
  source root := sourceFile_eq h root ▸ Path.reached_descend root n.file_ne_nil n.file_isName
  loader target := initArtifact_eq h target ▸
    Path.reached_descend target (by simp) n.loader_isName

/-- A text is read as an identifier exactly when it is cut into segments at its dots.  What was read
leads strictly below any root and any target, through its segments with `_` for `-`. -/
theorem parse_reached :
    (∀ text, parse text = if Dotted text then .ok ⟨text⟩ else .error ⟨text⟩) ∧
      ∀ (text : String) (unit : UnitId), parse text = .ok unit →
        ∃ front last, Text.splitString '.' text = front ++ [last] ∧
          unit.LeadsTo (front.map pathName) (pathName last) := by
  refine ⟨fun text => ?_, fun text unit hparse => ?_⟩
  · split
    next hdotted => exact parse_eq_ok_iff.2 ⟨hdotted, rfl⟩
    next hnot => exact parse_eq_error_iff.2 ⟨hnot, rfl⟩
  · obtain ⟨hdotted, rfl⟩ := parse_eq_ok_iff.1 hparse
    have hunit : Dotted (⟨text⟩ : UnitId).text := hdotted
    obtain ⟨n, hn⟩ := SourceName.exists_segments hunit
    have hleads := leadsTo hn
    have hnames := n.map_ofText_segments
    rw [hn, splitString_toPath hdotted] at hnames
    obtain ⟨front, back, hsplit, hfront, hback⟩ := List.map_eq_append_iff.1 hnames
    obtain ⟨last, rfl, hlast⟩ := List.map_eq_singleton_iff.1 hback
    rw [← hfront, ← hlast] at hleads
    exact ⟨front, last, hsplit, hleads⟩

/-- The places of an identifier with a hyphen, below a root that goes up itself. -/
theorem parse_reached_hyphen :
    parse "a.b-c" = .ok ⟨"a.b-c"⟩ ∧
      (⟨"a.b-c"⟩ : UnitId).sourceFile ⟨"../r"⟩ = (⟨"../r"⟩ : Path).descend ["a", "b_c.clj"] := by
  have hparse : parse "a.b-c" = .ok ⟨"a.b-c"⟩ := by
    rw [parse_reached.1, if_pos (by decide)]
  obtain ⟨front, last, hsplit, hleads⟩ := parse_reached.2 "a.b-c" ⟨"a.b-c"⟩ hparse
  have hpieces : Text.splitString '.' "a.b-c" = ["a"] ++ ["b-c"] := by decide
  obtain ⟨rfl, hlast⟩ := List.append_inj' (hpieces.symm.trans hsplit) rfl
  obtain rfl := List.singleton_inj.1 hlast
  exact ⟨hparse, (hleads.source ⟨"../r"⟩).descends⟩

end UnitId

end ClojureBuild
