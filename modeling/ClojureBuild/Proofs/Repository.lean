import ClojureBuild.Proofs.Coordinate
import ClojureBuild.Proofs.World.Confined
import ClojureBuild.Proofs.World.CurrentDirectory
/-!
Where the file of an artifact lies.

A coordinate on a classpath holds no separator, but its identifier and its version may be `..`, and
then the path of its file climbs again.  A group never climbs, since it is cut at its dots, and
neither does the file name, which has a hyphen in it.  Main statement: the file lies strictly below
the repository exactly when the climbs do not lead above it, or when they do so in vain.
-/

namespace ClojureBuild

namespace Coordinate

/-- What is joined behind a repository for the file of a coordinate. -/
def segments (k : Coordinate) : List OsText :=
  (Text.splitString '.' k.group ++ [k.id, k.version, k.fileName]).map Octets.ofText

theorem repositoryPath_eq_foldl (k : Coordinate) (repository : Path) :
    k.repositoryPath repository = k.segments.foldl (fun q segment => q / segment) repository := by
  rw [segments, List.foldl_map, List.foldl_append]
  rfl

/-- The directories that the group of a coordinate leads through: nothing stands between two dots
next to each other. -/
def groupNames (k : Coordinate) : List OsText :=
  ((Text.splitString '.' k.group).map Octets.ofText).filter (· ≠ "")

/-- The path of a coordinate does not climb above the repository: each `..` among its identifier and
its version has a directory before it to take back. -/
structure Contained (k : Coordinate) : Prop where
  id : k.id = ".." → k.groupNames ≠ []
  version : k.version = ".." →
    (k.id = ".." → 2 ≤ k.groupNames.length) ∧ (k.id = "." → k.groupNames ≠ [])

end Coordinate

variable {entry : String} {k : Coordinate}

theorem noSlash_of_parse (h : ClasspathEntry.parse entry = .artifact k) :
    '/' ∉ k.group.toList ∧ '/' ∉ k.id.toList ∧ '/' ∉ k.version.toList ∧
      '/' ∉ k.fileName.toList := by
  obtain ⟨hspells, hread⟩ := ClasspathEntry.parse_eq_artifact_iff.1 h
  have hparts := Coordinate.not_mem_parts (by decide) (Coordinate.spells_iff.1 hspells).1 hread
  obtain ⟨group, id, kind, classifier, version⟩ := k
  cases classifier <;> simp_all [Coordinate.parts, Coordinate.fileName]

theorem noSlash_of_mem_segments (h : ClasspathEntry.parse entry = .artifact k) :
    ∀ segment ∈ k.segments, '/' ∉ segment.toList := by
  obtain ⟨hgroup, hid, hversion, hname⟩ := noSlash_of_parse h
  intro segment hsegment
  obtain ⟨text, htext, rfl⟩ := List.mem_map.1 hsegment
  rw [Octets.mem_ofText_iff (by decide)]
  rcases List.mem_append.1 htext with hin | hin
  · exact Text.not_mem_of_mem_splitString hgroup hin
  · simp only [List.mem_cons, List.not_mem_nil, or_false] at hin
    rcases hin with rfl | rfl | rfl
    · exact hid
    · exact hversion
    · exact hname

theorem isAbsolute_repositoryPath (h : ClasspathEntry.parse entry = .artifact k)
    (repository : Path) :
    (k.repositoryPath repository).isAbsolute = repository.isAbsolute := by
  rw [k.repositoryPath_eq_foldl]
  exact Path.isAbsolute_foldl repository (noSlash_of_mem_segments h)

namespace World

/-! ### Places and steps -/

/-- A piece of a path that is not empty stays, climbs or leads down to a name. -/
theorem stepOfPiece_cases {piece : String} (hfull : piece ≠ "") (hslash : '/' ∉ piece.toList) :
    piece = "." ∨ piece = ".." ∨ Path.IsName piece := by
  by_cases hhere : piece = "."
  · exact Or.inl hhere
  · by_cases hup : piece = ".."
    · exact Or.inr (Or.inl hup)
    · refine Or.inr (Or.inr (Path.isName_iff.2 ⟨?_, hslash, ?_, ?_⟩))
      · simpa using hfull
      · exact fun heq => hhere (String.toList_inj.1 heq)
      · exact fun heq => hup (String.toList_inj.1 heq)

/-- The steps of a path lead down to names only. -/
theorem isName_of_down_mem {p : Path} {name : String} (h : .down name ∈ solidSteps p) :
    Path.IsName name := by
  obtain ⟨piece, hpiece, hstep⟩ := List.mem_filterMap.1 h
  have hslash : '/' ∉ piece.toList := by
    obtain ⟨chars, hchars, rfl⟩ := List.mem_map.1 hpiece
    rw [String.toList_ofList]
    exact Text.not_mem_of_mem_splitOn hchars
  by_cases hfull : piece = ""
  · exact absurd hstep (by simp [hfull, stepOfPiece])
  · rcases stepOfPiece_cases hfull hslash with rfl | rfl | hname
    · exact absurd hstep (by simp [stepOfPiece])
    · exact absurd hstep (by simp [stepOfPiece])
    · rw [stepOfPiece_name hname] at hstep
      cases hstep
      exact hname

/-- The place that a path spells is named properly when the current directory is. -/
theorem isName_of_mem_placeFrom {cwd : Location} (hcwd : ∀ name ∈ cwd, Path.IsName name)
    (p : Path) : ∀ name ∈ p.placeFrom cwd, Path.IsName name := by
  have hfold : ∀ (steps : List PathStep) (loc : Location),
      (∀ name, .down name ∈ steps → Path.IsName name) → (∀ name ∈ loc, Path.IsName name) →
      ∀ name ∈ steps.foldl PathStep.go loc, Path.IsName name := by
    intro steps
    induction steps with
    | nil => exact fun _ _ hloc => hloc
    | cons step rest ih =>
        intro loc hsteps hloc
        refine ih _ (fun name hname => hsteps name (List.mem_cons_of_mem _ hname)) ?_
        cases step with
        | stay => exact hloc
        | up => exact fun name hname => hloc name (List.mem_of_mem_tail hname)
        | down name =>
            intro other hother
            rcases List.mem_cons.1 hother with rfl | hrest
            · exact hsteps _ List.mem_cons_self
            · exact hloc other hrest
  refine hfold (solidSteps p) _ (fun name => isName_of_down_mem) ?_
  split
  · simp
  · exact hcwd

/-- Segments behind a path add their steps to its place. -/
theorem placeFrom_foldl {segments : List String} (p : Path)
    (hsegments : ∀ segment ∈ segments, '/' ∉ segment.toList) (cwd : Location) :
    (segments.foldl (fun q segment => q / segment) p).placeFrom cwd =
      (segments.filterMap stepOfPiece).foldl PathStep.go (p.placeFrom cwd) := by
  have hchars : (segments.map String.toList).map String.ofList = segments := by
    simp [Function.comp_def]
  have hpieces : ∀ piece ∈ segments.map String.toList, '/' ∉ piece := by simpa using hsegments
  obtain ⟨hsteps, habsolute⟩ := join_pieces p hpieces (by rw [hchars])
  have hpath : segments.foldl (fun q segment => q / segment) p =
      segments.foldl (fun q s => q.join ⟨s⟩) p := rfl
  rw [hpath, Path.placeFrom, hsteps, habsolute, List.foldl_append, ← List.filterMap_map, hchars]
  rfl

theorem below_cons_iff {place loc : Location} {name : String} :
    Below place (name :: loc) ↔ place <:+ loc := by
  rw [Below, List.suffix_cons_iff]
  constructor
  · rintro ⟨rfl | hsuffix, hne⟩
    · exact absurd rfl hne
    · exact hsuffix
  · intro hsuffix
    refine ⟨Or.inr hsuffix, fun heq => ?_⟩
    have hlength := hsuffix.length_le
    rw [← heq, List.length_cons] at hlength
    omega

/-- Climbing from below a place stays at the place or below it as long as names are left that lead
down from there. -/
theorem suffix_drop_iff {place names : Location} {n : Nat} :
    place <:+ (names ++ place).drop n ↔ n ≤ names.length ∨ place = [] := by
  constructor
  · intro h
    have hlength := h.length_le
    rw [List.length_drop, List.length_append] at hlength
    cases place with
    | nil => exact Or.inr rfl
    | cons name rest =>
        rw [List.length_cons] at hlength
        omega
  · rintro (hn | rfl)
    · rw [List.drop_append_of_le_length hn]
      exact List.suffix_append _ _
    · exact List.nil_suffix

end World

namespace Coordinate

open World

/-! ### The steps of a coordinate -/

theorem full_of_parse (h : ClasspathEntry.parse entry = .artifact k) :
    Octets.ofText k.id ≠ "" ∧ Octets.ofText k.version ≠ "" := by
  have hfull := (readable_of_parse? (ClasspathEntry.parse_eq_artifact_iff.1 h).2).full
  rw [Ne, Octets.ofText_eq_empty_iff, Ne, Octets.ofText_eq_empty_iff]
  exact ⟨hfull _ (by simp [parts]), hfull _ (by simp [parts])⟩

theorem isName_fileName (h : ClasspathEntry.parse entry = .artifact k) :
    Path.IsName k.fileName := by
  have hhyphen : '-' ∈ k.fileName.toList := by simp [fileName]
  refine Path.isName_iff.2 ⟨List.ne_nil_of_mem hhyphen, (noSlash_of_parse h).2.2.2, ?_, ?_⟩
  · exact fun heq => absurd (heq ▸ hhyphen) (by decide)
  · exact fun heq => absurd (heq ▸ hhyphen) (by decide)

/-- A group never climbs: its segments have no dots. -/
theorem steps_group (h : ClasspathEntry.parse entry = .artifact k) :
    ((Text.splitString '.' k.group).map Octets.ofText).filterMap stepOfPiece =
      k.groupNames.map .down := by
  have hpieces : ∀ segment ∈ (Text.splitString '.' k.group).map Octets.ofText,
      segment = "" ∨ Path.IsName segment := by
    intro segment hsegment
    have hslash := noSlash_of_mem_segments h segment (by
      rw [segments, List.map_append]
      exact List.mem_append_left _ hsegment)
    have hdot : '.' ∉ segment.toList := by
      rw [← Octets.splitString_ofText (by decide)] at hsegment
      obtain ⟨chars, hchars, rfl⟩ := List.mem_map.1 hsegment
      rw [String.toList_ofList]
      exact Text.not_mem_of_mem_splitOn hchars
    refine or_iff_not_imp_left.2 fun hfull => ?_
    rcases stepOfPiece_cases hfull hslash with rfl | rfl | hname
    · exact absurd hdot (by decide)
    · exact absurd hdot (by decide)
    · exact hname
  rw [groupNames]
  generalize (Text.splitString '.' k.group).map Octets.ofText = segments at hpieces ⊢
  induction segments with
  | nil => rfl
  | cons segment rest ih =>
      have hrest := ih fun other hother => hpieces other (List.mem_cons_of_mem _ hother)
      rcases hpieces segment List.mem_cons_self with rfl | hname
      · rw [List.filterMap_cons, List.filter_cons_of_neg (by simp), ← hrest]
        rfl
      · have hfull : segment ≠ "" := fun heq => hname.nonempty (by simp [heq])
        rw [List.filterMap_cons, List.filter_cons_of_pos (by simpa using hfull), List.map_cons,
          stepOfPiece_name hname, hrest]

/-- Where the file of a coordinate lies: in a directory that the group, the identifier and the
version lead to. -/
theorem placeFrom_repositoryPath (h : ClasspathEntry.parse entry = .artifact k)
    (repository : Path) (cwd : Location) :
    (k.repositoryPath repository).placeFrom cwd = Octets.ofText k.fileName ::
      ([Octets.ofText k.id, Octets.ofText k.version].filterMap stepOfPiece).foldl PathStep.go
        (k.groupNames.reverse ++ repository.placeFrom cwd) := by
  have hlast : [k.id, k.version, k.fileName].map Octets.ofText =
      [Octets.ofText k.id, Octets.ofText k.version] ++ [Octets.ofText k.fileName] := rfl
  rw [repositoryPath_eq_foldl, placeFrom_foldl repository (noSlash_of_mem_segments h), segments,
    List.map_append, List.filterMap_append, steps_group h, List.foldl_append, foldl_go_down,
    hlast, List.filterMap_append, List.foldl_append]
  simp [stepOfPiece_name (isName_fileName h).ofText, PathStep.go]

/-- Whether a coordinate stays contained can be told from the octets of its fields. -/
theorem contained_iff : k.Contained ↔
    (Octets.ofText k.id = ".." → k.groupNames.reverse ≠ []) ∧
      (Octets.ofText k.version = ".." →
        (Octets.ofText k.id = ".." → 2 ≤ k.groupNames.reverse.length) ∧
          (Octets.ofText k.id = "." → k.groupNames.reverse ≠ [])) := by
  have hhere : Octets.ofText k.id = "." ↔ k.id = "." := Octets.ofText_eq_iff_of_ascii (by decide)
  have hup : ∀ {text : String}, Octets.ofText text = ".." ↔ text = ".." :=
    Octets.ofText_eq_iff_of_ascii (by decide)
  rw [hhere, hup, hup, Ne, List.reverse_eq_nil_iff, List.length_reverse]
  exact ⟨fun h => ⟨h.id, h.version⟩, fun h => ⟨h.1, h.2⟩⟩

/-- Back from one directory above a place, a name leads to the place again only when the place is
called by it. -/
theorem suffix_down_drop_iff {place names : Location} {name : String} :
    place <:+ name :: (names ++ place).drop 1 ↔
      names ≠ [] ∨ place = [] ∨ place.head? = some name := by
  rw [List.suffix_cons_iff, suffix_drop_iff, ← List.length_pos_iff]
  cases names with
  | cons first rest => simp
  | nil =>
      cases place with
      | nil => simp
      | cons top up => simp

/-- Two pieces behind names below a place lead to the place or below it exactly when their climbs
stay contained, when there is nothing above the place, or when the last piece leads back into it. -/
theorem suffix_steps_iff {place names : Location} {id version : OsText}
    (hid : id ≠ "" ∧ '/' ∉ id.toList) (hversion : version ≠ "" ∧ '/' ∉ version.toList)
    (hplace : ∀ name ∈ place, Path.IsName name) :
    place <:+ ([id, version].filterMap stepOfPiece).foldl PathStep.go (names ++ place) ↔
      ((id = ".." → names ≠ []) ∧
        (version = ".." → (id = ".." → 2 ≤ names.length) ∧ (id = "." → names ≠ []))) ∨
      place = [] ∨ place.head? = some version := by
  have hhead : ∀ text : OsText, ¬ Path.IsName text → place.head? ≠ some text :=
    fun text htext heq => htext (hplace text (List.mem_of_mem_head? heq))
  have hhere := hhead "." (by decide)
  have hup := hhead ".." (by decide)
  have hone := @suffix_drop_iff place names 1
  have htwo := @suffix_drop_iff place names 2
  have hback := @suffix_down_drop_iff place names version
  have hstay : stepOfPiece "." = some .stay := rfl
  have hclimb : stepOfPiece ".." = some .up := rfl
  have hcases := stepOfPiece_cases hversion.1 hversion.2
  rcases stepOfPiece_cases hid.1 hid.2 with hidIs | hidIs | hidIs
  case inl =>
    rcases hcases with hversionIs | hversionIs | hversionIs
    case inl => simp [hidIs, hversionIs, hstay, PathStep.go]
    case inr.inl =>
      simpa [hidIs, hversionIs, hstay, hclimb, PathStep.go, hup, Nat.one_le_iff_ne_zero] using hone
    case inr.inr =>
      have hnot : version ≠ ".." := fun heq => absurd (heq ▸ hversionIs) (by decide)
      simp [hidIs, hnot, hstay, stepOfPiece_name hversionIs, PathStep.go]
  case inr.inl =>
    rcases hcases with hversionIs | hversionIs | hversionIs
    case inl =>
      simpa [hidIs, hversionIs, hstay, hclimb, PathStep.go, hhere, Nat.one_le_iff_ne_zero] using
        hone
    case inr.inl =>
      have hboth : names ≠ [] ∧ 2 ≤ names.length ↔ 2 ≤ names.length := by
        rw [and_iff_right_iff_imp, ← List.length_pos_iff]
        omega
      have htwice : (names ++ place).drop 2 = (names ++ place).tail.tail := by
        rw [← List.drop_one, ← List.drop_one, List.drop_drop]
      simpa [hidIs, hversionIs, hclimb, PathStep.go, hup, hboth, htwice] using htwo
    case inr.inr =>
      have hnot : version ≠ ".." := fun heq => absurd (heq ▸ hversionIs) (by decide)
      simpa [hidIs, hnot, hclimb, stepOfPiece_name hversionIs, PathStep.go] using hback
  case inr.inr =>
    have hnotUp : id ≠ ".." := fun heq => absurd (heq ▸ hidIs) (by decide)
    have hnotHere : id ≠ "." := fun heq => absurd (heq ▸ hidIs) (by decide)
    have hcontained : place <:+ ([version].filterMap stepOfPiece).foldl PathStep.go
        (id :: (names ++ place)) := by
      rcases hcases with hversionIs | hversionIs | hversionIs
      · simp [hversionIs, hstay, PathStep.go]
      · simp [hversionIs, hclimb, PathStep.go]
      · rw [List.filterMap_cons, stepOfPiece_name hversionIs]
        exact ((List.suffix_append _ _).trans (List.suffix_cons _ _)).trans (List.suffix_cons _ _)
    simp only [hnotUp, hnotHere, false_implies, and_self, implies_true, true_or, iff_true]
    simpa [stepOfPiece_name hidIs, PathStep.go] using hcontained

end Coordinate

open World

/-- The file of a coordinate lies strictly below the repository exactly when the climbs in its
identifier and its version do not lead above the repository, or when nothing is above it, or when
the version leads back into it.  The same holds for the file that the coordinate is resolved to. -/
theorem artifact_below_iff (h : ClasspathEntry.parse entry = .artifact k) (repository : Path)
    {w : World} (hcwd : ∀ name ∈ w.cwd, Path.IsName name) :
    (Below (repository.placeFrom w.cwd) ((k.repositoryPath repository).placeFrom w.cwd) ↔
      k.Contained ∨ repository.placeFrom w.cwd = [] ∨
        (repository.placeFrom w.cwd).head? = some (Octets.ofText k.version)) ∧
    ∀ file, Classpath.resolveArtifact w repository k = .ok file →
      (Below (repository.placeFrom w.cwd) (file.placeFrom w.cwd) ↔
        k.Contained ∨ repository.placeFrom w.cwd = [] ∨
          (repository.placeFrom w.cwd).head? = some (Octets.ofText k.version)) := by
  have hbelow : Below (repository.placeFrom w.cwd) ((k.repositoryPath repository).placeFrom w.cwd) ↔
      k.Contained ∨ repository.placeFrom w.cwd = [] ∨
        (repository.placeFrom w.cwd).head? = some (Octets.ofText k.version) := by
    rw [Coordinate.placeFrom_repositoryPath h, below_cons_iff]
    obtain ⟨hid, hversion⟩ := Coordinate.full_of_parse h
    have hsegment := noSlash_of_mem_segments h
    have hidSlash := hsegment (Octets.ofText k.id) (List.mem_map_of_mem (by simp))
    have hversionSlash := hsegment (Octets.ofText k.version) (List.mem_map_of_mem (by simp))
    rw [Coordinate.contained_iff]
    exact Coordinate.suffix_steps_iff ⟨hid, hidSlash⟩ ⟨hversion, hversionSlash⟩
      (isName_of_mem_placeFrom hcwd repository)
  refine ⟨hbelow, fun file hfile => ?_⟩
  rw [Classpath.resolveArtifact] at hfile
  split at hfile
  next _ =>
      rw [placeFrom_absolute? hcwd (absolutePath_eq_ok_iff.1 hfile)]
      exact hbelow
  next _ => exact absurd hfile (by simp)

/-- A repository with a directory for a group, and a file beside the repository. -/
def besideWorld : World :=
  ⟨[(["m2"], .dir 0), (["g", "m2"], .dir 0), (["..-...jar"], .file ByteArray.empty 0 false)], [], 0⟩

theorem artifact_below_iff_beside :
    ∃ k, ClasspathEntry.parse "g:..:.." = .artifact k ∧
      Classpath.resolveArtifact besideWorld ⟨"m2"⟩ k = .ok ⟨"/m2/g/../../..-...jar"⟩ ∧
      ¬ Below (Path.placeFrom [] ⟨"m2"⟩) (Path.placeFrom [] ⟨"/m2/g/../../..-...jar"⟩) := by
  have hparse : ClasspathEntry.parse "g:..:.." = .artifact ⟨"g", "..", "jar", none, ".."⟩ := by
    decide
  have hfile : Classpath.resolveArtifact besideWorld ⟨"m2"⟩ ⟨"g", "..", "jar", none, ".."⟩ =
      .ok ⟨"/m2/g/../../..-...jar"⟩ := by
    decide +kernel
  refine ⟨_, hparse, hfile, fun hbelow => ?_⟩
  have hcwd : ∀ name ∈ besideWorld.cwd, Path.IsName name := by decide
  rcases ((artifact_below_iff hparse ⟨"m2"⟩ hcwd).2 _ hfile).1 hbelow with hin | hroot | hversion
  · exact absurd (hin.version rfl).1 (by decide)
  · exact absurd hroot (by decide)
  · exact absurd hversion (by decide)

end ClojureBuild
