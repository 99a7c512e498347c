import ClojureBuild.Language
import ClojureBuild.Proofs.Sorting
import ClojureBuild.Proofs.World.Growth
/-!
What scans for languages find.

A scan finds files below directories and single files that are listed.  Main statements: its list
ascends; in a world that grew it finds each place that it found, and maybe more; and the mode that
sources need tells which languages have files, though not that the first one has.
-/

namespace ClojureBuild

open World (Grown)

variable {w w' : World} {ext : String} {sources : List Path}

/-! ### Lists of paths -/

namespace Scan

theorem mem_of_mem_sorted {paths : List Path} {p : Path} (h : p ∈ sorted paths) : p ∈ paths :=
  mem_of_mem_distinctBy h

theorem exists_same_mem_sorted {paths : List Path} {p : Path} (h : p ∈ paths) :
    ∃ q ∈ sorted paths, q.same p = true := by
  obtain ⟨q, hq, rfl | hlevel⟩ := @exists_mem_distinctBy _ Path.before _ _ h
  · exact ⟨q, hq, beq_self_eq_true _⟩
  · exact ⟨q, hq, Path.same_of_level ⟨hlevel.2, hlevel.1⟩⟩

theorem exists_same_mem_sorted_iff {paths : List Path} {p : Path} :
    (∃ q ∈ sorted paths, q.same p = true) ↔ ∃ q ∈ paths, q.same p = true := by
  constructor
  · rintro ⟨q, hq, hsame⟩
    exact ⟨q, mem_of_mem_sorted hq, hsame⟩
  · rintro ⟨q, hq, hsame⟩
    obtain ⟨r, hr, hsame'⟩ := exists_same_mem_sorted hq
    exact ⟨r, hr, beq_iff_eq.2 ((eq_of_beq hsame').trans (eq_of_beq hsame))⟩

/-- A list of paths is in order and names each place once. -/
def Ascends (paths : List Path) : Prop :=
  paths.Pairwise fun p q => p.before q = true ∧ p.same q = false

theorem ascends_sorted (paths : List Path) : Ascends (sorted paths) := by
  apply (pairwise_distinctBy Path.before_trans paths).imp
  intro p q hbefore
  exact ⟨hbefore, Path.not_same_of_before hbefore⟩

theorem sorted_eq_nil_iff {paths : List Path} : sorted paths = [] ↔ paths = [] :=
  distinctBy_eq_nil_iff

theorem sorted_append_ne_nil {front : List Path} (h : front ≠ []) (back : List Path) :
    sorted (front ++ back) ≠ [] := by
  intro hnone
  exact h (List.append_eq_nil_iff.1 (sorted_eq_nil_iff.1 hnone)).1

/-! ### Scans -/

theorem mem_files_ofSource_iff {listed : Path → Bool} {source p : Path} :
    p ∈ (ofSource w ext listed source).files ↔
      w.isDir source = true ∧ p ∈ w.filesUnder false source ∧ hasExtension ext p = true ∨
        w.isDir source = false ∧ w.isFile source = true ∧ listed source = true ∧ p = source := by
  rw [ofSource]
  cases hdir : w.isDir source with
  | true => simp [World.filesUnder]
  | false =>
      by_cases hlisted : (w.isFile source && listed source) = true
      · rw [if_neg (by simp), if_pos hlisted]
        rw [Bool.and_eq_true] at hlisted
        simp [hlisted.1, hlisted.2]
      · rw [if_neg (by simp), if_neg hlisted]
        rw [Bool.and_eq_true] at hlisted
        simp only [List.not_mem_nil, Bool.false_eq_true, false_and, false_or, true_and, false_iff]
        rintro ⟨hfile, hlist, -⟩
        exact hlisted ⟨hfile, hlist⟩

theorem exists_of_mem_files {listed : Path → Bool} {p : Path}
    (h : p ∈ (ofSources w ext listed sources).files) :
    ∃ source ∈ sources, ∃ q ∈ (ofSource w ext listed source).files,
      Path.absolute? w.cwdPath q = some p := by
  obtain ⟨q, hq, habsolute⟩ := List.mem_filterMap.1 (mem_of_mem_sorted h)
  obtain ⟨scan, hscan, hin⟩ := List.mem_flatMap.1 hq
  obtain ⟨source, hsource, rfl⟩ := List.mem_map.1 hscan
  exact ⟨source, hsource, q, hin, habsolute⟩

theorem exists_same_mem_files {listed : Path → Bool} {source p q : Path}
    (hsource : source ∈ sources) (hq : q ∈ (ofSource w ext listed source).files)
    (habsolute : Path.absolute? w.cwdPath q = some p) :
    ∃ r ∈ (ofSources w ext listed sources).files, r.same p = true :=
  exists_same_mem_sorted (List.mem_filterMap.2
    ⟨q, List.mem_flatMap.2 ⟨_, List.mem_map_of_mem hsource, hq⟩, habsolute⟩)

end Scan

theorem World.Grown.isFile (h : Grown w w') {p : Path} (hdir : w.isDir p = false)
    (hfile : w.isFile p = true) : w'.isDir p = false ∧ w'.isFile p = true := by
  obtain ⟨loc, node, hstat, hnode⟩ := World.isFile_eq_true_iff.1 hfile
  rw [World.isDir, hstat] at hdir
  have hstat' := h.stat_file hstat hdir
  refine ⟨?_, World.isFile_eq_true_iff.2 ⟨loc, node, hstat', hnode⟩⟩
  rw [World.isDir, hstat']
  exact hdir

/-- In a world that grew a scan for a language finds each place that it found. -/
theorem World.Grown.exists_same_mem_languageFiles (h : Grown w w') {p : Path}
    (hp : p ∈ (languageFiles w ext sources).files) :
    ∃ q ∈ (languageFiles w' ext sources).files, q.same p = true := by
  obtain ⟨source, hsource, q, hq, habsolute⟩ := Scan.exists_of_mem_files hp
  have hcwd : w'.cwdPath = w.cwdPath := by rw [World.cwdPath, World.cwdPath, h.cwd]
  refine Scan.exists_same_mem_files hsource ?_ (hcwd.symm ▸ habsolute)
  rw [Scan.mem_files_ofSource_iff] at hq ⊢
  rcases hq with ⟨hdir, hshown, hext⟩ | ⟨hdir, hfile, hlisted, rfl⟩
  · exact Or.inl ⟨h.isDir hdir, h.mem_filesUnder hshown, hext⟩
  · obtain ⟨hdir', hfile'⟩ := h.isFile hdir hfile
    exact Or.inr ⟨hdir', hfile', hlisted, rfl⟩

/-! ### Modes -/

theorem hasLanguage_eq_false_iff :
    hasLanguage w ext sources = false ↔ (languageEvidence w ext sources).files = [] := by
  rw [hasLanguage, Bool.not_eq_false', List.isEmpty_iff]

theorem hasLanguage_eq_true_iff :
    hasLanguage w ext sources = true ↔ (languageEvidence w ext sources).files ≠ [] := by
  rw [← Bool.not_eq_false, ne_eq, hasLanguage_eq_false_iff]

theorem hasLanguage_of_isFile {source : Path} (hsource : source ∈ sources)
    (hfile : w.isFile source = true) : hasLanguage w ext sources = true := by
  obtain ⟨loc, node, hstat, -⟩ := World.isFile_eq_true_iff.1 hfile
  obtain ⟨q, hq⟩ := Path.exists_absolute? w.cwdPath (World.askable_of_stat hstat).nonempty
  obtain ⟨r, hr, -⟩ := @Scan.exists_same_mem_files w ext sources (fun _ => true) source q source
    hsource (Scan.mem_files_ofSource_iff.2
      (Or.inr ⟨World.isDir_of_isFile hfile, hfile, rfl, rfl⟩)) hq
  exact hasLanguage_eq_true_iff.2 (List.ne_nil_of_mem hr)

/-- Where a language is absent no single file is listed, so scans for languages look below
directories alone. -/
theorem languageFiles_eq_evidence {other : String}
    (h : (languageEvidence w other sources).files = []) :
    languageFiles w ext sources = languageEvidence w ext sources := by
  have hsource : ∀ source ∈ sources, Scan.ofSource w ext (hasExtension ext) source =
      Scan.ofSource w ext (fun _ => true) source := by
    intro source hin
    have hfile : w.isFile source = false := by
      rw [Bool.eq_false_iff]
      intro hfile
      exact hasLanguage_eq_true_iff.1 (hasLanguage_of_isFile hin hfile) h
    rw [Scan.ofSource, Scan.ofSource, hfile]
    rfl
  rw [languageFiles, languageEvidence, Scan.ofSources, Scan.ofSources, List.map_congr_left hsource]

/-- What a mode tells of the files of the languages.  A mode for Scala tells nothing: a single file
that is listed makes a language present whatever its extension is. -/
def MixedMode.Tells (scala groovy java : List Path) : MixedMode → Prop
  | .withScala => True
  | .withGroovy => scala = [] ∧ groovy ≠ []
  | .withJava => scala = [] ∧ groovy = [] ∧ java ≠ []
  | .clojureOnly => scala = [] ∧ groovy = [] ∧ java = []

theorem MixedMode.detect_eq (w : World) (sources : List Path) :
    detect w sources = if hasLanguage w "scala" sources then .withScala
      else if hasLanguage w "groovy" sources then .withGroovy
        else if hasLanguage w "java" sources then .withJava else .clojureOnly :=
  rfl

/-- The mode that sources need tells the truth. -/
theorem MixedMode.tells_detect (w : World) (sources : List Path) :
    (MixedMode.detect w sources).Tells (languageFiles w "scala" sources).files
      (languageFiles w "groovy" sources).files (languageFiles w "java" sources).files := by
  rw [detect_eq]
  cases hscala : hasLanguage w "scala" sources with
  | true => trivial
  | false =>
      rw [hasLanguage_eq_false_iff] at hscala
      have hfiles : ∀ ext, (languageFiles w ext sources).files =
          (languageEvidence w ext sources).files :=
        fun ext => congrArg Scan.files (languageFiles_eq_evidence hscala)
      have hpresent : ∀ ext, hasLanguage w ext sources = true →
          (languageEvidence w ext sources).files ≠ [] := by
        intro ext hhas hnone
        rw [← hasLanguage_eq_false_iff, hhas] at hnone
        exact absurd hnone (by simp)
      rw [hfiles, hfiles, hfiles]
      cases hgroovy : hasLanguage w "groovy" sources with
      | true => exact ⟨hscala, hpresent _ hgroovy⟩
      | false =>
          rw [hasLanguage_eq_false_iff] at hgroovy
          cases hjava : hasLanguage w "java" sources with
          | true => exact ⟨hscala, hgroovy, hpresent _ hjava⟩
          | false => exact ⟨hscala, hgroovy, hasLanguage_eq_false_iff.1 hjava⟩

end ClojureBuild
