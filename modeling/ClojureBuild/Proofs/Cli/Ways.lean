import ClojureBuild.Proofs.Cli.NearestRoot
import ClojureBuild.Proofs.Compile.TwinPlans
import ClojureBuild.Proofs.Config.Loading
import ClojureBuild.Proofs.Config.Placement
import ClojureBuild.Proofs.World.Here
/-!
Three ways to name the project in the current directory.

A command may be told of the configuration by the bare name of its file, of the directory by a dot,
or of nothing at all.  Main statements: each way reads the same configuration, and takes the project
to be in the current directory, written as nothing, as a dot or in full; so the places of the
project have the same absolute forms, but for those that are configured as empty texts, and those
that are shown behind a current directory that is no text.
-/

namespace ClojureBuild

open World (Here Relative Roomy Twins)

namespace Cli

/-- How a command is told of the project in the current directory. -/
inductive Way where
  /-- By the name of the configuration. -/
  | file
  /-- By a dot. -/
  | directory
  /-- Not at all, so that it is searched for. -/
  | search
deriving DecidableEq

namespace Way

/-- What a command is told. -/
def config : Way → Option String
  | file => some Config.fileName
  | directory => some "."
  | search => none

/-- Settings that name the project in this way. -/
def on (way : Way) (settings : Settings) : Settings := { settings with config := way.config }

/-- The directory that the project is then taken to be in. -/
def dir (way : Way) (w : World) : Path :=
  match way with
  | file => ⟨""⟩
  | directory => ⟨"."⟩
  | search => w.cwdPath

/-- Neither of two ways leaves the directory out, or both do. -/
def Even (way way' : Way) : Prop := way = file ↔ way' = file

instance (way way' : Way) : Decidable (way.Even way') :=
  inferInstanceAs (Decidable (way = file ↔ way' = file))

/-- The directory shows alike in two ways: both spell it in full or neither does, or else it is a
text. -/
def Readable (w : World) (way way' : Way) : Prop :=
  w.cwdPath.isText = true ∨ (way = search ↔ way' = search)

instance (w : World) (way way' : Way) : Decidable (Readable w way way') :=
  inferInstanceAs (Decidable (w.cwdPath.isText = true ∨ (way = search ↔ way' = search)))

variable (way way' : Way) (w : World)

theorem here : Here w.cwd (way.dir w) := by
  cases way with
  | file => exact .absent
  | directory => exact .dot
  | search => exact .full

theorem text_dir_eq_empty_iff : (way.dir w).text = "" ↔ way = file := by
  cases way with
  | file => exact iff_of_true rfl rfl
  | directory => exact iff_of_false (show "." ≠ "" by decide) (by decide)
  | search =>
      exact iff_of_false (World.text_ne_of_isAbsolute (World.isAbsolute_textOf _)) (by decide)

variable {way way' w}

theorem isText_dir_of_ne (h : way ≠ search) : (way.dir w).isText = true := by
  cases way with
  | file => exact show Path.isText ⟨""⟩ = true by decide +kernel
  | directory => exact show Path.isText ⟨"."⟩ = true by decide +kernel
  | search => exact absurd rfl h

theorem isAbsolute_dir_of_ne (h : way ≠ search) : (way.dir w).isAbsolute = false := by
  cases way with
  | file => exact show Path.isAbsolute ⟨""⟩ = false by decide
  | directory => exact show Path.isAbsolute ⟨"."⟩ = false by decide
  | search => exact absurd rfl h

/-- Two ways that show the directory alike are one, or both show a text. -/
theorem Readable.eq_or (h : Readable w way way') :
    way = way' ∨ (way.dir w).isText = true ∧ (way'.dir w).isText = true := by
  have htext : ∀ v : Way, v ≠ search ∨ w.cwdPath.isText = true → (v.dir w).isText = true := by
    intro v hv
    by_cases hsearch : v = search
    · rw [hsearch]
      exact hv.resolve_left (not_not.2 hsearch)
    · exact isText_dir_of_ne hsearch
  rcases h with hcwd | hiff
  · exact Or.inr ⟨htext way (Or.inr hcwd), htext way' (Or.inr hcwd)⟩
  · by_cases hway : way = search
    · exact Or.inl (hway.trans (hiff.1 hway).symm)
    · exact Or.inr ⟨htext way (Or.inl hway), htext way' (Or.inl (mt hiff.2 hway))⟩

theorem Readable.isText_eq (h : Readable w way way') :
    (way.dir w).isText = (way'.dir w).isText := by
  rcases h.eq_or with rfl | ⟨hway, hway'⟩
  · rfl
  · rw [hway, hway']

theorem even_iff : way.Even way' ↔ ((way.dir w).text = "" ↔ (way'.dir w).text = "") := by
  rw [Even, text_dir_eq_empty_iff, text_dir_eq_empty_iff]

end Way

end Cli

/-- A configuration stands in the current directory and can be read. -/
def Configured (w : World) (config : ProjectConfig) : Prop :=
  ∃ content, w.readText ⟨Config.fileName⟩ = .ok content ∧ Config.ofText content = .ok config

theorem Configured.unique {w : World} {config config' : ProjectConfig} (h : Configured w config)
    (h' : Configured w config') : config = config' := by
  obtain ⟨content, hread, hof⟩ := h
  obtain ⟨content', hread', hof'⟩ := h'
  obtain rfl := Except.ok.inj (hread.symm.trans hread')
  exact Except.ok.inj (hof.symm.trans hof')

/-- The source entries of a project, configured or not. -/
def ProjectConfig.sourceEntries (config : ProjectConfig) : List String :=
  config.project.sources.getD Layout.defaultSources

/-- The name of the configuration is its own path, and so is every default source. -/
theorem ofText_default :
    Path.ofText Config.fileName = ⟨Config.fileName⟩ ∧ Path.ofText "." = ⟨"."⟩ ∧
      ∀ d ∈ Layout.defaultSources, Path.ofText d = ⟨d⟩ := by
  decide

/-- The project in the current directory can be looked up: the directory stands in a tree, with a
configuration in it, and its path leaves room for that of the configuration. -/
structure World.Hosts (w : World) : Prop where
  tree : w.IsTree
  standing : w.Standing
  holds : w.isFile ⟨Config.fileName⟩ = true
  room : (w.cwdPath / Config.fileName).text.length < World.pathLimit

namespace Cli

open Project (load loadConfig findRoot?)

variable {w : World} {way way' : Way} {env : Environment} {settings : Settings}

theorem entryNames_cwd (h : w.Hosts) : ∀ name ∈ w.cwd, EntryName name :=
  h.standing.entryNames h.tree

/-! ### The configuration -/

/-- The configuration is found by each way. -/
theorem exists_stat_fileName (h : w.Hosts) :
    ∃ loc node, node.isFile = true ∧ w.stat ⟨Config.fileName⟩ = .ok (loc, node) ∧
      ∀ way : Way, w.stat (way.dir w / Config.fileName) = .ok (loc, node) := by
  obtain ⟨loc, node, hstat, hnode⟩ := World.isFile_eq_true_iff.1 h.holds
  have hcwd := entryNames_cwd h
  have hrelative : Relative ⟨Config.fileName⟩ := by
    rw [Relative]
    decide
  have hbare : w.stat ((⟨""⟩ : Path).join ⟨Config.fileName⟩) = .ok (loc, node) := by
    rwa [Path.empty_join]
  refine ⟨loc, node, hnode, hstat, fun way => ?_⟩
  have hne : (way.dir w / Config.fileName).text ≠ "" := fun hempty =>
    absurd (World.text_join_eq_empty_iff.1 hempty).2 (by decide)
  have hshort : (way.dir w / Config.fileName).text.length < World.pathLimit := by
    cases way with
    | file => exact show (Path.join ⟨""⟩ ⟨Config.fileName⟩).text.length < _ by decide
    | directory => exact show (Path.join ⟨"."⟩ ⟨Config.fileName⟩).text.length < _ by decide
    | search => exact h.room
  exact Here.absent.stat_join (way.here w) hcwd h.standing hrelative
    ((way.here w).askable_join hcwd hrelative (World.askable_of_stat hbare) hne hshort) hbare

theorem readText_congr {p q : Path} (h : w.stat p = w.stat q) : w.readText p = w.readText q := by
  rw [World.readText, World.readText, World.readFile, World.readFile, h]

theorem load_config_eq_ok_iff {dir : Path} {config : ProjectConfig} :
    Config.load w dir = .ok config ↔ ∃ content,
      w.readText (dir / Config.fileName) = .ok content ∧ Config.ofText content = .ok config := by
  rw [Config.load]
  cases w.readText (dir / Config.fileName) with
  | error e => simp [Except.mapError, bind, Except.bind]
  | ok content => simp [Except.mapError, bind, Except.bind]

theorem isFile_dot (h : w.Hosts) : w.isFile ⟨"."⟩ = false := by
  have hrelative : Relative ⟨"."⟩ := by
    rw [Relative]
    decide
  have hdot := Here.absent.isFile_of_nothing (entryNames_cwd h) h.standing hrelative (by decide)
  rwa [Path.empty_join] at hdot

theorem findRoot?_cwdPath (h : w.Hosts) : findRoot? w w.cwdPath = some w.cwdPath := by
  obtain ⟨loc, node, -, -, hways⟩ := exists_stat_fileName h
  have hexists : w.pathExists (w.cwdPath / Config.fileName) = true := by
    have hsearch := hways .search
    rw [Way.dir] at hsearch
    rw [World.pathExists, hsearch]
  rw [Project.findRoot?_eq, if_pos hexists]

/-- Each way reads the one configuration. -/
theorem loadConfig_eq_ok_iff (h : w.Hosts) (way : Way) {found : Path × ProjectConfig} :
    loadConfig w (way.on settings) = .ok found ↔ found.1 = way.dir w ∧ Configured w found.2 := by
  obtain ⟨dir, config⟩ := found
  obtain ⟨loc, node, -, hstat, hways⟩ := exists_stat_fileName h
  have hload : ∀ way : Way, Config.load w (way.dir w) = .ok config ↔ Configured w config := by
    intro way
    rw [load_config_eq_ok_iff, readText_congr ((hways way).trans hstat.symm), Configured]
  obtain ⟨hname, hdot, -⟩ := ofText_default
  rw [loadConfig]
  cases way with
  | file =>
      have hparent : (⟨Config.fileName⟩ : Path).parent?.getD ⟨"."⟩ = ⟨""⟩ := by decide
      simp only [Way.on, Way.config, hname, h.holds, hparent, Configured, Way.dir, ↓reduceIte]
      cases w.readText ⟨Config.fileName⟩ with
      | error e => simp [Except.mapError, bind, Except.bind]
      | ok content =>
          cases hof : Config.ofText content <;>
            simp [hof, Except.mapError, bind, Except.bind, pure, Except.pure, eq_comm]
  | directory =>
      have hthis := hload .directory
      simp only [Way.on, Way.config, hdot, isFile_dot h, Way.dir, Bool.false_eq_true,
        ↓reduceIte] at hthis ⊢
      rw [← hthis]
      cases Config.load w ⟨"."⟩ <;>
        simp [Except.mapError, bind, Except.bind, pure, Except.pure, eq_comm]
  | search =>
      have hthis := hload .search
      simp only [Way.on, Way.config, findRoot?_cwdPath h, Way.dir] at hthis ⊢
      rw [← hthis]
      cases Config.load w w.cwdPath <;>
        simp [Except.mapError, bind, Except.bind, pure, Except.pure, eq_comm]

/-- A project that is loaded is laid out in the directory of the way. -/
theorem load_eq_ok_iff (h : w.Hosts) (way : Way) {p : Project} :
    load w env (way.on settings) = .ok p ↔ Configured w p.config ∧
      Layout.resolve w env.surroundings p.config (way.dir w) = .ok p.layout ∧
        p.dir = way.dir w ∧ p.tools = .resolve p.config.toolchain env.surroundings := by
  obtain ⟨dir, config, layout, tools⟩ := p
  constructor
  · intro hload
    obtain ⟨⟨dir', config'⟩, hfound, hload⟩ := Task.exists_of_bind_eq_ok hload
    obtain ⟨rfl, hconfigured⟩ := (loadConfig_eq_ok_iff h way).1 hfound
    obtain ⟨layout', hlayout, hload⟩ := Task.exists_of_bind_eq_ok hload
    cases hload
    exact ⟨hconfigured, Task.mapError_eq_ok_iff.1 hlayout, rfl, rfl⟩
  · rintro ⟨hconfigured, hlayout, hdir, htools⟩
    simp only at hdir htools hlayout hconfigured
    rw [load, (@loadConfig_eq_ok_iff w settings h way (dir, config)).2 ⟨hdir, hconfigured⟩,
      Task.ok_bind]
    simp only [hdir, hlayout, htools]
    rfl

theorem eq_of_loads (h : w.Hosts) {p p' : Project} (hp : load w env (way.on settings) = .ok p)
    (hp' : load w env (way'.on settings) = .ok p') : p.config = p'.config ∧ p.tools = p'.tools := by
  obtain ⟨hconfigured, -, -, htools⟩ := (load_eq_ok_iff h way).1 hp
  obtain ⟨hconfigured', -, -, htools'⟩ := (load_eq_ok_iff h way').1 hp'
  have hconfig := hconfigured.unique hconfigured'
  exact ⟨hconfig, by rw [htools, htools', hconfig]⟩

/-! ### Places -/

/-- What is seen from the current directory has one absolute form whatever the way, unless it is
nothing and one way leaves the directory out. -/
theorem absolute?_join_eq_iff (h : w.Hosts) (e : Path) :
    Path.absolute? w.cwdPath ((way.dir w).join e) = Path.absolute? w.cwdPath ((way'.dir w).join e) ↔
      way.Even way' ∨ e.text ≠ "" := by
  have hnames : ∀ name ∈ w.cwd, Path.IsName name := fun name hname =>
    (entryNames_cwd h name hname).toIsName
  by_cases he : Relative e
  · have hsome : ∀ v : Way, v ≠ .file ∨ e.text ≠ "" →
        ((v.dir w).join e).text ≠ "" := by
      intro v hv hempty
      obtain ⟨hdir, he⟩ := World.text_join_eq_empty_iff.1 hempty
      exact hv.elim (fun hnot => hnot ((v.text_dir_eq_empty_iff w).1 hdir)) fun hnot => hnot he
    have hform := fun (v : Way) hv => (v.here w).absolute?_join hnames he (hsome v hv)
    have hnone : e.text = "" → Path.absolute? w.cwdPath ((Way.file.dir w).join e) = none := by
      intro hempty
      obtain rfl : e = ⟨""⟩ := congrArg Path.mk hempty
      rfl
    by_cases hempty : e.text = ""
    · have hcase : way.Even way' ∨ e.text ≠ "" ↔ way.Even way' := by simp [hempty]
      rw [hcase, Way.Even]
      by_cases hway : way = .file <;> by_cases hway' : way' = .file
      · simp [hway, hway']
      · simp [hway, hway', hnone hempty, hform way' (Or.inl hway')]
      · simp [hway, hway', hnone hempty, hform way (Or.inl hway)]
      · simp [hway, hway', hform way (Or.inl hway), hform way' (Or.inl hway')]
    · exact iff_of_true ((hform way (Or.inr hempty)).trans (hform way' (Or.inr hempty)).symm)
        (Or.inr hempty)
  · have hne : e.text ≠ "" := fun hempty => he (by simp [Relative, hempty])
    rw [World.join_of_not_relative _ he, World.join_of_not_relative _ he]
    exact iff_of_true rfl (Or.inr hne)

/-- Behind a current directory that is no text, what is shown leads elsewhere in one way only. -/
theorem absolute?_shown_ne (hcwd : w.cwdPath.isText = false) (hway : way = .search)
    (hway' : way' ≠ .search) {e : Path} (he : Relative e) :
    Path.absolute? w.cwdPath ((way.dir w).join e).shown ≠
      Path.absolute? w.cwdPath ((way'.dir w).join e).shown := by
  intro hsame
  have hroot : ((way.dir w).join e).shown.isAbsolute = true := by
    have hfull : ((way.dir w).join e).isAbsolute = true := by
      rw [World.isAbsolute_join _ he, hway]
      exact World.isAbsolute_cwdPath w
    exact beq_iff_eq.2 (Path.relative_shown_iff.2 (eq_of_beq hfull))
  obtain ⟨q, hq⟩ := Path.exists_absolute? w.cwdPath (World.text_ne_of_isAbsolute hroot)
  have htext : q.isText = true := by
    rw [World.isText_absolute? hq, hroot, Bool.true_or, Bool.true_and]
    exact World.isText_pieces (Path.isText_shown _)
  have hshown : Relative e.shown := mt Path.relative_shown_iff.1 he
  have hbare : ((way'.dir w).join e).shown.isAbsolute = false := by
    rw [Path.shown_join (Way.isText_dir_of_ne hway'), World.isAbsolute_join _ hshown]
    exact Way.isAbsolute_dir_of_ne hway'
  rw [World.isText_absolute? (hsame ▸ hq), hbare, hcwd] at htext
  exact absurd htext (by simp)

/-- What is shown behind the current directory has one absolute form whatever the way, unless it is
nothing and one way leaves the directory out, or the directory itself does not show. -/
theorem absolute?_shown_eq_iff (h : w.Hosts) (e : Path) :
    Path.absolute? w.cwdPath ((way.dir w).join e).shown =
        Path.absolute? w.cwdPath ((way'.dir w).join e).shown ↔
      (way.Even way' ∨ e.text ≠ "") ∧ (Way.Readable w way way' ∨ e.isAbsolute = true) := by
  by_cases he : Relative e
  · have hbare : e.isAbsolute = false := by simpa [Path.isAbsolute] using he
    by_cases hreadable : Way.Readable w way way'
    · rw [and_iff_left (Or.inl hreadable)]
      rcases hreadable.eq_or with rfl | ⟨htext, htext'⟩
      · exact iff_of_true rfl (Or.inl Iff.rfl)
      · rw [Path.shown_join htext, Path.shown_join htext', ne_eq,
          ← Path.text_shown_eq_empty_iff]
        exact absolute?_join_eq_iff h e.shown
    · refine iff_of_false (fun hsame => ?_) (by simp [hreadable, hbare])
      obtain ⟨hcwd, hodd⟩ := not_or.1 hreadable
      rw [Bool.not_eq_true] at hcwd
      by_cases hway : way = .search
      · exact absolute?_shown_ne hcwd hway (fun hway' => hodd (iff_of_true hway hway')) he hsame
      · have hway' : way' = .search := by
          by_contra hnot
          exact hodd (iff_of_false hway hnot)
        exact absolute?_shown_ne hcwd hway' hway he hsame.symm
  · have hne : e.text ≠ "" := fun hempty => he (by simp [Relative, hempty])
    have hroot : e.isAbsolute = true := by simpa [Path.isAbsolute, Relative] using he
    rw [World.join_of_not_relative _ he, World.join_of_not_relative _ he]
    exact iff_of_true rfl ⟨Or.inr hne, Or.inr hroot⟩

/-- A classpath entry that no directory is put in front of: a coordinate or an absolute path. -/
def Fixed (home : Option Path) (text : String) : Prop :=
  Coordinate.spells text = true ∨ (expandHome home text).isAbsolute = true

/-- A configured classpath entry is the same whatever the way, unless it is the empty text and one
way leaves the directory out, or the directory is put in front of it and does not show. -/
theorem entry_twins_iff (h : w.Hosts) {home : Option Path} (hhome : HomeNamed home)
    (text : String) :
    ClasspathEntry.Twins w.cwdPath
        (ClasspathEntry.parse (Layout.placeEntry home (way.dir w) text))
        (ClasspathEntry.parse (Layout.placeEntry home (way'.dir w) text)) ↔
      (way.Even way' ∨ text ≠ "") ∧ (Way.Readable w way way' ∨ Fixed home text) := by
  rw [Layout.parse_placeEntry hhome, Layout.parse_placeEntry hhome, Fixed]
  split
  next hspells =>
      obtain ⟨-, -, c, hc⟩ := Coordinate.spells_iff.1 hspells
      rw [ClasspathEntry.parse_eq_artifact_iff.2 ⟨hspells, hc⟩]
      refine iff_of_true (.artifact c) ⟨Or.inr ?_, Or.inr (Or.inl hspells)⟩
      rintro rfl
      exact absurd hspells (by decide)
  next hspells =>
      have hpaths : ∀ {p q : Path}, ClasspathEntry.Twins w.cwdPath (.path p) (.path q) ↔
          Path.absolute? w.cwdPath p = Path.absolute? w.cwdPath q :=
        ⟨fun htwins => by cases htwins; assumption, .path⟩
      rw [hpaths, ne_eq, ← text_expandHome_eq_empty_iff hhome, or_iff_right hspells]
      exact absolute?_shown_eq_iff h _

/-! ### Sources -/

/-- The same configured or default source entry, seen in two ways. -/
def SameEntry (w : World) (way way' : Way) (config : ProjectConfig) (p q : Path) : Prop :=
  ∃ e ∈ config.sourceEntries, (way.Even way' ∨ e ≠ "") ∧
    p = way.dir w / Path.ofText e ∧ q = way'.dir w / Path.ofText e

theorem text_ofText_ne_iff {e : String} : (Path.ofText e).text ≠ "" ↔ e ≠ "" :=
  not_congr Octets.ofText_eq_empty_iff

theorem SameEntry.twins (h : w.Hosts) {config : ProjectConfig}
    (hroom : ∀ e ∈ config.sourceEntries, w.Roomy (.ofText e)) {p q : Path}
    (hsame : SameEntry w way way' config p q) : Twins w p q := by
  obtain ⟨e, he, hcase, rfl, rfl⟩ := hsame
  exact (way.here w).twins (way'.here w) (entryNames_cwd h) h.standing (hroom e he)
    (hcase.imp Way.even_iff.1 text_ofText_ne_iff.2)

theorem ne_empty_of_pathExists {e : String}
    (h : w.pathExists (Way.file.dir w / Path.ofText e) = true) : e ≠ "" := by
  rintro rfl
  exact absurd (show false = true from h) (by decide)

/-- A text that leads to something both ways is not empty, unless both ways treat it alike. -/
theorem even_or_ne_empty {e : String} (hthere : w.pathExists (way.dir w / Path.ofText e) = true)
    (hthere' : w.pathExists (way'.dir w / Path.ofText e) = true) : way.Even way' ∨ e ≠ "" := by
  rw [or_iff_not_imp_left, Way.Even]
  intro hodd
  by_cases hway : way = .file
  · subst hway
    exact ne_empty_of_pathExists hthere
  · by_cases hway' : way' = .file
    · subst hway'
      exact ne_empty_of_pathExists hthere'
    · exact absurd (iff_of_false hway hway') hodd

/-- A text leads to the same whatever the way, but for the empty one. -/
theorem pathExists_iff (h : w.Hosts) {e : String} (hroom : w.Roomy (.ofText e)) :
    w.pathExists (way.dir w / Path.ofText e) = true ↔
      w.pathExists ((⟨"."⟩ : Path) / Path.ofText e) = true ∧ (way = .file → e ≠ "") := by
  by_cases hcase : way = .file ∧ e = ""
  · obtain ⟨rfl, rfl⟩ := hcase
    exact iff_of_false (fun hthere => absurd rfl (ne_empty_of_pathExists hthere))
      fun hboth => hboth.2 rfl rfl
  · have hagree : ((way.dir w).text = "" ↔ (Way.directory.dir w).text = "") ∨ e ≠ "" := by
      by_cases hway : way = .file
      · exact Or.inr fun hempty => hcase ⟨hway, hempty⟩
      · exact Or.inl (Way.even_iff.1 (iff_of_false hway (by decide)))
    have hsame : w.pathExists (way.dir w / Path.ofText e) =
        w.pathExists ((⟨"."⟩ : Path) / Path.ofText e) :=
      ((way.here w).twins (Way.directory.here w) (entryNames_cwd h) h.standing hroom
        (hagree.imp_right text_ofText_ne_iff.2)).pathExists_eq
    rw [hsame, iff_self_and]
    exact fun _ hway hempty => hcase ⟨hway, hempty⟩

/-- The sources of a project are the same entries whatever the way. -/
theorem sameEntries (h : w.Hosts) {config : ProjectConfig}
    (hroom : ∀ e ∈ config.sourceEntries, w.Roomy (.ofText e)) {around : Surroundings}
    {layout layout' : Layout}
    (hlayout : Layout.resolve w around config (way.dir w) = .ok layout)
    (hlayout' : Layout.resolve w around config (way'.dir w) = .ok layout') :
    List.Forall₂ (SameEntry w way way' config) layout.sources layout'.sources := by
  rcases Layout.sources_of_resolve hlayout with
    ⟨entries, hconfigured, hsources, hthere⟩ | ⟨hnone, hsources⟩
  · obtain ⟨entries', hconfigured', hsources', hthere'⟩ | ⟨hnone, -⟩ :=
      Layout.sources_of_resolve hlayout'
    · obtain rfl : entries = entries' :=
        Option.some.inj (hconfigured.symm.trans hconfigured')
      have hentries : config.sourceEntries = entries := by
        rw [ProjectConfig.sourceEntries, hconfigured, Option.getD_some]
      rw [hsources, hsources', List.forall₂_map_left_iff, List.forall₂_map_right_iff,
        List.forall₂_same]
      exact fun e he =>
        ⟨e, hentries ▸ he, even_or_ne_empty (hthere e he) (hthere' e he), rfl, rfl⟩
    · exact absurd (hconfigured.symm.trans hnone) (by simp)
  · obtain ⟨entries', hconfigured', -⟩ | ⟨-, hsources'⟩ := Layout.sources_of_resolve hlayout'
    · exact absurd (hconfigured'.symm.trans hnone) (by simp)
    · have hentries : config.sourceEntries = Layout.defaultSources := by
        rw [ProjectConfig.sourceEntries, hnone, Option.getD_none]
      rw [hsources, hsources']
      refine List.rel_filter (fun p q hpq => ?_) ?_
      · exact Bool.eq_iff_iff.1 (hpq.twins h hroom).isDir_eq
      · rw [List.forall₂_map_left_iff, List.forall₂_map_right_iff, List.forall₂_same]
        intro e he
        have hspelled : (⟨e⟩ : Path) = .ofText e := (ofText_default.2.2 e he).symm
        refine ⟨e, hentries ▸ he, Or.inr ?_, congrArg (way.dir w).join hspelled,
          congrArg (way'.dir w).join hspelled⟩
        rintro rfl
        exact absurd he (by decide)

/-! ### Loaded projects -/

/-- A project is loaded if its configuration can be used and its source entries exist.  Told of the
file, a command takes no empty entry for the directory. -/
theorem exists_load_iff (h : w.Hosts)
    (hroom : ∀ config, Configured w config → ∀ e ∈ config.sourceEntries, w.Roomy (.ofText e)) :
    (∃ p, load w env (way.on settings) = .ok p) ↔ ∃ config, Configured w config ∧
      ∀ entries, config.project.sources = some entries → ∀ e ∈ entries,
        w.pathExists ((⟨"."⟩ : Path) / Path.ofText e) = true ∧ (way = .file → e ≠ "") := by
  have hlayout : ∀ config, Configured w config →
      ((∃ layout, Layout.resolve w env.surroundings config (way.dir w) = .ok layout) ↔
        ∀ entries, config.project.sources = some entries → ∀ e ∈ entries,
          w.pathExists ((⟨"."⟩ : Path) / Path.ofText e) = true ∧ (way = .file → e ≠ "")) := by
    intro config hconfigured
    rw [Layout.exists_resolve_iff]
    refine forall₂_congr fun entries hentries => forall₂_congr fun e he => pathExists_iff h ?_
    refine hroom config hconfigured e ?_
    rwa [ProjectConfig.sourceEntries, hentries, Option.getD_some]
  constructor
  · rintro ⟨p, hp⟩
    obtain ⟨hconfigured, hresolve, -⟩ := (load_eq_ok_iff h way).1 hp
    exact ⟨p.config, hconfigured, (hlayout p.config hconfigured).1 ⟨p.layout, hresolve⟩⟩
  · rintro ⟨config, hconfigured, hthere⟩
    obtain ⟨layout, hresolve⟩ := (hlayout config hconfigured).2 hthere
    exact ⟨⟨way.dir w, config, layout, .resolve config.toolchain env.surroundings⟩,
      (load_eq_ok_iff h way).2 ⟨hconfigured, hresolve, rfl, rfl⟩⟩

/-- Two projects with the same places, once these are made absolute. -/
structure SameLayout (cwd : Path) (p p' : Project) : Prop where
  sources : p.layout.sources.map (Path.absolute? cwd) = p'.layout.sources.map (Path.absolute? cwd)
  target : Path.absolute? cwd p.layout.target = Path.absolute? cwd p'.layout.target
  dependencies : List.Forall₂ (ClasspathEntry.Twins cwd) p.dependencies p'.dependencies
  runtime : List.Forall₂ (ClasspathEntry.Twins cwd) (p.layout.runtime.map ClasspathEntry.parse)
    (p'.layout.runtime.map ClasspathEntry.parse)
  testRoot : Path.absolute? cwd p.layout.testRoot = Path.absolute? cwd p'.layout.testRoot

theorem entries_twins_iff (h : w.Hosts) {home : Option Path} (hhome : HomeNamed home)
    (texts : List String) :
    List.Forall₂ (ClasspathEntry.Twins w.cwdPath)
        ((texts.map (Layout.placeEntry home (way.dir w))).map ClasspathEntry.parse)
        ((texts.map (Layout.placeEntry home (way'.dir w))).map ClasspathEntry.parse) ↔
      (way.Even way' ∨ "" ∉ texts) ∧
        (Way.Readable w way way' ∨ ∀ text ∈ texts, Fixed home text) := by
  have hnot : (∀ text ∈ texts, text ≠ "") ↔ "" ∉ texts :=
    ⟨fun hall hin => hall "" hin rfl, fun hin text htext hempty => hin (hempty ▸ htext)⟩
  have hcommon : ∀ {b : Prop} {P : String → Prop},
      (∀ text ∈ texts, b ∨ P text) ↔ b ∨ ∀ text ∈ texts, P text := by
    intro b P
    by_cases hb : b <;> simp [hb]
  rw [List.map_map, List.map_map, List.forall₂_map_left_iff, List.forall₂_map_right_iff,
    List.forall₂_same]
  simp only [Function.comp_apply, entry_twins_iff h hhome]
  rw [forall₂_and, hcommon, hcommon, hnot]

theorem target_ne_empty {config : ProjectConfig} (hconfigured : Configured w config) :
    config.project.target.getD Layout.defaultTarget ≠ "" := by
  obtain ⟨content, -, hof⟩ := hconfigured
  have hsound := (Config.sound_of_ofText hof).1
  cases htarget : config.project.target with
  | none => rw [Option.getD_none]; decide
  | some target =>
      rintro rfl
      exact hsound.placed "" htarget fun c hc => by simp at hc

/-- A project has the same configuration and tools whatever the way, and the same places unless one
way leaves the directory out and one of these texts is empty, or one way shows a directory that is
no text in front of an entry. -/
theorem sameLayout_iff (h : w.Hosts)
    (hroom : ∀ config, Configured w config → ∀ e ∈ config.sourceEntries, w.Roomy (.ofText e))
    {p p' : Project} (hp : load w env (way.on settings) = .ok p)
    (hp' : load w env (way'.on settings) = .ok p') :
    p.config = p'.config ∧ p.tools = p'.tools ∧ (SameLayout w.cwdPath p p' ↔
      (way.Even way' ∨ "" ∉ p.config.test.sources.getD Layout.defaultTestRoot ::
        (p.config.project.dependencies ++ p.config.runtime)) ∧
      (Way.Readable w way way' ∨
        ∀ text ∈ p.config.project.dependencies ++ p.config.runtime, Fixed env.home text)) := by
  obtain ⟨hconfig, htools⟩ := eq_of_loads h hp hp'
  obtain ⟨hconfigured, hlayout, -⟩ := (load_eq_ok_iff h way).1 hp
  obtain ⟨-, hlayout', -⟩ := (load_eq_ok_iff h way').1 hp'
  rw [← hconfig] at hlayout'
  refine ⟨hconfig, htools, ?_⟩
  obtain ⟨hdependencies, hruntime⟩ := Layout.entries_of_resolve hlayout
  obtain ⟨hdependencies', hruntime'⟩ := Layout.entries_of_resolve hlayout'
  obtain ⟨htarget, htest⟩ := Layout.roots_of_resolve hlayout
  obtain ⟨htarget', htest'⟩ := Layout.roots_of_resolve hlayout'
  have hhome : HomeNamed env.surroundings.home := env.homeNamed
  have hsources : p.layout.sources.map (Path.absolute? w.cwdPath) =
      p'.layout.sources.map (Path.absolute? w.cwdPath) := by
    rw [← List.forall₂_eq_eq_eq, List.forall₂_map_left_iff, List.forall₂_map_right_iff]
    refine (sameEntries h (hroom _ hconfigured) hlayout hlayout').imp fun a b hab => ?_
    exact (hab.twins h (hroom _ hconfigured)).absolute
  have hdeps := @entries_twins_iff w way way' h _ hhome p.config.project.dependencies
  have hruns := @entries_twins_iff w way way' h _ hhome p.config.runtime
  have hplace := fun e => @absolute?_join_eq_iff w way way' h e
  rw [← hdependencies, ← hdependencies'] at hdeps
  rw [← hruntime, ← hruntime'] at hruns
  have hroot := hplace (.ofText (p.config.test.sources.getD Layout.defaultTestRoot))
  have hout := (hplace (.ofText (p.config.project.target.getD Layout.defaultTarget))).2
    (Or.inr (text_ofText_ne_iff.2 (target_ne_empty hconfigured)))
  rw [show (way.dir w).join _ = p.layout.testRoot from htest.symm,
    show (way'.dir w).join _ = p'.layout.testRoot from htest'.symm] at hroot
  rw [show (way.dir w).join _ = p.layout.target from htarget.symm,
    show (way'.dir w).join _ = p'.layout.target from htarget'.symm] at hout
  have hnot : ∀ {text : String} {texts : List String},
      "" ∉ text :: texts ↔ text ≠ "" ∧ "" ∉ texts := by simp [eq_comm]
  rw [text_ofText_ne_iff] at hroot
  rw [hnot, List.mem_append, not_or, or_and_left, or_and_left, List.forall_mem_append, or_and_left]
  constructor
  · intro hsame
    obtain ⟨hdependency, hshown⟩ := hdeps.1 hsame.dependencies
    obtain ⟨hruntimes, hshown'⟩ := hruns.1 hsame.runtime
    exact ⟨⟨hroot.1 hsame.testRoot, hdependency, hruntimes⟩, hshown, hshown'⟩
  · rintro ⟨⟨htestRoot, hdependency, hruntimes⟩, hshown, hshown'⟩
    exact ⟨hsources, hout, hdeps.2 ⟨hdependency, hshown⟩, hruns.2 ⟨hruntimes, hshown'⟩,
      hroot.2 htestRoot⟩

end Cli

end ClojureBuild
