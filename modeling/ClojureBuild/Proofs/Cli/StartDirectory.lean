import ClojureBuild.Cli.Project
import ClojureBuild.Proofs.Config.Placement
import ClojureBuild.Proofs.Repository
import ClojureBuild.Proofs.World.CurrentDirectory
import Mathlib.Data.List.Infix
/-!
What a project is does not depend on the directory that a command is started from; where its tools
are does.

From every directory at or below that of the project the same configuration is found, and every
place of the layout has the same absolute form.  Configured tools and the configured repository are
seen from the directory of the start instead of that of the project, so they are the same from two
directories exactly when they are absolute.
-/

namespace ClojureBuild

open World

namespace Cli

variable {w : World} {d c c₁ c₂ : Location} {env : Environment} {settings : Settings}

/-! ### Finding the project -/

/-- A directory to start from, at or below that of a project: the first configuration upward is the
one of the project. -/
structure StartsIn (w : World) (d c : Location) : Prop where
  below : d <:+ c
  names : ∀ name ∈ c, Path.IsName name
  found : w.pathExists ((⟨textOf d⟩ : Path) / Config.fileName) = true
  nearest : ∀ up, d <:+ up → up <:+ c → up ≠ d →
    w.pathExists ((⟨textOf up⟩ : Path) / Config.fileName) = false

theorem startsIn_iff :
    StartsIn w d c ↔ d <:+ c ∧ (∀ name ∈ c, Path.IsName name) ∧
      w.pathExists ((⟨textOf d⟩ : Path) / Config.fileName) = true ∧
        ∀ up ∈ c.tails, d <:+ up → up ≠ d →
          w.pathExists ((⟨textOf up⟩ : Path) / Config.fileName) = false := by
  simp only [List.mem_tails]
  exact ⟨fun h => ⟨h.below, h.names, h.found, fun up hc hd => h.nearest up hd hc⟩,
    fun h => ⟨h.1, h.2.1, h.2.2.1, fun up hd hc => h.2.2.2 up hc hd⟩⟩

instance : Decidable (StartsIn w d c) := decidable_of_iff _ startsIn_iff.symm

theorem isAbsolute_file (loc : Location) :
    ((⟨textOf loc⟩ : Path) / Config.fileName).isAbsolute = true :=
  Path.isAbsolute_div_of_left (isAbsolute_textOf loc) _

theorem findRoot?_enter (h : StartsIn w d c) :
    Project.findRoot? (w.enter c) (w.enter c).cwdPath = some ⟨textOf d⟩ := by
  have hall : ∀ up, (w.enter c).pathExists ((⟨textOf up⟩ : Path) / Config.fileName) =
      w.pathExists ((⟨textOf up⟩ : Path) / Config.fileName) :=
    fun up => pathExists_enter c (isAbsolute_file up)
  have hfind : ∀ loc, d <:+ loc → loc <:+ c →
      (loc.tails.map fun up => (⟨textOf up⟩ : Path)).find?
        (fun dir => (w.enter c).pathExists (dir / Config.fileName)) = some ⟨textOf d⟩ := by
    intro loc
    induction loc with
    | nil =>
        intro hd _
        obtain rfl := List.suffix_nil.1 hd
        exact List.find?_cons_of_pos ((hall []).trans h.found)
    | cons name up ih =>
        intro hd hc
        rcases List.suffix_cons_iff.1 hd with rfl | hup
        · exact List.find?_cons_of_pos ((hall _).trans h.found)
        · have hlonger : name :: up ≠ d := by
            rintro rfl
            exact absurd hup.length_le (Nat.not_succ_le_self _)
          have hnone := (hall _).trans (h.nearest _ hd hc hlonger)
          exact (List.find?_cons_of_neg (by simp [hnone])).trans
            (ih hup ((List.suffix_cons name up).trans hc))
  rw [Project.findRoot?, show (w.enter c).cwdPath = ⟨textOf c⟩ from rfl, ancestors_textOf h.names]
  exact hfind c h.below List.suffix_rfl

/-! ### Loading -/

theorem configLoad_enter (loc : Location) {dir : Path} (hdir : dir.isAbsolute = true) :
    Config.load (w.enter loc) dir = Config.load w dir := by
  rw [Config.load, Config.load, readText_enter loc (Path.isAbsolute_div_of_left hdir _)]

theorem placeSources_enter (loc : Location) {dir : Path} (hdir : dir.isAbsolute = true)
    (entries : List String) :
    Layout.placeSources (w.enter loc) dir entries = Layout.placeSources w dir entries := by
  induction entries with
  | nil => rfl
  | cons entry rest ih =>
      have hroot : (dir / Path.ofText entry).isAbsolute = true :=
        Path.isAbsolute_join_of_left hdir _
      rw [Layout.placeSources, Layout.placeSources, ih, pathExists_enter loc hroot]

/-- The layout of a project in an absolute directory is the same from everywhere. -/
theorem layout_enter (loc : Location) {dir : Path} (hdir : dir.isAbsolute = true)
    (around : Surroundings) (config : ProjectConfig) :
    Layout.resolve (w.enter loc) around config dir = Layout.resolve w around config dir := by
  have hfilter : (Layout.defaultSources.map fun (entry : String) => dir / entry).filter
      (w.enter loc).isDir =
        (Layout.defaultSources.map fun (entry : String) => dir / entry).filter w.isDir := by
    refine List.filter_congr fun p hp => ?_
    obtain ⟨entry, -, rfl⟩ := List.mem_map.1 hp
    exact isDir_enter loc (Path.isAbsolute_div_of_left hdir entry)
  rw [Layout.resolve, Layout.resolve, hfilter]
  simp only [placeSources_enter loc hdir]

/-- From everywhere in a project the project in its directory is loaded. -/
theorem load_enter (h : StartsIn w d c) (hconfig : settings.config = none) :
    Project.load (w.enter c) env settings = (do
      let config ← (Config.load w ⟨textOf d⟩).mapError CommandError.config
      let around := env.surroundings
      let layout ← (Layout.resolve w around config ⟨textOf d⟩).mapError CommandError.config
      return ⟨⟨textOf d⟩, config, layout, .resolve config.toolchain around⟩) := by
  rw [Project.load, Project.loadConfig, hconfig]
  simp only [findRoot?_enter h, configLoad_enter c (isAbsolute_textOf d)]
  cases Config.load w ⟨textOf d⟩ with
  | error e => rfl
  | ok config =>
      simp only [Task.mapError_ok, Task.ok_bind, pure, Except.pure,
        layout_enter c (isAbsolute_textOf d)]

/-! ### Places of the layout -/

/-- Seen from two worlds the places of a layout have the same absolute forms. -/
structure LayoutAlike (w₁ w₂ : World) (l : Layout) : Prop where
  sources : ∀ q ∈ l.sources, absolutePath w₁ q = absolutePath w₂ q
  target : absolutePath w₁ l.target = absolutePath w₂ l.target
  entries : ∀ entry ∈ l.dependencies ++ l.runtime, ∀ q, ClasspathEntry.parse entry = .path q →
    absolutePath w₁ q = absolutePath w₂ q
  testRoot : absolutePath w₁ l.testRoot = absolutePath w₂ l.testRoot

theorem absolutePath_enter {p : Path} (hp : p.isAbsolute = true) (loc loc' : Location) :
    absolutePath (w.enter loc) p = absolutePath (w.enter loc') p := by
  rw [absolutePath, absolutePath, Path.absolute?_of_isAbsolute hp]

theorem isAbsolute_of_placeSources {dir : Path} (hdir : dir.isAbsolute = true)
    {entries : List String} {sources : List Path}
    (h : Layout.placeSources w dir entries = .ok sources) :
    ∀ q ∈ sources, q.isAbsolute = true := by
  induction entries generalizing sources with
  | nil =>
      cases h
      exact fun q hq => absurd hq List.not_mem_nil
  | cons entry rest ih =>
      rw [Layout.placeSources] at h
      split at h
      · obtain ⟨others, hothers, hsources⟩ := Task.exists_of_bind_eq_ok h
        obtain rfl := Except.ok.inj hsources
        intro q hq
        rcases List.mem_cons.1 hq with rfl | hq
        · exact Path.isAbsolute_join_of_left hdir (.ofText entry)
        · exact ih hothers q hq
      · exact absurd h (by simp)

/-- A classpath entry that is placed in an absolute directory is a coordinate or absolute. -/
theorem isAbsolute_of_placeEntry {home : Option Path} {dir q : Path}
    (hdir : dir.isAbsolute = true) {entry : String}
    (h : ClasspathEntry.parse (Layout.placeEntry home dir entry) = .path q) :
    q.isAbsolute = true := by
  rw [Layout.placeEntry] at h
  split at h
  next hspells => simp [(ClasspathEntry.parse_eq_path_iff.1 h).1] at hspells
  · obtain ⟨-, rfl⟩ := ClasspathEntry.parse_eq_path_iff.1 h
    have hroot := Path.isAbsolute_join_of_left hdir (expandHome home entry)
    exact beq_iff_eq.2 (Path.relative_shown_iff.2 (eq_of_beq hroot))

/-- A layout has absolute sources, and the rest of it is placed in the project directory. -/
theorem exists_sources_of_resolve {dir : Path} (hdir : dir.isAbsolute = true)
    {around : Surroundings} {config : ProjectConfig} {layout : Layout}
    (h : Layout.resolve w around config dir = .ok layout) :
    ∃ sources : List Path, (∀ q ∈ sources, q.isAbsolute = true) ∧ layout = {
      sources
      target := dir / Path.ofText (config.project.target.getD Layout.defaultTarget)
      dependencies := config.project.dependencies.map (Layout.placeEntry around.home dir)
      runtime := config.runtime.map (Layout.placeEntry around.home dir)
      testRoot := dir / Path.ofText (config.test.sources.getD Layout.defaultTestRoot) } := by
  rw [Layout.resolve] at h
  split at h
  · obtain ⟨sources, hsources, hlayout⟩ := Task.exists_of_bind_eq_ok h
    exact ⟨sources, isAbsolute_of_placeSources hdir hsources, (Except.ok.inj hlayout).symm⟩
  · refine ⟨_, fun q hq => ?_, (Except.ok.inj h).symm⟩
    obtain ⟨entry, -, rfl⟩ := List.mem_map.1 (List.mem_filter.1 hq).1
    exact Path.isAbsolute_div_of_left hdir entry

theorem layoutAlike_of_resolve {dir : Path} (hdir : dir.isAbsolute = true)
    {around : Surroundings} {config : ProjectConfig} {layout : Layout}
    (h : Layout.resolve w around config dir = .ok layout) (loc loc' : Location) :
    LayoutAlike (w.enter loc) (w.enter loc') layout := by
  obtain ⟨sources, hsources, rfl⟩ := exists_sources_of_resolve hdir h
  refine ⟨fun q hq => absolutePath_enter (hsources q hq) loc loc',
    absolutePath_enter (Path.isAbsolute_join_of_left hdir _) loc loc',
    fun entry hentry q hq => absolutePath_enter ?_ loc loc',
    absolutePath_enter (Path.isAbsolute_join_of_left hdir _) loc loc'⟩
  rw [← List.map_append] at hentry
  obtain ⟨written, -, rfl⟩ := List.mem_map.1 hentry
  exact isAbsolute_of_placeEntry hdir hq

/-! ### Tools and the repository -/

/-- The external programs of a project, each with the text that is configured for it. -/
def Project.programs (p : Project) : List (Option String × Path) :=
  [(p.config.toolchain.java, p.tools.java), (p.config.toolchain.javac, p.tools.javac),
    (p.config.toolchain.scalac, p.tools.scalac), (p.config.toolchain.groovyc, p.tools.groovyc)]

/-- Seen from two worlds the programs that are configured by a path, and the repository, have the
same absolute forms. -/
structure ToolsAlike (env : Environment) (w₁ w₂ : World) (p : Project) : Prop where
  programs : ∀ one ∈ p.programs, ∀ text, one.1 = some text → '/' ∈ text.toList →
    absolutePath w₁ one.2 = absolutePath w₂ one.2
  repository : (p.repository env).bind (absolutePath w₁) = (p.repository env).bind (absolutePath w₂)

/-- What is configured for the programs and for the repository is absolute, with a leading `~/` read
as the home directory; and so is the home directory, where it is known, when no repository is
configured. -/
structure Anchored (env : Environment) (config : ToolSettings) : Prop where
  programs : ∀ text, some text ∈ [config.java, config.javac, config.scalac, config.groovyc] →
    '/' ∈ text.toList → (expandHome env.home text).isAbsolute = true
  repository : match config.repository with
    | some text => text = "" ∨ (expandHome env.home text).isAbsolute = true
    | none => ∀ home, env.home = some home → home.isAbsolute = true

section

variable {p : Project}

theorem program_eq (htools : p.tools = .resolve p.config.toolchain env.surroundings)
    {one : Option String × Path} (hone : one ∈ p.programs) {text : String}
    (htext : one.1 = some text) : one.2 = expandHome env.home text := by
  rw [Project.programs, htools] at hone
  simp only [List.mem_cons, List.not_mem_nil, or_false] at hone
  rcases hone with rfl | rfl | rfl | rfl <;> simp_all [Tools.resolve, Environment.surroundings]

theorem exists_program {text : String} (htext : some text ∈ [p.config.toolchain.java,
      p.config.toolchain.javac, p.config.toolchain.scalac, p.config.toolchain.groovyc]) :
    ∃ one ∈ p.programs, one.1 = some text := by
  have hfirst : p.programs.map (·.1) = [p.config.toolchain.java, p.config.toolchain.javac,
    p.config.toolchain.scalac, p.config.toolchain.groovyc] := rfl
  rw [← hfirst] at htext
  obtain ⟨one, hone, hsame⟩ := List.mem_map.1 htext
  exact ⟨one, hone, hsame⟩

theorem repository_eq (htools : p.tools = .resolve p.config.toolchain env.surroundings) :
    p.repository env = match p.config.toolchain.repository with
      | some text => .ok (expandHome env.home text)
      | none => Classpath.defaultRepository env.home := by
  rw [Project.repository, htools, Tools.resolve]
  cases p.config.toolchain.repository <;> rfl

theorem isAbsolute_userRepository (home : Path) :
    (home / ".m2" / "repository").isAbsolute = home.isAbsolute :=
  @Path.isAbsolute_foldl [".m2", "repository"] home (by decide)

variable (hnames₁ : ∀ name ∈ c₁, Path.IsName name) (hnames₂ : ∀ name ∈ c₂, Path.IsName name)

include hnames₁ hnames₂

theorem expandHome_alike_iff {text : String} :
    absolutePath (w.enter c₁) (expandHome env.home text) =
        absolutePath (w.enter c₂) (expandHome env.home text) ↔
      c₁ = c₂ ∨ text = "" ∨ (expandHome env.home text).isAbsolute = true := by
  rw [absolutePath_enter_eq_iff hnames₁ hnames₂, or_comm (a := _ = true),
    text_expandHome_eq_empty_iff env.homeNamed]

theorem repository_alike_iff
    (htools : p.tools = .resolve p.config.toolchain env.surroundings) :
    (p.repository env).bind (absolutePath (w.enter c₁)) =
        (p.repository env).bind (absolutePath (w.enter c₂)) ↔
      c₁ = c₂ ∨ match p.config.toolchain.repository with
        | some text => text = "" ∨ (expandHome env.home text).isAbsolute = true
        | none => ∀ home, env.home = some home → home.isAbsolute = true := by
  rw [repository_eq htools]
  cases p.config.toolchain.repository with
  | some text => exact expandHome_alike_iff hnames₁ hnames₂
  | none =>
      have hfails : ∀ look look' : Path → Except BuildError Path,
          (Classpath.defaultRepository none).bind look =
            (Classpath.defaultRepository none).bind look' := fun _ _ => rfl
      have hplace : ∀ (home : Path) (look : Path → Except BuildError Path),
          (Classpath.defaultRepository (some home)).bind look =
            look (home / ".m2" / "repository") := fun _ _ => rfl
      cases hhome : env.home with
      | none => exact iff_of_true (hfails _ _) (Or.inr fun home hsome => absurd hsome (by simp))
      | some home =>
          have hne : (home / ".m2" / "repository").text ≠ "" :=
            @text_descend_ne_empty _ (env.homeNamed home hhome) [".m2", "repository"] (by decide)
          simp only [hplace, absolutePath_enter_eq_iff hnames₁ hnames₂, isAbsolute_userRepository,
            hne, or_false, Option.some.injEq, forall_eq']

/-- The tools are seen alike from two directories exactly when they are configured absolutely. -/
theorem toolsAlike_iff (htools : p.tools = .resolve p.config.toolchain env.surroundings) :
    ToolsAlike env (w.enter c₁) (w.enter c₂) p ↔ c₁ = c₂ ∨ Anchored env p.config.toolchain := by
  have hrepository := repository_alike_iff (w := w) hnames₁ hnames₂ htools
  constructor
  · intro h
    by_cases hsame : c₁ = c₂
    · exact Or.inl hsame
    · refine Or.inr ⟨fun text htext hslash => ?_, (hrepository.1 h.repository).resolve_left hsame⟩
      obtain ⟨one, hone, hconfigured⟩ := exists_program htext
      have halike := h.programs one hone text hconfigured hslash
      rw [program_eq htools hone hconfigured] at halike
      rcases (expandHome_alike_iff hnames₁ hnames₂).1 halike with hsame' | rfl | habsolute
      · exact absurd hsame' hsame
      · exact absurd hslash (by simp)
      · exact habsolute
  · intro h
    refine ⟨fun one hone text hconfigured hslash => ?_,
      hrepository.2 (h.imp_right fun hanchored => hanchored.repository)⟩
    rw [program_eq htools hone hconfigured]
    refine (expandHome_alike_iff hnames₁ hnames₂).2 (h.imp_right fun hanchored => Or.inr ?_)
    refine hanchored.programs text ?_ hslash
    rw [← hconfigured]
    exact List.mem_map_of_mem (f := Prod.fst) hone

/-- A coordinate leads to one file from two directories exactly when its file is there and the
repository is absolute. -/
theorem resolveArtifact_iff {entry : String} {k : Coordinate}
    (hk : ClasspathEntry.parse entry = .artifact k) (repository : Path) :
    (∃ file, Classpath.resolveArtifact (w.enter c₁) repository k = .ok file ∧
        Classpath.resolveArtifact (w.enter c₂) repository k = .ok file) ↔
      (w.enter c₁).isFile (k.repositoryPath repository) = true ∧
        (c₁ = c₂ ∨ repository.isAbsolute = true) := by
  have hplace := isAbsolute_repositoryPath hk repository
  rw [Classpath.resolveArtifact, Classpath.resolveArtifact]
  generalize k.repositoryPath repository = q at hplace ⊢
  rw [← hplace]
  constructor
  · rintro ⟨file, h₁, h₂⟩
    split at h₁
    next hfile =>
        refine ⟨hfile, ?_⟩
        split at h₂
        · rw [absolutePath_eq_ok_iff] at h₁ h₂
          by_cases hq : q.isAbsolute = true
          · exact Or.inr hq
          · exact Or.inl (eq_of_absolute? hnames₁ hnames₂ (Bool.eq_false_iff.2 hq) h₁ h₂)
        · exact absurd h₂ (by simp)
    · exact absurd h₁ (by simp)
  · rintro ⟨hfile, hsame⟩
    obtain ⟨loc, node, hstat, -⟩ := isFile_eq_true_iff.1 hfile
    obtain ⟨file, hform⟩ := Path.exists_absolute? (w.enter c₁).cwdPath
      (askable_of_stat hstat).nonempty
    have h₁ := absolutePath_eq_ok_iff.2 hform
    rw [if_pos hfile]
    rcases hsame with rfl | habsolute
    · rw [if_pos hfile]
      exact ⟨file, h₁, h₁⟩
    · have hfile₂ : (w.enter c₂).isFile q = true := by
        rw [isFile_enter c₂ habsolute, ← isFile_enter c₁ habsolute, hfile]
      rw [if_pos hfile₂]
      exact ⟨file, h₁, (absolutePath_enter habsolute c₂ c₁).trans h₁⟩

end

/-! ### Two starts -/

/-- From all directories of a project the same project is loaded, and its layout is the same.  Its
tools and its repository are the same exactly when they are configured absolutely, and only then
does a coordinate lead to one file from both. -/
theorem load_alike_iff (h₁ : StartsIn w d c₁) (h₂ : StartsIn w d c₂)
    (hconfig : settings.config = none) :
    Project.load (w.enter c₁) env settings = Project.load (w.enter c₂) env settings ∧
      ∀ p, Project.load (w.enter c₁) env settings = .ok p →
        LayoutAlike (w.enter c₁) (w.enter c₂) p.layout ∧
        (ToolsAlike env (w.enter c₁) (w.enter c₂) p ↔
          c₁ = c₂ ∨ Anchored env p.config.toolchain) ∧
        ∀ repository, p.repository env = .ok repository →
          ∀ entry k, ClasspathEntry.parse entry = .artifact k →
            ((∃ file, Classpath.resolveArtifact (w.enter c₁) repository k = .ok file ∧
                Classpath.resolveArtifact (w.enter c₂) repository k = .ok file) ↔
              (w.enter c₁).isFile (k.repositoryPath repository) = true ∧
                (c₁ = c₂ ∨ repository.isAbsolute = true)) := by
  rw [load_enter h₁ hconfig, load_enter h₂ hconfig]
  refine ⟨rfl, fun p hp => ?_⟩
  obtain ⟨config, -, hp⟩ := Task.exists_of_bind_eq_ok hp
  obtain ⟨layout, hlayout, hp⟩ := Task.exists_of_bind_eq_ok hp
  obtain rfl := Except.ok.inj hp
  exact ⟨layoutAlike_of_resolve (isAbsolute_textOf d) (Task.mapError_eq_ok_iff.1 hlayout) c₁ c₂,
    toolsAlike_iff h₁.names h₂.names rfl,
    fun repository _ _ _ hk => resolveArtifact_iff h₁.names h₂.names hk repository⟩

/-- A project whose repository is configured beside its configuration, with an artifact in it. -/
def storeWorld : World :=
  let content := "[project]\nname = \"store\"\n\n[toolchain]\nrepository = \"m2\"\n"
  ⟨[(["p"], .dir 0), (["sub", "p"], .dir 0), (["kiln.toml", "p"], .file content.toUTF8 0 false),
    (["m2", "p"], .dir 0), (["g", "m2", "p"], .dir 0), (["a", "g", "m2", "p"], .dir 0),
    (["1", "a", "g", "m2", "p"], .dir 0),
    (["a-1.jar", "1", "a", "g", "m2", "p"], .file ByteArray.empty 0 false)], [], 0⟩

theorem load_alike_iff_relative :
    ∃ p k, Project.load (storeWorld.enter ["p"]) default default = .ok p ∧
      Project.load (storeWorld.enter ["sub", "p"]) default default = .ok p ∧
      ¬ ToolsAlike default (storeWorld.enter ["p"]) (storeWorld.enter ["sub", "p"]) p ∧
      p.repository default = .ok ⟨"m2"⟩ ∧ ClasspathEntry.parse "g:a:1" = .artifact k ∧
      Classpath.resolveArtifact (storeWorld.enter ["p"]) ⟨"m2"⟩ k = .ok ⟨"/p/m2/g/a/1/a-1.jar"⟩ ∧
      ¬ ∃ file, Classpath.resolveArtifact (storeWorld.enter ["p"]) ⟨"m2"⟩ k = .ok file ∧
        Classpath.resolveArtifact (storeWorld.enter ["sub", "p"]) ⟨"m2"⟩ k = .ok file := by
  have hstart : StartsIn storeWorld ["p"] ["p"] := by decide +kernel
  have hbelow : StartsIn storeWorld ["p"] ["sub", "p"] := by decide +kernel
  obtain ⟨hsame, halike⟩ :=
    @load_alike_iff storeWorld ["p"] ["p"] ["sub", "p"] default default hstart hbelow rfl
  have hstored : (Project.load (storeWorld.enter ["p"]) default default).toOption.any
      (fun p => p.config.toolchain.repository = some "m2" ∧
        (p.repository default).toOption = some ⟨"m2"⟩) = true := by
    decide +kernel
  cases hload : Project.load (storeWorld.enter ["p"]) default default with
  | error e => exact absurd hstored (by simp [hload, Except.toOption])
  | ok p =>
      rw [hload] at hstored
      obtain ⟨hconfigured, hstored⟩ := of_decide_eq_true hstored
      have hrepository : p.repository default = .ok ⟨"m2"⟩ := by
        cases hfound : p.repository default with
        | error e => simp [hfound, Except.toOption] at hstored
        | ok found =>
            rw [hfound] at hstored
            exact congrArg Except.ok (Option.some.inj hstored)
      obtain ⟨-, htools, hartifacts⟩ := halike p hload
      have hk : ClasspathEntry.parse "g:a:1" = .artifact ⟨"g", "a", "jar", none, "1"⟩ := by decide
      refine ⟨p, _, rfl, hsame ▸ hload, fun h => ?_, hrepository, hk, by decide +kernel,
        fun h => absurd ((hartifacts _ hrepository _ _ hk).1 h).2 (by decide)⟩
      · rcases htools.1 h with hc | hanchored
        · exact absurd hc (by decide)
        · have hplaced := hanchored.repository
          rw [hconfigured] at hplaced
          exact absurd hplaced (by decide)

end Cli

end ClojureBuild
