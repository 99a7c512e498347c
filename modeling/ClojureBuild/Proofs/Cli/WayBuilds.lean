import ClojureBuild.Cli.Build
import ClojureBuild.Proofs.Classpath
import ClojureBuild.Proofs.Cli.Ways
import ClojureBuild.Proofs.Compile.TwinRuns
/-!
Building the project in the current directory, named in three ways.

Main statement: the three ways to name the project load it alike, find the same places and build it
alike, up to what an empty text stands for.  The bare name of the configuration leaves the directory
out, and with nothing to put an empty text behind it names nothing.
-/

namespace ClojureBuild.Cli

open Project (load)
open World (SourceTwins)

variable {w : World} {way way' : Way} {env : Environment} {settings : Settings}

/-- What a build of the project in the current directory works with. -/
def workshop (w : World) (env : Environment) (runner : Runner) (config : ProjectConfig) :
    Workshop where
  run := runner
  programs :=
    let tools := Tools.resolve config.toolchain env.surroundings
    [tools.java, tools.javac, tools.scalac, tools.groovyc]
  target := (Path.absolute? w.cwdPath
    (w.cwdPath / Path.ofText (config.project.target.getD Layout.defaultTarget))).getD w.cwdPath

/-- What a build relies on: what programs do depends on the world alone and leaves it in order, and
the paths of the sources never get too long. -/
structure Dependable (w : World) (env : Environment) (runner : Runner) (config : ProjectConfig) :
    Prop where
  blind : runner.Blind
  orderly : ∀ i, i.program ∈ (workshop w env runner config).programs →
    Task.Moves (fun v v' => v.Orderly w.cwd → v'.Orderly w.cwd) (runner i)
  roomy : ∀ v, (workshop w env runner config).Reaches w v →
    ∀ e ∈ config.sourceEntries, v.Roomy (.ofText e)

theorem Dependable.reaches_orderly (h : w.Hosts) {runner : Runner} {config : ProjectConfig}
    (hdep : Dependable w env runner config) {v : World}
    (hv : (workshop w env runner config).Reaches w v) : v.Orderly w.cwd :=
  hv.orderly hdep.orderly ⟨h.tree.named, rfl, h.standing⟩

/-- No text of a configuration needs a directory in front of it: none is empty, and no source is
taken for no place. -/
structure Plain (config : ProjectConfig) : Prop where
  nonempty : "" ∉ config.sourceEntries ++ (config.project.dependencies ++ config.runtime)
  places : ∀ e ∈ config.sourceEntries, (Path.ofText e).same ⟨"-"⟩ = false

/-! ### Twin requests -/

section

variable {runner : Runner} {config : ProjectConfig} {p p' : Project}

theorem SameEntry.sourceTwins (h : w.Hosts) (hdep : Dependable w env runner config)
    (hcase : way.Even way' ∨ Plain config) (hreadable : Way.Readable w way way') {a b : Path}
    (hsame : SameEntry w way way' config a b) :
    (workshop w env runner config).SourceTwins w a b := by
  intro v hv
  have horderly := hdep.reaches_orderly h hv
  obtain ⟨e, he, hcase', rfl, rfl⟩ := hsame
  have hhere := way.here w
  have hhere' := way'.here w
  have hentries := entryNames_cwd h
  rw [← horderly.cwd] at hhere hhere' hentries
  refine hhere.sourceTwins hhere' hentries horderly.standing (hdep.roomy v hv e he) ?_
    hreadable.isText_eq
  rcases hcase with heven | hplain
  · exact Or.inl (Way.even_iff.1 heven)
  · refine Or.inr ⟨text_ofText_ne_iff.2 ?_, hplain.places e he⟩
    rintro rfl
    exact hplain.nonempty (List.mem_append_left _ he)

theorem target_workshop (h : w.Hosts) (hconfigured : Configured w p.config)
    (hlayout : Layout.resolve w env.surroundings p.config (way.dir w) = .ok p.layout) :
    Path.absolute? w.cwdPath p.layout.target =
      some (workshop w env runner p.config).target := by
  have htarget := text_ofText_ne_iff.2 (target_ne_empty hconfigured)
  have hsame := (@absolute?_join_eq_iff w way .search h
    (.ofText (p.config.project.target.getD Layout.defaultTarget))).2 (Or.inr htarget)
  have hne : (w.cwdPath / Path.ofText (p.config.project.target.getD Layout.defaultTarget)).text ≠
      "" := fun hempty => htarget (World.text_join_eq_empty_iff.1 hempty).2
  obtain ⟨q, hq⟩ := Path.exists_absolute? w.cwdPath hne
  rw [(Layout.roots_of_resolve hlayout).1, workshop, hq]
  exact hsame.trans hq

/-- What is compiled is the same whatever the way. -/
theorem request_twins (h : w.Hosts) (hdep : Dependable w env runner p.config)
    (hcase : way.Even way' ∨ Plain p.config) (hreadable : Way.Readable w way way')
    (hp : load w env (way.on settings) = .ok p) (hp' : load w env (way'.on settings) = .ok p')
    (repository : Path) :
    CompileRequest.Twins w.cwdPath ((workshop w env runner p.config).SourceTwins w)
        ⟨p.layout.sources, p.layout.target, p.dependencies⟩
        ⟨p'.layout.sources, p'.layout.target, p'.dependencies⟩ ∧
      (p.toolchain repository).Twins w.cwdPath (p'.toolchain repository) := by
  obtain ⟨hconfig, htools⟩ := eq_of_loads h hp hp'
  obtain ⟨hconfigured, hlayout, -⟩ := (load_eq_ok_iff h way).1 hp
  obtain ⟨hconfigured', hlayout', -⟩ := (load_eq_ok_iff h way').1 hp'
  rw [← hconfig] at hlayout'
  have hroom : ∀ e ∈ p.config.sourceEntries, w.Roomy (.ofText e) := hdep.roomy w .refl
  have hsources := (sameEntries h hroom hlayout hlayout').imp fun _ _ hab =>
    hab.sourceTwins h hdep hcase hreadable
  have htarget := (@target_workshop w way env runner p h hconfigured hlayout).trans
    (hconfig ▸ target_workshop h hconfigured' (hconfig ▸ hlayout')).symm
  have hempty : ∀ {texts : List String}, texts ⊆ p.config.project.dependencies ++ p.config.runtime →
      way.Even way' ∨ "" ∉ texts := fun hsub =>
    hcase.imp_right fun hplain hin => hplain.nonempty (List.mem_append_right _ (hsub hin))
  obtain ⟨hdependencies, hruntime⟩ := Layout.entries_of_resolve hlayout
  obtain ⟨hdependencies', hruntime'⟩ := Layout.entries_of_resolve hlayout'
  have hhome : HomeNamed env.surroundings.home := env.homeNamed
  have hdeps := (entries_twins_iff h hhome _).2
    ⟨hempty (List.subset_append_left _ _), Or.inl hreadable⟩
  have hruns := (entries_twins_iff h hhome _).2
    ⟨hempty (List.subset_append_right _ _), Or.inl hreadable⟩
  rw [← hdependencies, ← hdependencies'] at hdeps
  rw [← hruntime, ← hruntime'] at hruns
  refine ⟨⟨hsources, htarget, hdeps⟩, ?_⟩
  rw [Project.toolchain, Project.toolchain, ← htools]
  exact ⟨rfl, rfl, rfl, rfl, rfl, hruns⟩

/-- Projects that are loaded in two ways are compiled alike. -/
theorem compile_together (h : w.Hosts) (hdep : Dependable w env runner p.config)
    (hcase : way.Even way' ∨ Plain p.config) (hreadable : Way.Readable w way way')
    (hp : load w env (way.on settings) = .ok p) (hp' : load w env (way'.on settings) = .ok p')
    (repository : Path) {o : CompileOptions}
    (hlibs : ∀ libs, o.libs = some libs → ∀ u ∈ libs, u.names ≠ []) (force : Bool) :
    Task.Together ((workshop w env runner p.config).Reaches w) CompileSummary.Legible
      (p.compile (p.toolchain repository) runner o force)
      (p'.compile (p'.toolchain repository) runner o force) := by
  obtain ⟨hrequest, htools⟩ := request_twins h hdep hcase hreadable hp hp' repository
  obtain ⟨hconfigured, hlayout, -, hresolved⟩ := (load_eq_ok_iff h way).1 hp
  have hsame : p.layout.sources.isEmpty = p'.layout.sources.isEmpty := by
    have hlength := hrequest.sources.length_eq
    simp only at hlength
    rw [Bool.eq_iff_iff, List.isEmpty_iff_length_eq_zero, List.isEmpty_iff_length_eq_zero, hlength]
  have hprograms :
      (p.toolchain repository).programs ⊆ (workshop w env runner p.config).programs := by
    rw [Project.toolchain, hresolved]
    exact List.Subset.refl _
  have horderly := fun v => @Dependable.reaches_orderly w env h runner p.config hdep v
  rw [Project.compile, Project.compile, ← hsame]
  split
  · exact .ofExcept (.error _ _)
  · have htarget := @target_workshop w way env runner p h hconfigured hlayout
    exact (ClojureBuild.compile_together hdep.blind (fun v hv => (horderly v hv).named)
      (fun v hv => (horderly v hv).cwd) hprograms htools hlibs htarget hrequest force).mapError

end

/-! ### Builds -/

theorem sayUnless_together {I : World → Prop} (quiet : Bool) (line line' : String) :
    Task.Together I (fun _ _ => True) (sayUnless quiet line) (sayUnless quiet line') := by
  cases quiet with
  | true => exact .pure trivial
  | false => exact .note _ _

/-- A project that is loaded in one way is loaded in another, if no text needs a directory. -/
theorem exists_load_of_load (h : w.Hosts) {p : Project}
    (hroom : ∀ e ∈ p.config.sourceEntries, w.Roomy (.ofText e))
    (hcase : way.Even way' ∨ Plain p.config) (hp : load w env (way.on settings) = .ok p) :
    ∃ p', load w env (way'.on settings) = .ok p' := by
  obtain ⟨hconfigured, -⟩ := (load_eq_ok_iff h way).1 hp
  have hrooms : ∀ config, Configured w config → ∀ e ∈ config.sourceEntries, w.Roomy (.ofText e) :=
    fun config hconfig => hconfigured.unique hconfig ▸ hroom
  obtain ⟨config, hconfig, hthere⟩ := (exists_load_iff h hrooms).1 ⟨p, hp⟩
  obtain rfl := hconfigured.unique hconfig
  refine (exists_load_iff h hrooms).2 ⟨p.config, hconfig, fun entries hentries e he => ?_⟩
  obtain ⟨hexists, hne⟩ := hthere entries hentries e he
  refine ⟨hexists, fun hway' => ?_⟩
  rcases hcase with heven | hplain
  · exact hne (heven.2 hway')
  · rintro rfl
    refine hplain.nonempty (List.mem_append_left _ ?_)
    rwa [ProjectConfig.sourceEntries, hentries, Option.getD_some]

namespace Build

variable {runner : Runner} {libs : List UnitId} {force : Bool} {format : Format} {s : Session}

theorem names_of_chooseOptions {config : ProjectConfig} (hconfigured : Configured w config)
    (hlibs : ∀ u ∈ libs, UnitId.Dotted u.text) :
    ∀ units, (chooseOptions config.cljc libs).libs = some units → ∀ u ∈ units, u.names ≠ [] := by
  obtain ⟨content, -, hof⟩ := hconfigured
  intro units hunits u hu
  rw [chooseOptions] at hunits
  split at hunits
  · exact ((Config.sound_of_ofText hof).1.libs units hunits u hu).names_ne_nil
  · obtain rfl := Option.some.inj hunits
    exact (hlibs u hu).names_ne_nil

/-- Builds of the project in the current directory end alike, whatever the way. -/
theorem run_alike (h : s.world.Hosts)
    (hdep : ∀ config, Configured s.world config → Dependable s.world env runner config)
    (hcase : ∀ config, Configured s.world config → way.Even way' ∨ Plain config)
    (hreadable : Way.Readable s.world way way')
    (hlibs : ∀ u ∈ libs, UnitId.Dotted u.text) :
    Meets Eq ((run env runner (way.on settings) libs force format).runIn s).1
        ((run env runner (way'.on settings) libs force format).runIn s).1 ∧
      ((run env runner (way.on settings) libs force format).runIn s).2.world =
        ((run env runner (way'.on settings) libs force format).runIn s).2.world := by
  unfold run
  rw [Task.runIn_bind, Task.runIn_bind, Task.runIn_look]
  simp only [id]
  cases hload : load s.world env (way.on settings) with
  | error e =>
      cases hload' : load s.world env (way'.on settings) with
      | error e' => exact ⟨.error e e', rfl⟩
      | ok p' =>
          have hconfigured' := ((load_eq_ok_iff h way').1 hload').1
          have hroom := (hdep p'.config hconfigured').roomy s.world .refl
          obtain ⟨p, hp⟩ := exists_load_of_load h hroom
            ((hcase p'.config hconfigured').imp_left Iff.symm) hload'
          exact absurd (hload.symm.trans hp) (by simp)
  | ok p =>
      have hconfigured := ((load_eq_ok_iff h way).1 hload).1
      have hdep := hdep p.config hconfigured
      have hcase := hcase p.config hconfigured
      obtain ⟨p', hload'⟩ := exists_load_of_load h (hdep.roomy s.world .refl) hcase hload
      obtain ⟨hconfig, htools⟩ := eq_of_loads h hload hload'
      rw [hload']
      have htogether : ∀ {task other : Work Nat},
          Task.Together ((workshop s.world env runner p.config).Reaches s.world) Eq task other →
            Meets Eq (task.runIn s).1 (other.runIn s).1 ∧
              (task.runIn s).2.world = (other.runIn s).2.world := fun h =>
        (h s s rfl .refl).imp_right And.left
      have hproject : Meets (fun a a' => a = p ∧ a' = p')
          (.ok p : Except CommandError Project) (.ok p' : Except CommandError Project) :=
        .ok ⟨rfl, rfl⟩
      refine htogether ((Task.Together.ofExcept hproject).bind ?_)
      rintro _ _ ⟨rfl, rfl⟩
      refine (sayUnless_together _ _ _).bind fun _ _ _ => ?_
      rw [Project.repository, Project.repository, ← hconfig, ← htools]
      refine (Task.Together.ofExcept (.refl _)).bind fun repository _ hsame => ?_
      rw [← hsame]
      refine (compile_together h hdep hcase hreadable hload hload' repository
        (names_of_chooseOptions hconfigured hlibs) force).bind fun summary summary' hlegible => ?_
      cases format with
      | json =>
          simp only
          rw [hlegible]
          exact .ite (.note_bind _ _ (.pure rfl)) (.ofExcept (.error _ _))
      | text => exact .ite (.note_bind _ _ (.note_bind _ _ (.pure rfl))) (.pure rfl)

/-- A project that is compiled has nothing on its classpath that stands for nothing. -/
theorem stands_of_compile {p : Project} {repository : Path} {o : CompileOptions}
    {summary : CompileSummary} {s' : Session}
    (h : (p.compile (p.toolchain repository) runner o force).runIn s = (.ok summary, s'))
    {entry : ClasspathEntry}
    (hin : entry ∈ p.dependencies ++ p.layout.runtime.map ClasspathEntry.parse) :
    ∃ q, ClasspathEntry.Stands s.world repository entry q := by
  rw [Project.compile] at h
  split at h
  · exact absurd h (by simp)
  · obtain ⟨plan, mid, hplan, -⟩ := Task.runIn_bind_eq_ok (Task.runIn_mapError_eq_ok_iff.1 h)
    have hresult := @planCompile_result (p.toolchain repository) o
      ⟨p.layout.sources, p.layout.target, p.dependencies⟩ s
    rw [hplan] at hresult
    obtain ⟨target, -, hresult⟩ := Task.exists_of_bind_eq_ok hresult.symm
    obtain ⟨classpath, hclasspath, -⟩ := Task.exists_of_bind_eq_ok hresult
    cases hentry : Classpath.resolveEntry s.world repository entry with
    | ok q => exact ⟨q, Classpath.resolveEntry_eq_ok_iff.1 hentry⟩
    | error cause =>
        have hall : entry ∈ CompilePlan.entries
            ⟨p.layout.sources, p.layout.target, p.dependencies⟩
            (sourceRoots s.world p.layout.sources) ++ (p.toolchain repository).runtime := by
          rcases List.mem_append.1 hin with hdependency | hruntime
          · exact List.mem_append_left _ (List.mem_append_left _ hdependency)
          · exact List.mem_append_right _ hruntime
        obtain ⟨e, he⟩ := Classpath.exists_error_of_resolveEntry hall hentry
        exact absurd (he.symm.trans hclasspath) (by simp)

/-- A build that ends well has loaded the project and compiled it. -/
theorem exists_of_run_eq_ok {code : Nat} {s' : Session}
    (h : (run env runner settings libs force format).runIn s = (.ok code, s')) :
    ∃ p repository o summary s₁ s₂, load s.world env settings = .ok p ∧
      (p.compile (p.toolchain repository) runner o force).runIn s₁ = (.ok summary, s₂) := by
  unfold run at h
  obtain ⟨w, s₀, hlook, h⟩ := Task.runIn_bind_eq_ok h
  obtain ⟨rfl, rfl⟩ := hlook
  obtain ⟨p, s₁, hload, h⟩ := Task.runIn_bind_eq_ok h
  rw [Task.runIn_ofExcept, Prod.mk.injEq] at hload
  obtain ⟨⟨⟩, s₂, -, h⟩ := Task.runIn_bind_eq_ok h
  obtain ⟨repository, s₃, -, h⟩ := Task.runIn_bind_eq_ok h
  obtain ⟨summary, s₄, hcompile, -⟩ := Task.runIn_bind_eq_ok h
  exact ⟨p, repository, _, summary, s₃, s₄, hload.1, hcompile⟩

/-- Told of the file, the project takes an empty text for a path that leads nowhere. -/
theorem nowhere_mem_entries (h : w.Hosts) {p : Project}
    (hload : load w env (Way.file.on settings) = .ok p)
    (hempty : "" ∈ p.config.project.dependencies ++ p.config.runtime) :
    .path ⟨""⟩ ∈ p.dependencies ++ p.layout.runtime.map ClasspathEntry.parse := by
  obtain ⟨-, hlayout, -⟩ := (load_eq_ok_iff h .file).1 hload
  have hnowhere : ClasspathEntry.path ⟨""⟩ =
      ClasspathEntry.parse (Layout.placeEntry env.home ⟨""⟩ "") := by
    have hempty : (⟨""⟩ : Path) / expandHome env.home "" = ⟨""⟩ :=
      congrArg (Path.join ⟨""⟩) (expandHome_of_ne (Or.inr fun rest hrest => by
        simpa using congrArg String.toList hrest))
    rw [Layout.parse_placeEntry env.homeNamed, if_neg (by decide), hempty]
    decide
  obtain ⟨hdependencies, hruntime⟩ := Layout.entries_of_resolve hlayout
  rw [Project.dependencies, hdependencies, hruntime, ← List.map_append, ← List.map_append,
    hnowhere]
  exact List.mem_map_of_mem (List.mem_map_of_mem hempty)

/-- Told of the file, a build does not get past an empty text among the sources, the dependencies
and the runtime. -/
theorem run_file_fails (h : s.world.Hosts) {config : ProjectConfig}
    (hconfigured : Configured s.world config)
    (hempty : "" ∈ config.sourceEntries ++ (config.project.dependencies ++ config.runtime)) :
    ((run env runner (Way.file.on settings) libs force format).runIn s).1.isOk = false := by
  rcases hrun : (run env runner (Way.file.on settings) libs force format).runIn s with ⟨result, s'⟩
  cases result with
  | error e => rfl
  | ok code =>
      exfalso
      obtain ⟨p, repository, o, summary, s₁, s₂, hload, hcompile⟩ := exists_of_run_eq_ok hrun
      obtain ⟨hconfigured', hlayout, -⟩ := (load_eq_ok_iff h .file).1 hload
      obtain rfl := hconfigured.unique hconfigured'
      rcases List.mem_append.1 hempty with hsource | hentry
      · cases hsources : p.config.project.sources with
        | none =>
            rw [ProjectConfig.sourceEntries, hsources] at hsource
            exact absurd hsource (by decide)
        | some entries =>
            rw [ProjectConfig.sourceEntries, hsources, Option.getD_some] at hsource
            have hthere := Layout.exists_resolve_iff.1 ⟨p.layout, hlayout⟩ entries hsources
            exact ne_empty_of_pathExists (hthere "" hsource) rfl
      · obtain ⟨q, hq⟩ := stands_of_compile hcompile (nowhere_mem_entries h hload hentry)
        cases hq with
        | path habsolute => exact absurd habsolute (by simp [Path.absolute?])

end Build

/-- The project in the current directory may be told of by the name of its configuration, by a dot
or not at all; where the system takes the paths of its sources with the directory in front, it does
so whatever the way.  The project is loaded if the configuration can be used and every configured
source entry exists, and then it has one configuration and one set of tools; its places have the
same absolute forms, and it is built with the same result.  The exceptions belong to the name of the
configuration, which leaves the directory out: an empty text does not stand for the directory then,
so such a source entry is missing, such a test root has no absolute form, and a build with such an
entry anywhere fails; and a source entry may be one that a walk takes for no place.  A current
directory that is no text makes a difference where it stands in front of what is shown. -/
theorem ways_agree (h : w.Hosts)
    (hroom : ∀ config, Configured w config → ∀ e ∈ config.sourceEntries, w.Roomy (.ofText e))
    (env : Environment) (settings : Settings) :
    (∀ way : Way, (∃ p, load w env (way.on settings) = .ok p) ↔ ∃ config, Configured w config ∧
      ∀ entries, config.project.sources = some entries → ∀ e ∈ entries,
        w.pathExists ((⟨"."⟩ : Path) / Path.ofText e) = true ∧ (way = .file → e ≠ "")) ∧
    (∀ (way way' : Way) p p', load w env (way.on settings) = .ok p →
      load w env (way'.on settings) = .ok p' →
        p.config = p'.config ∧ p.tools = p'.tools ∧ (SameLayout w.cwdPath p p' ↔
          (way.Even way' ∨ "" ∉ p.config.test.sources.getD Layout.defaultTestRoot ::
            (p.config.project.dependencies ++ p.config.runtime)) ∧
          (Way.Readable w way way' ∨
            ∀ text ∈ p.config.project.dependencies ++ p.config.runtime, Fixed env.home text))) ∧
    ∀ (runner : Runner) (libs : List UnitId) (force : Bool) (format : Format) (s : Session),
      s.world = w →
        (∀ config, Configured w config →
          "" ∈ config.sourceEntries ++ (config.project.dependencies ++ config.runtime) →
            ((Build.run env runner (Way.file.on settings) libs force format).runIn s).1.isOk =
              false) ∧
        ((∀ u ∈ libs, UnitId.Dotted u.text) →
          (∀ config, Configured w config → Dependable w env runner config) →
            ∀ way way' : Way, (∀ config, Configured w config → way.Even way' ∨ Plain config) →
              Way.Readable w way way' →
              Meets Eq ((Build.run env runner (way.on settings) libs force format).runIn s).1
                ((Build.run env runner (way'.on settings) libs force format).runIn s).1 ∧
              ((Build.run env runner (way.on settings) libs force format).runIn s).2.world =
                ((Build.run env runner (way'.on settings) libs force format).runIn s).2.world) := by
  refine ⟨fun way => exists_load_iff h hroom, fun way way' p p' => sameLayout_iff h hroom, ?_⟩
  rintro runner libs force format s rfl
  exact ⟨fun config hconfigured hempty => Build.run_file_fails h hconfigured hempty,
    fun hlibs hdep way way' hcase hreadable => Build.run_alike h hdep hcase hreadable hlibs⟩

/-- A configuration with the project's own directory, as an empty text, among the dependencies. -/
def hereText : String :=
  "[project]\nname = \"p\"\nsources = [\"src\"]\ntarget = \"out\"\ndependencies = [\"\"]\n" ++
    "[clojure]\nspec = [\"rt.jar\"]\n"

/-- What the text spells. -/
def hereConfig : ProjectConfig :=
  { ProjectConfig.blank with
    project := { ProjectMeta.blank with
      name := "p", sources := some ["src"], target := some "out", dependencies := [""] }
    runtime := ["rt.jar"] }

/-- A project with this configuration and one source. -/
def hereSession : Session where
  world := {
    nodes := [(["p"], .dir 0), (["kiln.toml", "p"], .file hereText.toUTF8 0 false),
      (["src", "p"], .dir 0), (["a.clj", "src", "p"], .file "(ns a)".toUTF8 0 false)]
    cwd := ["p"]
    clock := 1 }
  journal := []

/-- The home directory is all that is around the project. -/
abbrev hereEnv : Environment := .homed "/home"

theorem hosts_here : hereSession.world.Hosts := by
  have hordinary : hereSession.world.Ordinary := by decide +kernel
  exact ⟨by decide +kernel, hordinary.standing, by decide +kernel, by decide +kernel⟩

theorem configured_here : Configured hereSession.world hereConfig :=
  ⟨hereText, by decide +kernel, by decide +kernel⟩

theorem idleRunner_keeps (P : World → Prop) (i : Invocation) :
    Task.Moves (fun w w' => P w → P w') (idleRunner i) :=
  fun _ h => h

/-- Below the source only one file is ever found. -/
theorem names_below_here {v : World}
    (hv : (workshop hereSession.world hereEnv idleRunner hereConfig).Reaches hereSession.world v)
    {names : List String} (hnode : v.node? (names.reverse ++ ["src", "p"]) ≠ none) :
    names = [] ∨ names = ["a.clj"] := by
  have htarget :
      (workshop hereSession.world hereEnv idleRunner hereConfig).target = ⟨"/p/out"⟩ := by
    decide +kernel
  have hapart : ¬ ["out", "p"] <:+ names.reverse ++ ["src", "p"] := by
    rintro ⟨front, hfront⟩
    exact absurd (List.append_inj_right' hfront rfl) (by decide)
  have hfree : hereSession.world.LinkFree := by decide +kernel
  obtain ⟨-, hmoves⟩ := hv.moves (htarget ▸ ⟨by decide, by decide +kernel⟩)
    (fun cwd => htarget ▸ rfl) (fun i _ => idleRunner_keeps _ i) (hfree.clear ["out", "p"])
  have habove : ¬ names.reverse ++ ["src", "p"] <:+ ["out", "p"] := fun habove =>
    absurd ((List.suffix_append _ _).trans habove) (by decide)
  obtain ⟨-, halike⟩ := alike_of_moves (fun hbelow => hapart hbelow.1)
    (fun i _ => idleRunner_keeps _ i) (fun _ _ _ _ => Or.inl rfl) hmoves (hfree.clear _)
    fun hin => absurd hin habove
  have hbefore : ∃ node, hereSession.world.node? (names.reverse ++ ["src", "p"]) = some node := by
    rcases halike with hsame | ⟨hdir, -⟩
    · exact Option.ne_none_iff_exists'.1 (hsame ▸ hnode)
    · obtain ⟨t, ht⟩ := World.isDirAt_iff.1 hdir
      exact ⟨_, ht⟩
  obtain ⟨node, hin⟩ := (World.node?_isSome_iff (by simp)).1 hbefore
  simp only [hereSession, List.mem_cons, Prod.mk.injEq, List.not_mem_nil, or_false] at hin
  rcases hin with ⟨hloc, -⟩ | ⟨hloc, -⟩ | ⟨hloc, -⟩ | ⟨hloc, -⟩
  · exact absurd (congrArg List.length hloc) (by simp)
  · have hsame := @List.append_inj_right' _ names.reverse ["src", "p"] [] _ hloc rfl
    exact absurd hsame (by decide)
  · exact Or.inl (by simpa using hloc)
  · have hsame := @List.append_inj_left' _ names.reverse ["src", "p"] ["a.clj"] _ hloc rfl
    exact Or.inr (List.reverse_eq_iff.1 hsame)

theorem dependable_here : Dependable hereSession.world hereEnv idleRunner hereConfig := by
  refine ⟨fun _ => .pure trivial, fun i _ => idleRunner_keeps _ i, fun v hv e he => ?_⟩
  obtain rfl : e = "src" := List.mem_singleton.1 he
  have horderly : v.Orderly ["p"] := hv.orderly (fun i _ => idleRunner_keeps _ i)
    ⟨hosts_here.tree.named, rfl, hosts_here.standing⟩
  have hfree : v.LinkFree := hv.keeps (P := World.LinkFree)
    (fun v p hfree => (World.makeDirs_renewed v p).linkFree hfree)
    (fun v source p hfree => (World.copyFile_renewed v source p).linkFree hfree)
    (fun i _ => idleRunner_keeps _ i) (by decide +kernel)
  refine World.roomy_of_linkFree hfree (by rw [horderly.cwd]; decide) ?_
  rw [horderly.cwd]
  intro names hnode base hbase
  rcases names_below_here hv hnode with rfl | rfl <;> cases hbase <;> decide +kernel

/-- The project is loaded in each way, but the empty dependency is the directory in two of them
only; these build it, and leave the same behind. -/
theorem ways_agree_here :
    (∃ p p', load hereSession.world hereEnv (Way.directory.on default) = .ok p ∧
        load hereSession.world hereEnv (Way.file.on default) = .ok p' ∧
        ¬ SameLayout hereSession.world.cwdPath p p') ∧
      ((Build.run hereEnv idleRunner (Way.file.on default) [] false .text).runIn
          hereSession).1.isOk = false ∧
      ((Build.run hereEnv idleRunner (Way.search.on default) [] false .text).runIn
          hereSession).1.isOk = true ∧
      Meets Eq
        ((Build.run hereEnv idleRunner (Way.search.on default) [] false .text).runIn
          hereSession).1
        ((Build.run hereEnv idleRunner (Way.directory.on default) [] false .text).runIn
          hereSession).1 ∧
      ((Build.run hereEnv idleRunner (Way.search.on default) [] false .text).runIn
          hereSession).2.world =
        ((Build.run hereEnv idleRunner (Way.directory.on default) [] false .text).runIn
          hereSession).2.world := by
  have hroom : ∀ config, Configured hereSession.world config →
      ∀ e ∈ config.sourceEntries, hereSession.world.Roomy (.ofText e) := fun config hconfig =>
    configured_here.unique hconfig ▸ dependable_here.roomy _ .refl
  obtain ⟨hloads, hplaces, hbuilds⟩ := ways_agree hosts_here hroom hereEnv default
  obtain ⟨hfails, halike⟩ := hbuilds idleRunner [] false .text hereSession rfl
  have hload : ∀ way : Way, ∃ p, load hereSession.world hereEnv (way.on default) = .ok p := by
    refine fun way => (hloads way).2 ⟨hereConfig, configured_here, fun entries hentries e he => ?_⟩
    obtain rfl : ["src"] = entries := Option.some.inj hentries
    obtain rfl : e = "src" := List.mem_singleton.1 he
    exact ⟨by decide +kernel, fun _ => by decide⟩
  have hdep : ∀ config, Configured hereSession.world config →
      Dependable hereSession.world hereEnv idleRunner config := fun config hconfig =>
    configured_here.unique hconfig ▸ dependable_here
  obtain ⟨p, hp⟩ := hload .directory
  obtain ⟨p', hp'⟩ := hload .file
  have hconfig : p.config = hereConfig :=
    ((load_eq_ok_iff hosts_here .directory).1 hp).1.unique configured_here
  refine ⟨⟨p, p', hp, hp', fun hsame => ?_⟩, hfails hereConfig configured_here (by decide),
    by decide +kernel, halike (by simp) hdep .search .directory (fun _ _ => Or.inl (by decide))
      (by decide +kernel)⟩
  have hcase := (hplaces .directory .file p p' hp hp').2.2.1 hsame
  rw [hconfig] at hcase
  exact absurd hcase.1 (by decide)

end ClojureBuild.Cli
