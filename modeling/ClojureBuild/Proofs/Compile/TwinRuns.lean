import ClojureBuild.Proofs.Compile.Confinement
import ClojureBuild.Proofs.Compile.TwinPlans
import ClojureBuild.Proofs.World.Scanning
/-!
Compilations of twin requests.

A compilation comes from world to world by making its target and what is to hold its copies, by
copying below the target and by running its tools.  Main statement: where the sources of two
requests are twins in every world that a compilation can come to, and what a program does depends on
the world alone, the two compilations go together.
-/

namespace ClojureBuild

open World (SourceTwins Twins Beside)

/-! ### Worlds of a build -/

/-- A world in order: entries have names, and the current directory stands where it was. -/
structure World.Orderly (cwd : Location) (w : World) : Prop where
  named : w.Named
  cwd : w.cwd = cwd
  standing : w.Standing

theorem World.Orderly.renewed {cwd : Location} {w w' : World} (h : w.Orderly cwd)
    (hnamed : w'.Named) (hrenewed : World.Renewed w w') : w'.Orderly cwd :=
  ⟨hnamed, hrenewed.cwd.trans h.cwd, hrenewed.standing h.standing⟩

/-- A place below a directory. -/
def Path.Under (dir p : Path) : Prop :=
  ∃ names, names ≠ [] ∧ (∀ name ∈ names, Path.IsName name) ∧ p = dir.descend names

/-- What a build works with: the programs it may run, what runs them, and the target. -/
structure Workshop where
  run : Runner
  programs : List Path
  target : Path

/-- One change of the world by a build. -/
inductive BuildStep (shop : Workshop) : World → World → Prop
  | target (w : World) : BuildStep shop w (w.makeDirs shop.target).1
  | holder (w : World) {p parent : Path} (hp : shop.target.Under p)
      (hparent : p.parent? = some parent) : BuildStep shop w (w.makeDirs parent).1
  | copied (w : World) (source : Path) {p : Path} (hp : shop.target.Under p) :
      BuildStep shop w (w.copyFile source p).1
  | ran {i : Invocation} (hi : i.program ∈ shop.programs) (s : Session) :
      BuildStep shop s.world ((shop.run i).runIn s).2.world

namespace Workshop

variable {shop : Workshop} {w w' : World}

/-- The worlds that a build can come to. -/
def Reaches (shop : Workshop) : World → World → Prop := Relation.ReflTransGen (BuildStep shop)

/-- What the programs of a build keep, and making and copying too, is kept by the build. -/
theorem Reaches.keeps {P : World → Prop} (hmake : ∀ v p, P v → P (World.makeDirs v p).1)
    (hcopy : ∀ v source p, P v → P (World.copyFile v source p).1)
    (hrun : ∀ i, i.program ∈ shop.programs → Task.Moves (fun w w' => P w → P w') (shop.run i))
    (h : shop.Reaches w w') (hw : P w) : P w' := by
  induction h with
  | refl => exact hw
  | tail _ hstep ih =>
      cases hstep with
      | target => exact hmake _ _ ih
      | holder => exact hmake _ _ ih
      | copied _ source _ => exact hcopy _ source _ ih
      | ran hi s => exact hrun _ hi s ih

theorem Reaches.orderly {cwd : Location}
    (hrun : ∀ i, i.program ∈ shop.programs →
      Task.Moves (fun w w' => w.Orderly cwd → w'.Orderly cwd) (shop.run i))
    (h : shop.Reaches w w') (hw : w.Orderly cwd) : w'.Orderly cwd :=
  h.keeps (fun v p hv => hv.renewed (World.makeDirs_named hv.named p) (World.makeDirs_renewed v p))
    (fun v source p hv =>
      hv.renewed (World.copyFile_named hv.named source p) (World.copyFile_renewed v source p))
    hrun hw

/-- What a build comes to, it comes to by moves near its target, if its programs put no link
there. -/
theorem Reaches.moves (htarget : World.Rooted shop.target) {place : Location}
    (hplace : ∀ cwd, shop.target.placeFrom cwd = place)
    (hlinks : shop.run.KeepsClear shop.programs place) (h : shop.Reaches w w') :
    ClearMoves shop.programs shop.run place w w' := by
  induction h with
  | refl => exact Std.Refl.refl w
  | @tail v v' _ hstep ih =>
      refine Trans.trans ih (?_ : ClearMoves shop.programs shop.run place v v')
      cases hstep with
      | target => exact move_target htarget hplace v
      | holder _ hp hparent =>
          obtain ⟨names, hne, hnames, rfl⟩ := hp
          exact (moves_below htarget hne hnames hplace v).1 _ hparent
      | copied _ source hp =>
          obtain ⟨names, hne, hnames, rfl⟩ := hp
          exact (moves_below htarget hne hnames hplace v).2 source
      | ran hi s => exact .ran hlinks hi s

theorem together (hblind : shop.run.Blind) {i : Invocation} (hi : i.program ∈ shop.programs) :
    Task.Together (shop.Reaches w) (fun _ _ => True) (shop.run i) (shop.run i) := by
  intro s s' hworld hin
  obtain ⟨hmeets, hsame, -⟩ := hblind i s s' hworld trivial
  exact ⟨hmeets, hsame, hin.tail (.ran hi s)⟩

theorem makeTarget_together {ε ε' : Type} (refusal : OsError → ε) (refusal' : OsError → ε') :
    Task.Together (shop.Reaches w) (fun _ _ => True) (Task.change (·.makeDirs shop.target) refusal)
      (Task.change (·.makeDirs shop.target) refusal') :=
  .change _ _ fun w' hin => ⟨rfl, rfl, hin.tail (.target w')⟩

/-- Twins in every world that a build can come to. -/
def Twins (shop : Workshop) (w : World) (p q : Path) : Prop :=
  ∀ w', shop.Reaches w w' → World.Twins w' p q

/-- Source entries that are twins in every world that a build can come to. -/
def SourceTwins (shop : Workshop) (w : World) (p q : Path) : Prop :=
  ∀ w', shop.Reaches w w' → World.SourceTwins w' p q

end Workshop

/-! ### Carrying out rules -/

namespace Rules

variable {ε : Type} {shop : Workshop} {w : World} {a b : Path}

theorem check_meets (h : World.Twins w a b) (target : Path) :
    Meets Eq (Freshness.check w a target : Except (Failure ε) Freshness)
      (Freshness.check w b target : Except (Failure ε) Freshness) := by
  rw [Freshness.check, Freshness.check]
  refine h.modified.mapError.bind fun time time' htime => ?_
  rw [htime]
  exact .refl _

/-- The states of targets are the same if the sources are twins. -/
theorem states_meets {rules rules' : List Rule}
    (h : List.Forall₂ (Rule.Like (World.Twins w)) rules rules') (force : Bool) :
    Meets Eq (states w force rules : Except (Failure ε) (List Freshness))
      (states w force rules' : Except (Failure ε) (List Freshness)) := by
  induction h with
  | nil => exact .ok rfl
  | @cons r r' _ _ hlike _ ih =>
      have hfirst : Meets Eq
          (if force then .ok .outdated else Freshness.check w r.source r.target :
            Except (Failure ε) Freshness)
          (if force then .ok .outdated else Freshness.check w r'.source r'.target :
            Except (Failure ε) Freshness) := by
        cases force with
        | true => exact .ok rfl
        | false =>
            rw [← hlike.target]
            exact check_meets hlike.source r.target
      rw [states_cons, states_cons]
      refine hfirst.bind fun state state' hstate => ih.bind fun others others' hothers => ?_
      rw [hstate, hothers]
      exact .ok rfl

theorem copyFile_twins (h : World.Twins w a b) (target : Path) :
    (w.copyFile a target).1 = (w.copyFile b target).1 ∧
      (w.copyFile a target).2.isOk = (w.copyFile b target).2.isOk := by
  have hstat := h.stat
  rw [World.copyFile, World.copyFile]
  generalize w.stat a = found at hstat
  generalize w.stat b = found' at hstat
  cases hstat with
  | error e e' => exact ⟨rfl, rfl⟩
  | ok heq => rw [heq]; exact ⟨rfl, rfl⟩

theorem copyFile_together (h : shop.Twins w a b) {target : Path}
    (htarget : shop.target.Under target) :
    Task.Together (shop.Reaches w) (fun _ _ => True) (copyFile a target : Task (Failure ε) Unit)
      (copyFile b target : Task (Failure ε) Unit) := by
  have hcopy : Task.Together (shop.Reaches w) (fun _ _ => True)
      (Task.change (·.copyFile a target) (Failure.io target) : Task (Failure ε) Unit)
      (Task.change (·.copyFile b target) (Failure.io target) : Task (Failure ε) Unit) := by
    refine .change _ _ fun w' hin => ?_
    obtain ⟨hsame, hok⟩ := copyFile_twins (h w' hin) target
    exact ⟨hsame, hok, hin.tail (.copied w' a htarget)⟩
  unfold copyFile
  cases hparent : target.parent? with
  | none => exact hcopy
  | some parent =>
      have hmake : Task.Together (shop.Reaches w) (fun _ _ => True)
          (Task.change (·.makeDirs parent) (Failure.io parent) : Task (Failure ε) Unit)
          (Task.change (·.makeDirs parent) (Failure.io parent) : Task (Failure ε) Unit) :=
        .change _ _ fun w' hin => ⟨rfl, rfl, hin.tail (.holder w' htarget hparent)⟩
      exact hmake.bind fun _ _ _ => hcopy

/-- The actions of a graph go together with themselves. -/
def Graph.Concerted (shop : Workshop) (w : World) (g : Graph ε) : Prop :=
  ∀ action ∈ g.actions, Task.Together (shop.Reaches w) (fun _ _ => True) action.task action.task

/-- The copies of a list of rules go below the target. -/
def CopiesUnder (target : Path) (rules : List Rule) : Prop :=
  ∀ r ∈ rules, r.action = .copy → target.Under r.target

/-- Rules that are like each other are carried out alike. -/
theorem step_together {g g' : Graph ε} (hg : g.Concerted shop w) (hactions : g.actions = g'.actions)
    {r r' : Rule} (h : Rule.Like (shop.Twins w) r r')
    (hcopy : r.action = .copy → shop.target.Under r.target) (state : Freshness)
    (progress : Progress) :
    Task.Together (shop.Reaches w) Eq (step g r state progress) (step g' r' state progress) := by
  unfold step
  rw [← h.target, ← h.action]
  split
  · exact .note_bind _ _ (.pure rfl)
  · cases haction : r.action with
    | invoke n =>
        simp only
        split
        · exact .note_bind _ _ (.pure rfl)
        · rw [← hactions]
          cases hin : g.actions[n]? with
          | none => exact .pure rfl
          | some action =>
              have htask := hg action (List.mem_of_getElem? hin)
              have hran : Task.Together (shop.Reaches w) (fun _ _ => True)
                  (runAction r state action) (runAction r' state action) :=
                .note_bind _ _ htask.mapError
              exact hran.bind fun _ _ _ => .pure rfl
    | copy =>
        have htarget := hcopy haction
        exact .note_bind _ _ ((copyFile_together h.source htarget).bind fun _ _ _ => .pure rfl)

/-- Rules that are like each other one by one are carried out alike. -/
theorem carryOut_together {g g' : Graph ε} (hg : g.Concerted shop w)
    (hactions : g.actions = g'.actions) {rules rules' : List Rule}
    (h : List.Forall₂ (Rule.Like (shop.Twins w)) rules rules')
    (hcopies : CopiesUnder shop.target rules) (known : List Freshness) (progress : Progress) :
    Task.Together (shop.Reaches w) Eq (carryOut g (rules.zip known) progress)
      (carryOut g' (rules'.zip known) progress) := by
  induction h generalizing known progress with
  | nil => exact .pure rfl
  | cons hlike _ ih =>
      cases known with
      | nil => exact .pure rfl
      | cons state others =>
          obtain ⟨hcopy, hrest⟩ := List.forall_mem_cons.1 hcopies
          refine (step_together hg hactions hlike hcopy state progress).bind
            fun next next' hnext => ?_
          rw [← hnext]
          exact ih hrest others next

/-- Graphs whose rules are like each other are carried out alike. -/
theorem execute_together {g g' : Graph ε} (hg : g.Concerted shop w)
    (hactions : g.actions = g'.actions)
    (h : List.Forall₂ (Rule.Like (shop.Twins w)) g.rules g'.rules)
    (hcopies : CopiesUnder shop.target g.rules) (force : Bool) :
    Task.Together (shop.Reaches w) Eq (execute force g) (execute force g') := by
  unfold execute
  have hlook : Task.Together (shop.Reaches w) (Meets Eq)
      (Task.look fun w => states w force g.rules :
        Task (Failure ε) (Except (Failure ε) (List Freshness)))
      (Task.look fun w => states w force g'.rules :
        Task (Failure ε) (Except (Failure ε) (List Freshness))) :=
    .look fun w' hin => states_meets
      (h.imp fun _ _ hlike => ⟨hlike.target, hlike.action, hlike.source w' hin⟩) force
  refine hlook.bind fun known known' hknown => ?_
  refine (Task.Together.ofExcept hknown).bind fun found found' hfound => ?_
  rw [← hfound]
  refine (carryOut_together hg hactions h hcopies found .start).bind
    fun progress progress' hprogress => ?_
  rw [hprogress]
  exact .pure rfl

end Rules

/-! ### The other languages -/

section

variable {w : World} {p q : Path}

theorem hasExtension_beside {all : Bool} {a b : Path} (h : Beside all p q a b) (ext : String) :
    hasExtension ext a = hasExtension ext b := by
  obtain ⟨names, hne, hnames, -, rfl, rfl⟩ := h
  obtain hnil | ⟨front, last, rfl⟩ := List.eq_nil_or_concat names
  · exact absurd hnil hne
  · rw [List.concat_eq_append] at hnames ⊢
    have hlast := hnames last (by simp)
    rw [hasExtension, hasExtension, Path.descend_concat, Path.descend_concat,
      Path.extension?_div _ hlast, Path.extension?_div _ hlast]

theorem World.Beside.absolute {all : Bool} {a b : Path} (hbeside : Beside all p q a b)
    (h : World.Twins w p q) : Path.absolute? w.cwdPath a = Path.absolute? w.cwdPath b :=
  (hbeside.twins h).absolute

/-- A scan finds files with the same absolute forms in twins. -/
theorem ofSource_twins (hnamed : w.Named) (h : SourceTwins w p q) (ext : String)
    {listed : Path → Bool} (hlisted : w.isFile p = true → listed p = listed q) :
    (Scan.ofSource w ext listed p).files.filterMap (Path.absolute? w.cwdPath) =
      (Scan.ofSource w ext listed q).files.filterMap (Path.absolute? w.cwdPath) := by
  rw [Scan.ofSource, Scan.ofSource, ← h.isDir_eq, ← h.isFile_eq]
  cases hdir : w.isDir p with
  | true =>
      have hfiles := h.filesUnder hnamed false h.dash hdir
      simp only [↓reduceIte]
      rw [← List.forall₂_eq_eq_eq]
      refine List.rel_filterMap (fun a b hbeside => ?_)
        (List.rel_filter (fun a b hbeside => ?_) hfiles)
      · rw [hbeside.absolute h.toTwins]
        cases Path.absolute? w.cwdPath b <;> constructor
        rfl
      · change hasExtension ext a = true ↔ hasExtension ext b = true
        rw [hasExtension_beside hbeside ext]
  | false =>
      cases hfile : w.isFile p with
      | false => rfl
      | true =>
          simp only [Bool.false_eq_true, ↓reduceIte, Bool.true_and, ← hlisted hfile]
          split
          · rw [List.filterMap_cons, List.filterMap_cons, h.absolute]
          · rfl

/-- What scans of twin sources find is the same. -/
theorem ofSources_twins (hnamed : w.Named) (ext : String) (listed : Path → Bool)
    (hlisted : ∀ p q, SourceTwins w p q → w.isFile p = true → listed p = listed q)
    {sources sources' : List Path} (h : List.Forall₂ (SourceTwins w) sources sources') :
    (Scan.ofSources w ext listed sources).files = (Scan.ofSources w ext listed sources').files := by
  rw [Scan.ofSources, Scan.ofSources]
  simp only [List.flatMap_map, List.filterMap_flatMap]
  congr 1
  induction h with
  | nil => rfl
  | cons htwins _ ih =>
      rw [List.flatMap_cons, List.flatMap_cons, ih,
        ofSource_twins hnamed htwins ext (hlisted _ _ htwins)]

theorem languageFiles_twins (hnamed : w.Named) (ext : String) {sources sources' : List Path}
    (h : List.Forall₂ (SourceTwins w) sources sources') :
    (languageFiles w ext sources).files = (languageFiles w ext sources').files :=
  ofSources_twins hnamed ext (hasExtension ext)
    (fun p q htwins hfile => by rw [hasExtension, hasExtension, htwins.extension hfile]) h

theorem detectAmong_twins (hnamed : w.Named) {sources sources' : List Path}
    (h : List.Forall₂ (SourceTwins w) sources sources') (languages : List Language) :
    MixedMode.detectAmong w sources languages = MixedMode.detectAmong w sources' languages := by
  induction languages with
  | nil => rfl
  | cons language rest ih =>
      have hevidence := ofSources_twins hnamed language.extension (fun _ => true)
        (fun _ _ _ _ => rfl) h
      rw [MixedMode.detectAmong, MixedMode.detectAmong, ih, hasLanguage, hasLanguage,
        languageEvidence, languageEvidence, hevidence]

end

/-- Jobs for one target that differ in how their source entries are written. -/
structure CompileJob.Twins (shop : Workshop) (w : World) (job job' : CompileJob) : Prop where
  sources : List.Forall₂ (shop.SourceTwins w) job.sources job'.sources
  target : job.target = shop.target
  target' : job'.target = shop.target
  classpath : job.classpath = job'.classpath

namespace Delegate

variable {shop : Workshop} {w : World} {cwd : Path} {t t' : Toolchain}
  {o : CompileOptions} {job job' : CompileJob}

theorem scan_together (hnamed : ∀ w', shop.Reaches w w' → w'.Named) (h : job.Twins shop w job')
    (language : Language) :
    Task.Together (shop.Reaches w) Eq (scan language job.sources) (scan language job'.sources) := by
  have hlook : Task.Together (shop.Reaches w) (fun found found' => found.files = found'.files)
      (Task.look fun w => languageFiles w language.extension job.sources : Task BuildError Scan)
      (Task.look fun w => languageFiles w language.extension job'.sources : Task BuildError Scan) :=
    .look fun w' hin => languageFiles_twins (hnamed w' hin) language.extension
      (h.sources.imp fun p q htwins => htwins w' hin)
  exact hlook.bind fun found found' hfiles => .note_bind _ _ (.pure hfiles)

theorem runOver_together (hblind : shop.run.Blind) (h : job.Twins shop w job') {program : Path}
    (hprogram : program ∈ shop.programs) (flags : List String) (needed files : List Path) :
    Task.Together (shop.Reaches w) (fun _ _ => True)
      (runOver shop.run program flags job needed files)
      (runOver shop.run program flags job' needed files) := by
  unfold runOver invocation
  rw [h.target, h.target', ← h.classpath]
  split
  · exact .pure trivial
  · refine (Workshop.makeTarget_together _ _).bind fun _ _ _ => ?_
    exact .note_bind _ _ (.note_bind _ _ (Workshop.together hblind hprogram))

section

variable (hnamed : ∀ w', shop.Reaches w w' → w'.Named) (hblind : shop.run.Blind)
  (hprograms : t.programs ⊆ shop.programs) (ht : Toolchain.Twins cwd t t')
  (h : job.Twins shop w job')

include hnamed hblind hprograms ht h

theorem javac_together :
    Task.Together (shop.Reaches w) (fun _ _ => True) (javac t o shop.run job)
      (javac t' o shop.run job') := by
  refine (scan_together hnamed h .java).bind fun files files' hfiles => ?_
  rw [← hfiles, ← ht.javac]
  exact runOver_together hblind h (hprograms t.javac_mem) _ _ _

theorem scalac_together :
    Task.Together (shop.Reaches w) (fun _ _ => True) (scalac t o shop.run job)
      (scalac t' o shop.run job') := by
  refine (scan_together hnamed h .scala).bind fun scala scala' hscala => ?_
  refine (scan_together hnamed h .java).bind fun java java' hjava => ?_
  rw [← hscala, ← hjava, ← ht.scalac]
  refine (runOver_together hblind h (hprograms t.scalac_mem) _ _ _).bind fun _ _ _ => ?_
  split
  · exact .pure trivial
  · exact .note_bind _ _ (javac_together hnamed hblind hprograms ht h)

theorem groovyc_together :
    Task.Together (shop.Reaches w) (fun _ _ => True) (groovyc t o shop.run job)
      (groovyc t' o shop.run job') := by
  refine (scan_together hnamed h .groovy).bind fun groovy groovy' hgroovy => ?_
  refine (scan_together hnamed h .java).bind fun java java' hjava => ?_
  rw [← hgroovy, ← hjava, ← ht.groovyc]
  exact runOver_together hblind h (hprograms t.groovyc_mem) _ _ _

/-- Delegates of twin jobs go together. -/
theorem dispatch_together :
    Task.Together (shop.Reaches w) Eq (dispatch t o shop.run job)
      (dispatch t' o shop.run job') := by
  have hlook : Task.Together (shop.Reaches w) Eq
      (Task.look (MixedMode.detect · job.sources) : Task BuildError MixedMode)
      (Task.look (MixedMode.detect · job'.sources) : Task BuildError MixedMode) :=
    .look fun w' hin => detectAmong_twins (hnamed w' hin)
      (h.sources.imp fun p q htwins => htwins w' hin) Language.priority
  have hevents : Task.Together (shop.Reaches w) (fun _ _ => True)
      (Task.look (MixedMode.detectEvents · job.sources Language.priority) :
        Task BuildError (List Event))
      (Task.look (MixedMode.detectEvents · job'.sources Language.priority) :
        Task BuildError (List Event)) :=
    .look fun _ _ => trivial
  refine hlook.bind fun mode mode' hmode => hevents.bind fun _ _ _ => .note_bind _ _ ?_
  rw [← hmode]
  cases mode.language? with
  | none => exact .pure rfl
  | some language =>
      have hcompile : Task.Together (shop.Reaches w) (fun _ _ => True)
          (compile t o shop.run language job)
            (compile t' o shop.run language job') := by
        unfold compile
        cases language with
        | scala => exact scalac_together hnamed hblind hprograms ht h
        | groovy => exact groovyc_together hnamed hblind hprograms ht h
        | java => exact javac_together hnamed hblind hprograms ht h
      exact .note_bind _ _ (hcompile.bind fun _ _ _ => .pure rfl)

end

end Delegate

/-! ### Whole compilations -/

theorem compileAction_together {shop : Workshop} {w : World} (hblind : shop.run.Blind)
    {invocation : Invocation} (hprogram : invocation.program ∈ shop.programs) :
    Task.Together (shop.Reaches w) (fun _ _ => True)
      (compileAction shop.run invocation shop.target).task
      (compileAction shop.run invocation shop.target).task := by
  refine Task.Together.mapError ?_
  refine (Workshop.makeTarget_together _ _).bind fun _ _ _ => ?_
  exact .note_bind _ _ (Workshop.together hblind hprogram)

/-- A plan that keeps to a workshop: it runs one of the programs, and copies below the target. -/
structure CompilePlan.Fits (shop : Workshop) (plan : CompilePlan) : Prop where
  target : plan.target = shop.target
  program : plan.invocation.program ∈ shop.programs
  copies : Rules.CopiesUnder shop.target plan.rules

section

variable {shop : Workshop} {w : World} {t t' : Toolchain} {o : CompileOptions}
  {request request' : CompileRequest}

theorem fits_of_planCompile {s planned : Session} {plan : CompilePlan} (hnamed : s.world.Named)
    (hprograms : t.programs ⊆ shop.programs)
    (htarget : absolutePath s.world request.target = .ok shop.target)
    (h : (planCompile t o request).runIn s = (.ok plan, planned)) : plan.Fits shop := by
  obtain ⟨hplanned, habsolute, hinvocation⟩ := eq_of_planCompile h
  have hsame : plan.target = shop.target := Except.ok.inj (habsolute.symm.trans htarget)
  refine ⟨hsame, ?_, fun r hr haction => ?_⟩
  · rw [hinvocation]
    exact hprograms t.java_mem
  · rcases List.mem_append.1 hr with hcompile | hmirror
    · obtain ⟨u, -, rfl⟩ := List.mem_map.1 hcompile
      exact absurd haction (by simp [Survey.ruleFor])
    · obtain ⟨c, hc, rfl⟩ := List.mem_map.1 hmirror
      rw [← hsame]
      exact hplanned.descends hnamed hc

theorem planCompile_together (hnamed : ∀ w', shop.Reaches w w' → w'.Named)
    (hcwd : ∀ w', shop.Reaches w w' → w'.cwd = w.cwd) (hprograms : t.programs ⊆ shop.programs)
    (ht : t.Twins w.cwdPath t') (hlibs : ∀ libs, o.libs = some libs → ∀ u ∈ libs, u.names ≠ [])
    (htarget : Path.absolute? w.cwdPath request.target = some shop.target)
    (h : request.Twins w.cwdPath (shop.SourceTwins w) request') :
    Task.Together (shop.Reaches w)
      (fun plan plan' => plan.Like (shop.SourceTwins w) plan' ∧ plan.Fits shop)
      (planCompile t o request) (planCompile t' o request') := by
  intro s s' hworld hin
  have hpath : w.cwdPath = s.world.cwdPath := by
    rw [World.cwdPath, World.cwdPath, hcwd s.world hin]
  rw [hpath] at ht h htarget
  have hsame := planCompile_moves t o request s
  have hsame' := planCompile_moves t' o request' s'
  refine ⟨?_, by rw [← hsame, ← hsame', hworld], by rwa [← hsame]⟩
  have hmeets := planCompile_twins (hnamed s.world hin) (fun p q hpq => hpq s.world hin) ht hlibs h
    rfl hworld.symm
  rcases hrun : (planCompile t o request).runIn s with ⟨result, planned⟩
  rcases hrun' : (planCompile t' o request').runIn s' with ⟨result', planned'⟩
  rw [hrun, hrun'] at hmeets
  cases hmeets with
  | error e e' => exact .error e e'
  | ok hlike =>
      have htarget' := absolutePath_eq_ok_iff.2 htarget
      exact .ok ⟨hlike, fits_of_planCompile (hnamed s.world hin) hprograms htarget' hrun⟩

/-- Both reports are texts throughout, or neither is. -/
def CompileSummary.Legible (s s' : CompileSummary) : Prop :=
  s.paths.all Path.isText = s'.paths.all Path.isText

/-- Summaries with units that are alike and with one report are legible alike. -/
theorem CompileSummary.legible_of_like {R : Path → Path → Prop}
    (hR : ∀ p q, R p q → p.isText = q.isText) {s s' : CompileSummary}
    (h : List.Forall₂ (LocatedUnit.Like R) s.located s'.located) (hreport : s.report = s'.report) :
    s.Legible s' := by
  have hlocated : ∀ {xs ys : List LocatedUnit}, List.Forall₂ (LocatedUnit.Like R) xs ys →
      (xs.flatMap fun u => [u.root, u.source]).all Path.isText =
        (ys.flatMap fun u => [u.root, u.source]).all Path.isText := by
    intro xs ys h
    induction h with
    | nil => rfl
    | cons hlike _ ih =>
        rw [List.flatMap_cons, List.flatMap_cons, List.all_append, List.all_append, ih]
        simp [hR _ _ hlike.root, hlike.source.isText_eq hR]
  unfold Legible paths
  simp only [List.all_append, hlocated h, hreport]

/-- Compilations of twin requests go together: both succeed or both fail, they leave the same
world, and a report for machines can be made of both or of neither. -/
theorem compile_together (hblind : shop.run.Blind) (hnamed : ∀ w', shop.Reaches w w' → w'.Named)
    (hcwd : ∀ w', shop.Reaches w w' → w'.cwd = w.cwd) (hprograms : t.programs ⊆ shop.programs)
    (ht : t.Twins w.cwdPath t') (hlibs : ∀ libs, o.libs = some libs → ∀ u ∈ libs, u.names ≠ [])
    (htarget : Path.absolute? w.cwdPath request.target = some shop.target)
    (h : request.Twins w.cwdPath (shop.SourceTwins w) request') (force : Bool) :
    Task.Together (shop.Reaches w) CompileSummary.Legible (compile t o shop.run force request)
      (compile t' o shop.run force request') := by
  refine (planCompile_together hnamed hcwd hprograms ht hlibs htarget h).bind ?_
  rintro plan plan' ⟨hplan, hfits⟩
  have hfits' : plan'.target = shop.target := hplan.target ▸ hfits.target
  have hconcerted : (plan.graph shop.run).Concerted shop w := by
    intro action haction
    rw [List.mem_singleton.1 haction, hfits.target]
    exact compileAction_together hblind hfits.program
  have hactions : (plan.graph shop.run).actions = (plan'.graph shop.run).actions := by
    rw [CompilePlan.graph, CompilePlan.graph, hplan.invocation, hplan.target]
  have hrules : List.Forall₂ (Rules.Rule.Like (shop.Twins w)) (plan.graph shop.run).rules
      (plan'.graph shop.run).rules := by
    refine hplan.rules.imp fun r r' hlike => ⟨hlike.target, hlike.action, fun w' hin => ?_⟩
    obtain ⟨p, q, names, hpq, hnames, hp, hq⟩ := hlike.source
    rw [hp, hq]
    exact (hpq w' hin).toTwins.descend hnames
  have hexecute := Rules.execute_together hconcerted hactions hrules hfits.copies force
  refine hexecute.mapError.bind fun _ _ hreport => ?_
  have hjob : CompileJob.Twins shop w ⟨request.sources, plan.target, plan.classpath⟩
      ⟨request'.sources, plan'.target, plan'.classpath⟩ :=
    ⟨h.sources, hfits.target, hfits', hplan.classpath⟩
  refine (Delegate.dispatch_together hnamed hblind hprograms ht hjob).bind fun _ _ _ => .pure ?_
  exact CompileSummary.legible_of_like (fun p q hpq => (hpq w .refl).text) hplan.located hreport

end

end ClojureBuild
