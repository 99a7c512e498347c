import ClojureBuild.Proofs.Compile.Duplicates
import ClojureBuild.Proofs.Compile.Primary
import ClojureBuild.Proofs.Compile.SourceBytes
import ClojureBuild.Proofs.Rules.Settled
import ClojureBuild.Proofs.World.Confined
import ClojureBuild.Proofs.World.Naming
import Mathlib.Logic.Relation
/-!
Where a compilation writes.

Whatever a compilation changes by itself, and not through the programs that it runs, lies near its
target.  Main statement: the worlds of a compilation, however it ends, are a chain in which each one
comes from the one before it by a program or by a change near the target; so what lies elsewhere
keeps its kind and its content as long as the programs keep it.
-/

namespace ClojureBuild

variable {t : Toolchain} {o : CompileOptions} {run : Runner} {request : CompileRequest}
  {plan : CompilePlan} {s planned : Session}

/-- A compilation moves the world as making its target, its copies and its programs do. -/
theorem compile_moves {R : World → World → Prop} [IsPreorder World R]
    (hplan : (planCompile t o request).runIn s = (.ok plan, planned))
    (hmake : ∀ w : World, R w (w.makeDirs plan.target).1)
    (hcopy : ∀ c ∈ plan.mirror.copies, Task.Moves R
      (Rules.copyFile c.source c.target : Task (Rules.Failure BuildError.ActionCause) Unit))
    (hrun : ∀ i, i.program ∈ t.programs → Task.Moves R (run i)) (force : Bool) :
    R s.world ((compile t o run force request).runIn s).2.world := by
  have hjava : plan.invocation.program ∈ t.programs := by
    obtain ⟨-, -, hinvocation⟩ := eq_of_planCompile hplan
    rw [hinvocation]
    exact t.java_mem
  have hactions : ∀ action ∈ (plan.graph run).actions, Task.Moves R action.task := by
    intro action haction
    obtain rfl := List.mem_singleton.1 haction
    exact compileAction_leads_at noting_of_world (fun s => hmake s.world) (hrun _ hjava)
  have hexecute : Task.Moves R (Rules.execute force (plan.graph run)) := by
    refine Task.moves_iff_leads.2 (Rules.execute_leads force fun entry deed hrule hcopies => ?_)
    refine Task.moves_iff_leads.1 (Rules.perform_moves hactions fun hdeed => ?_)
    rcases List.mem_append.1 hrule with hcompile | hmirror
    · obtain ⟨u, -, hu⟩ := List.mem_map.1 hcompile
      have haction := hcopies hdeed
      rw [← hu] at haction
      exact absurd haction (by simp [Survey.ruleFor])
    · obtain ⟨c, hc, hentry⟩ := List.mem_map.1 hmirror
      rw [← hentry]
      exact hcopy c hc
  have hdispatch : Task.Moves R
      (Delegate.dispatch t o run ⟨request.sources, plan.target, plan.classpath⟩) := by
    refine Task.moves_iff_leads.2 (Delegate.dispatch_leads_at noting_of_world ?_ t o ?_)
    · exact fun s => hmake s.world
    · exact fun _ hprogram _ => hrun _ (t.mem_programs_of_delegates hprogram)
  have hmoved : R planned.world ((compile t o run force request).runIn s).2.world :=
    compile_leads (R := InvImage R Session.world) hplan hexecute hdispatch
  rwa [(planCompile_untouched hplan).1] at hmoved

/-- One move of a build: one of its programs ran, or the build changed something near the target. -/
inductive BuildMove (programs : List Path) (run : Runner) (target : Location) : World → World → Prop
  | ran {i : Invocation} (hi : i.program ∈ programs) (s : Session) :
      BuildMove programs run target s.world ((run i).runIn s).2.world
  | own {w w' : World} (h : World.Confined target w w') : BuildMove programs run target w w'

/-- The programs put no link near the target. -/
def Runner.KeepsClear (run : Runner) (programs : List Path) (target : Location) : Prop :=
  ∀ i, i.program ∈ programs →
    Task.Moves (fun w w' => w.Clear target → w'.Clear target) (run i)

/-- A world that is clear near the target is moved on by moves of the build, and stays clear. -/
def ClearMoves (programs : List Path) (run : Runner) (target : Location) (w w' : World) : Prop :=
  w.Clear target →
    w'.Clear target ∧ Relation.ReflTransGen (BuildMove programs run target) w w'

section ClearMoves

variable {programs : List Path} {place : Location} {w w' : World}

instance : IsPreorder World (ClearMoves programs run place) where
  refl _ hclear := ⟨hclear, .refl⟩
  trans _ _ _ hfirst hnext hclear := by
    obtain ⟨hmid, hmoves⟩ := hfirst hclear
    obtain ⟨hlast, hmoves'⟩ := hnext hmid
    exact ⟨hlast, hmoves.trans hmoves'⟩

theorem ClearMoves.own (h : w.Clear place → World.Confined place w w') :
    ClearMoves programs run place w w' :=
  fun hclear => ⟨(h hclear).clear hclear, .single (.own (h hclear))⟩

theorem ClearMoves.ran (hlinks : run.KeepsClear programs place) {i : Invocation}
    (hi : i.program ∈ programs) : Task.Moves (ClearMoves programs run place) (run i) :=
  fun s hclear => ⟨hlinks i hi s hclear, .single (.ran hi s)⟩

end ClearMoves

open World (Rooted)

/-- The copies of a plan go below the target. -/
theorem Planned.descends {w : World} (hplan : Planned w o request plan) (hnamed : w.Named)
    {c : MirrorCopy} (hc : c ∈ plan.mirror.copies) :
    ∃ names, names ≠ [] ∧ (∀ name ∈ names, Path.IsName name) ∧
      c.target = plan.target.descend names := by
  rw [hplan.copies_eq] at hc
  obtain ⟨root, hroot, hasked⟩ := List.mem_flatMap.1 hc
  obtain ⟨file, hfile, hcopy⟩ := List.mem_filterMap.1 hasked
  obtain ⟨names, hne, hnames, rfl⟩ :=
    World.exists_descend_of_isDir hnamed (List.of_mem_filter hroot) hfile
  refine ⟨names, hne, hnames, ?_⟩
  rw [MirrorCopy.ofFile?, Path.below?_descend root hnames hne] at hcopy
  obtain ⟨u, -, hcopy⟩ := Option.bind_eq_some_iff.1 hcopy
  split at hcopy
  · exact absurd hcopy (by simp)
  · obtain rfl := Option.some.inj hcopy
    exact Path.join_ofPieces plan.target hne hnames

section

variable {programs : List Path} {target : Path} {place : Location} {names : List String}

/-- What is made to hold a file below the target is made near the target, and what is copied to the
file is copied there. -/
theorem moves_below (htarget : Rooted target) (hne : names ≠ [])
    (hnames : ∀ name ∈ names, Path.IsName name) (hplace : ∀ cwd, target.placeFrom cwd = place)
    (w : World) :
    (∀ parent, (target.descend names).parent? = some parent →
        ClearMoves programs run place w (w.makeDirs parent).1) ∧
      ∀ source, ClearMoves programs run place w (w.copyFile source (target.descend names)).1 := by
  have hdescends : World.Below place ((target.descend names).placeFrom w.cwd) := by
    rw [World.placeFrom_descend target hnames, hplace]
    refine ⟨List.suffix_append _ _, fun hsame => hne ?_⟩
    simpa using hsame
  have hrooted := htarget.descend hnames
  refine ⟨fun parent hparent => ?_, fun source => ?_⟩
  · obtain ⟨habsolute, hfront⟩ := World.of_parent? hrooted.absolute hparent
    have hnear : World.Near place (parent.placeFrom w.cwd) :=
      World.Near.of_suffix (Or.inr hdescends.1) (hrooted.placeFrom_suffix habsolute hfront w.cwd)
    exact .own (World.makeDirs_confined (hrooted.of_front habsolute hfront) hnear)
  · exact .own (World.copyFile_confined hrooted hdescends)

theorem move_target (htarget : Rooted target) (hplace : ∀ cwd, target.placeFrom cwd = place)
    (w : World) : ClearMoves programs run place w (w.makeDirs target).1 := by
  refine .own (World.makeDirs_confined htarget ?_)
  rw [hplace]
  exact Or.inl List.suffix_rfl

theorem copyFile_confined (htarget : Rooted target) (hne : names ≠ [])
    (hnames : ∀ name ∈ names, Path.IsName name) (source : Path)
    (hplace : ∀ cwd, target.placeFrom cwd = place) :
    Task.Moves (ClearMoves programs run place)
      (Rules.copyFile source (target.descend names) :
        Task (Rules.Failure BuildError.ActionCause) Unit) :=
  Rules.copyFile_moves (fun parent hparent w => (moves_below htarget hne hnames hplace w).1 parent
    hparent) fun w => (moves_below htarget hne hnames hplace w).2 source

/-- What a chain of moves leaves alike, if the programs do. -/
theorem alike_of_moves {loc : Location} (hloc : ¬ World.Below place loc)
    (hlinks : run.KeepsClear programs place)
    (hrun : ∀ i, i.program ∈ programs →
      Task.Moves (fun w w' => w.Clear place → World.Alike loc w w') (run i)) {w w' : World}
    (hmoves : Relation.ReflTransGen (BuildMove programs run place) w w') (hclear : w.Clear place)
    (hthere : loc <:+ place → w.node? loc ≠ none) :
    w'.Clear place ∧ World.Alike loc w w' := by
  induction hmoves with
  | refl => exact ⟨hclear, Or.inl rfl⟩
  | tail _ hmove ih =>
      obtain ⟨hmid, halike⟩ := ih
      cases hmove with
      | ran hi s => exact ⟨hlinks _ hi s hmid, halike.trans (hrun _ hi s hmid)⟩
      | own h =>
          exact ⟨h.clear hmid,
            halike.trans (h.alike hloc fun habove => halike.ne_none (hthere habove))⟩

end

/-- In a tree without links, with a target that never goes up and programs that put no link near
it, each move of a compilation is a program that ran or a change near the target, whether the
compilation succeeds or fails.  What is not below the target, nor missing at it or above it, keeps
its kind and its content if the programs keep it. -/
theorem compile_confined (hfree : s.world.LinkFree) (htree : s.world.IsTree)
    (hstanding : s.world.Standing) (hup : .up ∉ request.target.components) {t : Toolchain}
    (hlinks : run.KeepsClear t.programs (request.target.placeFrom s.world.cwd))
    (o : CompileOptions) (force : Bool) :
    Relation.ReflTransGen (BuildMove t.programs run (request.target.placeFrom s.world.cwd)) s.world
        ((compile t o run force request).runIn s).2.world ∧
      ∀ loc, ¬ World.Below (request.target.placeFrom s.world.cwd) loc →
        (loc <:+ request.target.placeFrom s.world.cwd → s.world.node? loc ≠ none) →
        (∀ i, i.program ∈ t.programs → Task.Moves (fun w w' =>
          w.Clear (request.target.placeFrom s.world.cwd) → World.Alike loc w w') (run i)) →
        World.Alike loc s.world ((compile t o run force request).runIn s).2.world := by
  have hcwd : ∀ name ∈ s.world.cwd, Path.IsName name := by
    obtain ⟨t, ht⟩ := World.isDirAt_iff.1 (hstanding s.world.cwd List.suffix_rfl)
    exact fun name hname =>
      (htree.names (by rwa [List.append_nil]) name hname).toIsName
  generalize hplace : request.target.placeFrom s.world.cwd = place at hlinks
  have hclear := hfree.clear place
  have hmoves : ClearMoves t.programs run place s.world
      ((compile t o run force request).runIn s).2.world := by
    rcases hplan : (planCompile t o request).runIn s with ⟨result, planned⟩
    cases result with
    | error e =>
        rw [compile_of_planCompile_error hplan, (planCompile_untouched hplan).1]
        exact fun hclear => ⟨hclear, .refl⟩
    | ok plan =>
        obtain ⟨hplanned, htarget, -⟩ := eq_of_planCompile hplan
        have habsolute := absolutePath_eq_ok_iff.1 htarget
        have hrooted := World.rooted_of_absolute? hcwd hup habsolute
        have hspelled : ∀ cwd, plan.target.placeFrom cwd = place := fun cwd =>
          (World.placeFrom_absolute? hcwd habsolute cwd).trans hplace
        refine compile_moves hplan (fun w => ?_) (fun c hc => ?_) (fun i hi => ?_) force
        · exact move_target hrooted hspelled w
        · obtain ⟨names, hne, hnames, hdescends⟩ := hplanned.descends htree.named hc
          rw [hdescends]
          exact copyFile_confined hrooted hne hnames c.source hspelled
        · exact .ran hlinks hi
  exact ⟨(hmoves hclear).2, fun loc hloc hthere hrun =>
    (alike_of_moves hloc hlinks hrun (hmoves hclear).2 hclear hthere).2⟩

/-- A copy appears below the target, and the sources stay as they are. -/
theorem compile_confined_pair :
    Relation.ReflTransGen (BuildMove (default : Toolchain).programs idleRunner ["out"])
        pairSession.world
        ((compile default pairOptions idleRunner false pairRequest).runIn pairSession).2.world ∧
      World.Alike ["b.clj", "src"] pairSession.world
        ((compile default pairOptions idleRunner false pairRequest).runIn pairSession).2.world ∧
      pairSession.world.node? ["b.clj", "out"] = none ∧
      (((compile default pairOptions idleRunner false pairRequest).runIn
        pairSession).2.world.node? ["b.clj", "out"]).any Node.isFile = true := by
  have hstanding : pairSession.world.Standing := by
    intro loc hloc
    rw [List.suffix_nil.1 hloc]
    decide
  have hplace : pairRequest.target.placeFrom pairSession.world.cwd = ["out"] := by decide +kernel
  have hlaw := @compile_confined idleRunner pairRequest pairSession (by decide +kernel)
    (by decide +kernel) hstanding (by decide +kernel) default (fun _ _ _ hclear => hclear)
    pairOptions false
  rw [hplace] at hlaw
  obtain ⟨hmoves, halike⟩ := hlaw
  refine ⟨hmoves, halike ["b.clj", "src"] ?_ ?_ fun _ _ s _ => Or.inl rfl, ?_, ?_⟩
  · rintro ⟨hbelow, -⟩
    exact absurd hbelow (by decide)
  · intro habove
    exact absurd habove (by decide)
  · decide +kernel
  · decide +kernel

/-! ### A program that puts a link -/

/-- A tree with a unit to compile, a source to copy further down, and a directory beside them. -/
def linkSession : Session where
  world := {
    nodes := [(["src"], .dir 0), (["a.clj", "src"], .file ByteArray.empty 0 false),
      (["sub", "src"], .dir 0), (["b.clj", "sub", "src"], .file ByteArray.empty 0 false),
      (["x"], .dir 0)]
    cwd := []
    clock := 1 }
  journal := []

/-- Each program puts a link that leads out of the target. -/
def linkRunner : Runner := fun _ =>
  Task.change (fun w => (w.put ["sub", "out"] (.link "../x"), .ok ())) (.io ⟨"out/sub"⟩)

/-- What the link leads to gets the copy, though neither a program nor a change near the target puts
it there. -/
theorem not_confined_of_link :
    linkSession.world.LinkFree ∧ linkSession.world.IsTree ∧ linkSession.world.Standing ∧
      .up ∉ pairRequest.target.components ∧
      ¬ Relation.ReflTransGen (BuildMove (default : Toolchain).programs linkRunner
        (pairRequest.target.placeFrom linkSession.world.cwd)) linkSession.world
        ((compile default pairOptions linkRunner false pairRequest).runIn linkSession).2.world := by
  have hstanding : linkSession.world.Standing := by
    intro loc hloc
    rw [List.suffix_nil.1 hloc]
    decide
  have hplace : pairRequest.target.placeFrom linkSession.world.cwd = ["out"] := by decide +kernel
  refine ⟨by decide +kernel, by decide +kernel, hstanding, by decide +kernel, fun hmoves => ?_⟩
  rw [hplace] at hmoves
  have hcopied : (((compile default pairOptions linkRunner false pairRequest).runIn
      linkSession).2.world.node? ["b.clj", "x"]).isSome = true := by decide +kernel
  have hkept : ∀ w', Relation.ReflTransGen (BuildMove (default : Toolchain).programs linkRunner
      ["out"]) linkSession.world w' → w'.node? ["b.clj", "x"] = none := by
    intro w' hchain
    induction hchain with
    | refl => decide +kernel
    | tail _ hmove ih =>
        cases hmove with
        | ran hi s =>
            have hput := World.node?_put s.world ["sub", "out"] ["b.clj", "x"] (.link "../x")
            rw [if_neg (by decide)] at hput
            exact hput.trans ih
        | own h =>
            have haside : ¬ World.Below ["out"] ["b.clj", "x"] :=
              fun hbelow => absurd hbelow.1 (by decide)
            rcases h.elsewhere haside with hsame | ⟨-, hdir | ⟨-, habove⟩⟩
            · exact hsame.trans ih
            · exact absurd hdir (by simp [World.isDirAt, ih])
            · exact absurd habove (by decide)
  rw [hkept _ hmoves] at hcopied
  exact absurd hcopied (by decide)

end ClojureBuild
