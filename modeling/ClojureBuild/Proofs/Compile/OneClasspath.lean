import ClojureBuild.Proofs.Classpath
import ClojureBuild.Proofs.Compile.Duplicates
import ClojureBuild.Proofs.Compile.Primary
/-!
One classpath and one target for all compilers.

A compilation resolves its classpath once, before anything is run, and every compiler that it calls
is told that classpath, with the target behind it, and that target.  Main statement: whatever is
run is a call of one of the four compilers in this form, and nothing is run or changed when an entry
of the classpath stands for nothing; then the error is that of the first such entry.
-/

namespace ClojureBuild

variable {t : Toolchain} {o : CompileOptions} {run : Runner} {request : CompileRequest}
  {plan : CompilePlan} {force : Bool} {s planned : Session}

/-- A call of a compiler: the Clojure compiler over units, or that of another language over files.
The target is given as a system property to the one, and as an argument to the others. -/
inductive CompilerCall (t : Toolchain) (o : CompileOptions) (classpath : OsText) (target : Path) :
    Invocation → Prop where
  | clojure (libs : List UnitId) : CompilerCall t o classpath target
      ⟨t.java, ["-classpath", classpath, "-Dclojure.compile.path=" ++ target.text,
        "clojure.lang.Compile"] ++ libs.map fun u => Octets.ofText u.text⟩
  | scala (files : List Path) : CompilerCall t o classpath target
      ⟨t.scalac, o.scalac.flags.map Octets.ofText ++
        ["-classpath", classpath, "-d", target.text] ++ files.map (·.text)⟩
  | groovy (files : List Path) : CompilerCall t o classpath target
      ⟨t.groovyc, o.groovyc.flags.map Octets.ofText ++
        ["-classpath", classpath, "-d", target.text] ++ files.map (·.text)⟩
  | java (files : List Path) : CompilerCall t o classpath target
      ⟨t.javac, o.javac.flags.map Octets.ofText ++
        ["-classpath", classpath, "-d", target.text] ++ files.map (·.text)⟩

/-- If the step runs a program, it is a call of a compiler. -/
def OnlyCalls (t : Toolchain) (o : CompileOptions) (classpath : OsText) (target : Path)
    (mark : Mark) : Prop :=
  ∀ i, mark = .ran i → CompilerCall t o classpath target i

/-- Behind a plan only compilers are called, with the classpath and the target of the plan. -/
theorem compile_marked (hrecords : Runner.Records run)
    (hplan : (planCompile t o request).runIn s = (.ok plan, planned)) :
    Marked (OnlyCalls t o (Classpath.render plan.classpath plan.target) plan.target) planned
      ((compile t o run force request).runIn s).2 := by
  obtain ⟨-, -, hinvocation⟩ := eq_of_planCompile hplan
  have hcall : ∀ {i : Invocation},
      CompilerCall t o (Classpath.render plan.classpath plan.target) plan.target i →
      Task.Leads (Marked (OnlyCalls t o (Classpath.render plan.classpath plan.target) plan.target))
        (run i) := by
    intro i hi
    refine hrecords.marked fun j hj => ?_
    cases hj
    exact hi
  refine compile_leads hplan ?_ ?_
  · refine Rules.execute_marked (fun action haction => ?_) (fun _ _ _ _ => nofun) force
    obtain rfl := List.mem_singleton.1 haction
    exact compileAction_leads (marked_routine _) plan.target (hcall (hinvocation ▸ .clojure _))
  · refine Delegate.dispatch_leads_calls (marked_routine _).toNoting
      (fun s => (marked_routine _).makeDirs s plan.target) ?_
    exact {
      scala := fun files => hcall (.scala files)
      groovy := fun files => hcall (.groovy files)
      java := fun files => hcall (.java files) }

/-- The entries of a compilation's classpath in order: the dependencies, the directories among the
sources, and the runtime. -/
def CompileRequest.classpathEntries (request : CompileRequest) (t : Toolchain) (w : World) :
    List ClasspathEntry :=
  request.dependencies ++ (request.sources.filter fun p => w.isDir p).map .path ++ t.runtime

/-- How a compilation treats its classpath.  What its programs are told lists the path of every
entry and then the target, with a colon between any two neighbours. -/
structure OneClasspath (t : Toolchain) (o : CompileOptions) (run : Runner) (force : Bool)
    (request : CompileRequest) (s : Session) (target : Path) : Prop where
  /-- When every entry stands for a path, only compilers are run, and all are told the same. -/
  shared : ∀ paths,
    List.Forall₂ (ClasspathEntry.Stands s.world t.repository)
      (request.classpathEntries t s.world) paths →
    ∃ marks, ((compile t o run force request).runIn s).2.marks = s.marks ++ marks ∧
      ∀ i, .ran i ∈ marks →
        CompilerCall t o (Text.joinStrings ':' ((paths ++ [target]).map (·.text))) target i
  /-- Otherwise the compilation ends with the error of the first entry that stands for nothing. -/
  refused : ∀ e,
    Classpath.FirstFailing s.world t.repository (request.classpathEntries t s.world) e →
      EndsUntouched t o request s e
  either : (∃ paths, List.Forall₂ (ClasspathEntry.Stands s.world t.repository)
      (request.classpathEntries t s.world) paths) ∨
    ∃ e, Classpath.FirstFailing s.world t.repository (request.classpathEntries t s.world) e

/-- The classpath of a plan is what its entries are resolved to. -/
theorem classpath_of_planCompile (hplan : (planCompile t o request).runIn s = (.ok plan, planned)) :
    t.classpath s.world (CompilePlan.entries request (sourceRoots s.world request.sources)) =
      .ok plan.classpath := by
  have hresult : ((planCompile t o request).runIn s).1 = _ := planCompile_result s
  rw [hplan] at hresult
  obtain ⟨target, -, h⟩ := Task.exists_of_bind_eq_ok hresult.symm
  obtain ⟨classpath, hclasspath, h⟩ := Task.exists_of_bind_eq_ok h
  obtain ⟨found, -, h⟩ := Task.exists_of_bind_eq_ok h
  obtain ⟨mirrored, -, h⟩ := Task.exists_of_bind_eq_ok h
  cases h
  exact hclasspath

/-- All compilers of a compilation are told one classpath and one target, and none is run when an
entry of the classpath stands for nothing. -/
theorem compile_shares_classpath (hrecords : Runner.Records run) (t : Toolchain)
    (o : CompileOptions) (force : Bool) (request : CompileRequest) (s : Session)
    (hname : request.target.text ≠ "") :
    ∃ target, Path.absolute? s.world.cwdPath request.target = some target ∧
      OneClasspath t o run force request s target := by
  obtain ⟨target, htarget⟩ := Path.exists_absolute? s.world.cwdPath hname
  have habsolute : absolutePath s.world request.target = .ok target :=
    absolutePath_eq_ok_iff.2 htarget
  refine ⟨target, htarget, fun paths hpaths => ?_, fun e hfailing => ?_, ?_⟩
  · rcases hplan : (planCompile t o request).runIn s with ⟨result, planned⟩
    obtain ⟨-, hmarks⟩ := planCompile_untouched hplan
    cases result with
    | error e =>
        -- A duplicate may still end the compilation, and then nothing is run.
        rw [compile_of_planCompile_error hplan]
        exact ⟨[], by rw [List.append_nil]; exact hmarks, by simp⟩
    | ok plan =>
        have hclasspath : plan.classpath = paths :=
          Except.ok.inj ((classpath_of_planCompile hplan).symm.trans
            (Classpath.resolve_eq_ok_iff_stands.2 hpaths))
        have hsame : plan.target = target :=
          Except.ok.inj ((eq_of_planCompile hplan).2.1.symm.trans habsolute)
        have hmarked : Marked _ planned ((compile t o run force request).runIn s).2 :=
          compile_marked hrecords hplan
        obtain ⟨marks, hcalls, hend⟩ := hmarked
        rw [Classpath.render_eq, hclasspath, hsame] at hcalls
        exact ⟨marks, hmarks ▸ hend, fun i hi => hcalls _ hi i rfl⟩
  · apply endsUntouched_of_planCompile
    rw [planCompile_result, habsolute]
    have hrefused : t.classpath s.world
        (CompilePlan.entries request (sourceRoots s.world request.sources)) = .error e :=
      Classpath.resolve_eq_error_iff.2 hfailing
    simp only [Task.ok_bind, hrefused, Task.error_bind]
  · cases h : Classpath.resolve s.world t.repository (request.classpathEntries t s.world) with
    | ok paths => exact Or.inl ⟨paths, Classpath.resolve_eq_ok_iff_stands.1 h⟩
    | error e => exact Or.inr ⟨e, Classpath.resolve_eq_error_iff.1 h⟩

/-! ### Two compilers, an artifact and relative paths -/

/-- A tree with a unit, a Java file, and a repository that holds an artifact. -/
def sharedSession : Session where
  world := {
    nodes := [(["src"], .dir 0), (["a.clj", "src"], .file ByteArray.empty 0 false),
      (["J.java", "src"], .file ByteArray.empty 0 false), (["m2"], .dir 0), (["g", "m2"], .dir 0),
      (["i", "g", "m2"], .dir 0), (["1", "i", "g", "m2"], .dir 0),
      (["i-1.jar", "1", "i", "g", "m2"], .file ByteArray.empty 0 false)]
    cwd := ["src"]
    clock := 1 }
  journal := []

def sharedTools : Toolchain where
  java := ⟨"java"⟩
  javac := ⟨"javac"⟩
  scalac := ⟨"scalac"⟩
  groovyc := ⟨"groovyc"⟩
  runtime := [.path ⟨"/rt.jar"⟩]
  repository := ⟨"/m2"⟩

/-- The file among the sources is no root, and one dependency is an artifact. -/
def sharedRequest : CompileRequest :=
  ⟨[⟨"J.java"⟩, ⟨"../src"⟩], ⟨"out"⟩, [.artifact ⟨"g", "i", "jar", none, "1"⟩, .path ⟨"lib"⟩]⟩

theorem compile_shares_classpath_pair :
    (∃ target, Path.absolute? sharedSession.world.cwdPath sharedRequest.target = some target ∧
      OneClasspath sharedTools .default (Scripted.runner []) false sharedRequest sharedSession
        target) ∧
      ((compile sharedTools .default (Scripted.runner []) false sharedRequest).runIn
          sharedSession).2.marks =
        [.ran ⟨⟨"java"⟩, ["-classpath", "/m2/g/i/1/i-1.jar:/src/lib:/src/../src:/rt.jar:/src/out",
            "-Dclojure.compile.path=/src/out", "clojure.lang.Compile", "a"]⟩,
          .ran ⟨⟨"javac"⟩, ["-g", "-classpath",
            "/m2/g/i/1/i-1.jar:/src/lib:/src/../src:/rt.jar:/src/out", "-d", "/src/out",
            "/src/../src/J.java", "/src/J.java"]⟩] :=
  ⟨compile_shares_classpath (Scripted.records_runner []) sharedTools .default false sharedRequest
    sharedSession (by decide), by decide +kernel⟩

end ClojureBuild
