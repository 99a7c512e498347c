import ClojureBuild.Proofs.Compile.Primary
import ClojureBuild.Proofs.World.Making
import ClojureBuild.Proofs.World.Scanning
/-!
Which compilers of other languages run, and on what.

A dispatch scans for files, then makes the target, then runs a compiler.  The Java compiler behind
that of Scala scans again, and by then the target is there, so that a source entry which goes
through it may lead somewhere.  Main statement: a dispatch issues the calls of its mode in their
order, each on the files of its languages, and stops at the first that fails; every Scala and every
Java file is compiled, and no call is without files.
-/

namespace ClojureBuild

/-- The compiler of a language. -/
def Toolchain.compilerOf (t : Toolchain) : Language → Path
  | .scala => t.scalac
  | .groovy => t.groovyc
  | .java => t.javac

/-- The arguments of the compiler of a language. -/
def CompileOptions.flagsOf (o : CompileOptions) : Language → List String
  | .scala => o.scalac.flags
  | .groovy => o.groovyc.flags
  | .java => o.javac.flags

/-- The files of a language that are found for a job. -/
def CompileJob.found (job : CompileJob) (w : World) (language : Language) : List Path :=
  (languageFiles w language.extension job.sources).files

/-- The Java files that are found once the target was made for the Scala files, if there are any of
these. -/
def CompileJob.javaLater (job : CompileJob) (w : World) : List Path :=
  job.found (if (job.found w .scala).isEmpty then w else (w.makeDirs job.target).1) .java

/-- A call of the compiler of a language over files. -/
structure DelegateCall where
  language : Language
  files : List Path
deriving DecidableEq, Repr

namespace DelegateCall

/-- The invocation of a call. -/
def invocation (t : Toolchain) (o : CompileOptions) (job : CompileJob) (call : DelegateCall) :
    Invocation :=
  Delegate.invocation (t.compilerOf call.language) (o.flagsOf call.language) job call.files

/-- A call that is made when there are files which need it. -/
def ifNeeded (language : Language) (needed files : List Path) : List DelegateCall :=
  if needed.isEmpty then [] else [⟨language, files⟩]

theorem ifNeeded_of_ne_nil {language : Language} {needed files : List Path} (h : needed ≠ []) :
    ifNeeded language needed files = [⟨language, files⟩] := by
  rw [ifNeeded, if_neg (by simpa using h)]

theorem mem_ifNeeded_iff {language : Language} {needed files : List Path} {call : DelegateCall} :
    call ∈ ifNeeded language needed files ↔ needed ≠ [] ∧ call = ⟨language, files⟩ := by
  rw [ifNeeded]
  cases needed with
  | nil => simp
  | cons p rest => simp

end DelegateCall

namespace Delegate

/-- The calls of a mode, given the files of each language and the Java files that are left to the
Java compiler behind that of Scala. -/
def calls (found : Language → List Path) (later : List Path) : MixedMode → List DelegateCall
  | .clojureOnly => []
  | .withScala => DelegateCall.ifNeeded .scala (found .scala) (found .scala ++ found .java) ++
      DelegateCall.ifNeeded .java (found .java) later
  | .withGroovy => [⟨.groovy, Scan.sorted (found .groovy ++ found .java)⟩]
  | .withJava => [⟨.java, found .java⟩]

section

variable (t : Toolchain) (o : CompileOptions) (run : Runner) (job : CompileJob)

/-- From a session calls are issued in order, each once the target was made, up to the first
failure; between them is nothing that the world shows or that the journal marks. -/
inductive Issues : Session → List DelegateCall → Except BuildError Unit × Session → Prop
  | done {s s' : Session} (hworld : s'.world = s.world) (hmarks : s'.marks = s.marks) :
      Issues s [] (.ok (), s')
  /-- The target cannot be made. -/
  | refused {s s' : Session} {call : DelegateCall} {rest : List DelegateCall} {cause : OsError}
      (hmake : s.world.makeDirs job.target = (s'.world, .error cause))
      (hmarks : s'.marks = s.marks) :
      Issues s (call :: rest) (.error (.io job.target cause), s')
  | failed {s begun after : Session} {call : DelegateCall} {rest : List DelegateCall}
      {e : BuildError} (hmake : s.world.makeDirs job.target = (begun.world, .ok ()))
      (hmarks : begun.marks = s.marks)
      (hrun : (run (call.invocation t o job)).runIn begun = (.error e, after)) :
      Issues s (call :: rest) (.error e, after)
  | next {s begun after : Session} {call : DelegateCall} {rest : List DelegateCall}
      {outcome : Except BuildError Unit × Session}
      (hmake : s.world.makeDirs job.target = (begun.world, .ok ()))
      (hmarks : begun.marks = s.marks)
      (hrun : (run (call.invocation t o job)).runIn begun = (.ok (), after))
      (hrest : Issues after rest outcome) : Issues s (call :: rest) outcome

end

variable {t : Toolchain} {o : CompileOptions} {run : Runner} {job : CompileJob} {s : Session}
  {w : World}

/-- What was only noted in front of calls makes no difference. -/
theorem Issues.of_quiet {mid : Session} {calls : List DelegateCall}
    {outcome : Except BuildError Unit × Session} (hworld : mid.world = s.world)
    (hmarks : mid.marks = s.marks) (h : Issues t o run job mid calls outcome) :
    Issues t o run job s calls outcome := by
  cases h with
  | done hlast hquiet => exact .done (hlast.trans hworld) (hquiet.trans hmarks)
  | refused hmake hquiet => exact .refused (hworld ▸ hmake) (hquiet.trans hmarks)
  | failed hmake hquiet hrun => exact .failed (hworld ▸ hmake) (hquiet.trans hmarks) hrun
  | next hmake hquiet hrun hrest => exact .next (hworld ▸ hmake) (hquiet.trans hmarks) hrun hrest

/-- Calls that were all issued are followed by more, and a failure ends both. -/
theorem Issues.append {first more : List DelegateCall} {result : Except BuildError Unit}
    {mid : Session} {outcome : Except BuildError Unit × Session}
    (hfirst : Issues t o run job s first (result, mid))
    (hok : result = .ok () → Issues t o run job mid more outcome)
    (herror : ∀ e, result = .error e → outcome = (.error e, mid)) :
    Issues t o run job s (first ++ more) outcome := by
  generalize hend : (result, mid) = last at hfirst
  induction hfirst with
  | done hworld hmarks =>
      obtain ⟨rfl, rfl⟩ := Prod.mk.inj hend
      exact (hok rfl).of_quiet hworld hmarks
  | refused hmake hmarks =>
      obtain ⟨rfl, rfl⟩ := Prod.mk.inj hend
      rw [herror _ rfl]
      exact .refused hmake hmarks
  | failed hmake hmarks hrun =>
      obtain ⟨rfl, rfl⟩ := Prod.mk.inj hend
      rw [herror _ rfl]
      exact .failed hmake hmarks hrun
  | next hmake hmarks hrun _ ih => exact .next hmake hmarks hrun (ih hend)

/-- Where programs are noted, calls that were all issued are what is noted. -/
theorem Issues.marks_eq (hrecords : Runner.Records run) {calls : List DelegateCall} {s' : Session}
    (h : Issues t o run job s calls (.ok (), s')) :
    s'.marks = s.marks ++ calls.map fun call => .ran (call.invocation t o job) := by
  generalize hend : ((.ok () : Except BuildError Unit), s') = outcome at h
  induction h with
  | done _ hmarks =>
      obtain ⟨-, rfl⟩ := Prod.mk.inj hend
      rw [hmarks, List.map_nil, List.append_nil]
  | refused => exact absurd (Prod.mk.inj hend).1 (by simp)
  | failed => exact absurd (Prod.mk.inj hend).1 (by simp)
  | next _ hmarks hrun _ ih =>
      have hran := congrArg (fun answer => Session.marks answer.2) hrun
      rw [ih hend, ← hran, hrecords, hmarks, List.map_cons, List.append_assoc,
        List.singleton_append]

/-! ### One delegate -/

theorem scan_runIn (language : Language) (s : Session) :
    ∃ noted : Session, noted.world = s.world ∧ noted.marks = s.marks ∧
      (scan language job.sources).runIn s = (.ok (job.found s.world language), noted) := by
  have hquiet := Scan.quiet_ofSources s.world language.extension
    (hasExtension language.extension) job.sources
  refine ⟨_, ?_, marks_note hquiet s, rfl⟩
  rfl

/-- A delegate issues one call if some file needs it. -/
theorem runOver_issues (language : Language) (needed files : List Path) (s : Session) :
    Issues t o run job s (DelegateCall.ifNeeded language needed files)
      ((runOver run (t.compilerOf language) (o.flagsOf language) job needed files).runIn s) := by
  unfold runOver DelegateCall.ifNeeded
  by_cases hnone : needed.isEmpty = true
  · rw [if_pos hnone, if_pos hnone]
    exact .done rfl rfl
  · rw [if_neg hnone, if_neg hnone]
    simp only [Task.runIn_bind, Task.runIn_change, Task.runIn_note, Task.runIn_log]
    rcases hmake : s.world.makeDirs job.target with ⟨made, result⟩
    cases result with
    | error cause => exact .refused hmake rfl
    | ok u =>
        have hrendered := quiet_rendered (Classpath.render job.classpath job.target)
        have hcommand := quiet_log (by decide : LogArea.delegate ≠ .rules) .trace
          "secondary compile" [("command", (invocation (t.compilerOf language)
            (o.flagsOf language) job files).display)]
        have hmarks := (marks_note hcommand _).trans
          (marks_note hrendered { s with world := made })
        simp only [Task.mapError_ok]
        rcases hrun : (run _).runIn _ with ⟨answer, after⟩
        cases answer with
        | error e => exact .failed hmake hmarks hrun
        | ok u => exact .next hmake hmarks hrun (.done rfl rfl)

theorem javac_issues (s : Session) :
    Issues t o run job s
      (DelegateCall.ifNeeded .java (job.found s.world .java) (job.found s.world .java))
      ((javac t o run job).runIn s) := by
  obtain ⟨noted, hworld, hmarks, hscan⟩ := @scan_runIn job .java s
  rw [javac, Task.runIn_bind, hscan]
  exact (runOver_issues .java _ _ noted).of_quiet hworld hmarks

theorem groovyc_issues {files : List Path} (s : Session)
    (hfiles : Scan.sorted (job.found s.world .groovy ++ job.found s.world .java) = files) :
    Issues t o run job s (DelegateCall.ifNeeded .groovy files files)
      ((groovyc t o run job).runIn s) := by
  obtain ⟨first, hworld, hmarks, hgroovy⟩ := @scan_runIn job .groovy s
  obtain ⟨noted, hworld', hmarks', hjava⟩ := @scan_runIn job .java first
  rw [groovyc, Task.runIn_bind, hgroovy]
  simp only [Task.runIn_bind, hjava]
  rw [hworld, hfiles]
  exact (runOver_issues .groovy _ _ noted).of_quiet (hworld'.trans hworld) (hmarks'.trans hmarks)

/-! ### The Java compiler behind that of Scala -/

theorem exists_same_mem_javaLater {p : Path} (hp : p ∈ job.found w .java) :
    ∃ q ∈ job.javaLater w, q.same p = true := by
  have hgrown : World.Grown w
      (if (job.found w .scala).isEmpty then w else (w.makeDirs job.target).1) := by
    split
    · exact Std.Refl.refl w
    · exact World.makeDirs_grown w job.target
  exact hgrown.exists_same_mem_languageFiles hp

theorem javaLater_ne_nil (h : job.found w .java ≠ []) : job.javaLater w ≠ [] := by
  obtain ⟨p, hp⟩ := List.exists_mem_of_ne_nil _ h
  obtain ⟨q, hq, -⟩ := exists_same_mem_javaLater hp
  exact List.ne_nil_of_mem hq

theorem javaLater_eq (h : job.found w .scala = [] ∨ w.isDir job.target = true) :
    job.javaLater w = job.found w .java := by
  rw [CompileJob.javaLater]
  rcases h with hnone | hdir
  · rw [hnone]
    rfl
  · rw [World.makeDirs_of_isDir hdir, ite_self]

/-- The compilers of other languages, when they end well in a world where the target was just made,
leave the Java files among the sources. -/
def LeavesJava (t : Toolchain) (run : Runner) (job : CompileJob) (w : World) : Prop :=
  ∀ i : Invocation, i.program ∈ t.delegates → ∀ begun after : Session,
    begun.world = (w.makeDirs job.target).1 → (run i).runIn begun = (.ok (), after) →
      job.found after.world .java = job.found begun.world .java

/-- What the Java compiler finds when that of Scala ended well. -/
theorem Issues.found_java
    (hleaves : job.found s.world .scala ≠ [] → LeavesJava t run job s.world) {files : List Path}
    {mid : Session}
    (h : Issues t o run job s (DelegateCall.ifNeeded .scala (job.found s.world .scala) files)
      (.ok (), mid)) :
    job.found mid.world .java = job.javaLater s.world := by
  rw [CompileJob.javaLater]
  unfold DelegateCall.ifNeeded at h
  by_cases hnone : (job.found s.world .scala).isEmpty = true
  · rw [if_pos hnone] at h ⊢
    cases h with
    | done hworld => rw [hworld]
  · rw [if_neg hnone] at h ⊢
    cases h with
    | next hmake _ hrun hrest =>
        cases hrest with
        | done hworld =>
            have hmade := congrArg Prod.fst hmake
            have hscalac : t.scalac ∈ t.delegates := by simp [Toolchain.delegates]
            have hleft := hleaves (by simpa using hnone) _ hscalac _ _ hmade.symm hrun
            rw [hworld, hleft, hmade]

/-- Behind the Scala compiler that of Java is called if there were Java files before, over those
that it finds. -/
theorem javac_later_issues {java later : List Path} {mid : Session}
    (hlater : job.found mid.world .java = later) (hfound : java ≠ [] → later ≠ []) :
    Issues t o run job mid (DelegateCall.ifNeeded .java java later)
      ((do
        if java.isEmpty then return
        Task.log .delegate .debug "compiling Java sources of mixed Scala tree"
          [("files", toString java.length)]
        javac t o run job : Task BuildError Unit).runIn mid) := by
  by_cases hnone : java = []
  · subst hnone
    exact .done rfl rfl
  · have hquiet := quiet_log (by decide : LogArea.delegate ≠ .rules) .debug
      "compiling Java sources of mixed Scala tree" [("files", toString java.length)]
    have hissued := @javac_issues t o run job
      { mid with journal := mid.journal ++ [.log .delegate .debug
        "compiling Java sources of mixed Scala tree" [("files", toString java.length)]] }
    rw [if_neg (by simpa using hnone), Task.runIn_bind, Task.runIn_log]
    rw [DelegateCall.ifNeeded_of_ne_nil hnone]
    simp only [hlater, DelegateCall.ifNeeded_of_ne_nil (hfound hnone)] at hissued
    refine hissued.of_quiet ?_ (marks_note hquiet mid)
    rfl

/-- The Scala compiler takes the Java files along, and that of Java comes behind it. -/
theorem scalac_issues
    (hleaves : job.found s.world .scala ≠ [] → LeavesJava t run job s.world) :
    Issues t o run job s
      (DelegateCall.ifNeeded .scala (job.found s.world .scala)
          (job.found s.world .scala ++ job.found s.world .java) ++
        DelegateCall.ifNeeded .java (job.found s.world .java) (job.javaLater s.world))
      ((scalac t o run job).runIn s) := by
  obtain ⟨first, hworld, hmarks, hscala⟩ := @scan_runIn job .scala s
  obtain ⟨noted, hworld', hmarks', hjava⟩ := @scan_runIn job .java first
  rw [hworld] at hjava hworld'
  have hissued := fun files => (@runOver_issues t o run job .scala
    (job.found s.world .scala) files noted).of_quiet hworld' (hmarks'.trans hmarks)
  rw [scalac, Task.runIn_bind, hscala]
  simp only [Task.runIn_bind _ _ first, hjava]
  rw [Task.runIn_bind]
  generalize hrun : Task.runIn _ noted = outcome
  obtain ⟨result, mid⟩ := outcome
  have hfirst : Issues t o run job s (DelegateCall.ifNeeded .scala (job.found s.world .scala)
      (job.found s.world .scala ++ job.found s.world .java)) (result, mid) := hrun ▸ hissued _
  refine hfirst.append ?_ ?_
  · rintro rfl
    exact javac_later_issues (Issues.found_java hleaves hfirst) javaLater_ne_nil
  · rintro e rfl
    rfl

/-! ### What is compiled -/

/-- Calls compile files: those of Scala by its compiler, those of Java by one that writes their
classes; and no compiler starts in vain, nor both of Scala and Groovy. -/
structure Compiles (found : Language → List Path) (calls : List DelegateCall) : Prop where
  scala : ∀ p ∈ found .scala, ∃ call ∈ calls, call.language = .scala ∧ p ∈ call.files
  java : ∀ p ∈ found .java, ∃ call ∈ calls, call.language ≠ .scala ∧
    ∃ q ∈ call.files, q.same p = true
  alone : ∀ call ∈ calls, ∀ other ∈ calls, call.language = .scala → other.language ≠ .groovy
  filled : ∀ call ∈ calls, call.files ≠ []

/-- One call compiles everything where there is no Scala file. -/
theorem compiles_one {found : Language → List Path} {language : Language} {files : List Path}
    (hscala : found .scala = []) (hlanguage : language ≠ .scala) (hfiles : files ≠ [])
    (hjava : ∀ p ∈ found .java, ∃ q ∈ files, q.same p = true) :
    Compiles found [⟨language, files⟩] where
  scala p hp := by
    rw [hscala] at hp
    exact absurd hp List.not_mem_nil
  java p hp := ⟨_, List.mem_singleton_self _, hlanguage, hjava p hp⟩
  alone call hcall _ _ hfirst := by
    rw [List.mem_singleton.1 hcall] at hfirst
    exact absurd hfirst hlanguage
  filled call hcall := by
    rw [List.mem_singleton.1 hcall]
    exact hfiles

/-- The calls of the Scala compiler and that of Java behind it compile everything. -/
theorem compiles_scala {found : Language → List Path} {later : List Path}
    (hlater : ∀ p ∈ found .java, ∃ q ∈ later, q.same p = true) :
    Compiles found (calls found later .withScala) := by
  have hcalls : ∀ call, call ∈ calls found later .withScala ↔
      (found .scala ≠ [] ∧ call = ⟨.scala, found .scala ++ found .java⟩) ∨
        found .java ≠ [] ∧ call = ⟨.java, later⟩ := by
    intro call
    rw [calls, List.mem_append, DelegateCall.mem_ifNeeded_iff, DelegateCall.mem_ifNeeded_iff]
  constructor
  case scala =>
    intro p hp
    exact ⟨_, (hcalls _).2 (Or.inl ⟨List.ne_nil_of_mem hp, rfl⟩), rfl, List.mem_append_left _ hp⟩
  case java =>
    intro p hp
    exact ⟨_, (hcalls _).2 (Or.inr ⟨List.ne_nil_of_mem hp, rfl⟩), by simp, hlater p hp⟩
  case alone =>
    intro call _ other hother _
    rcases (hcalls other).1 hother with ⟨-, rfl⟩ | ⟨-, rfl⟩ <;> simp
  case filled =>
    intro call hcall
    rcases (hcalls call).1 hcall with ⟨hscala, rfl⟩ | ⟨hjava, rfl⟩
    · exact List.append_ne_nil_of_left_ne_nil hscala _
    · obtain ⟨p, hp⟩ := List.exists_mem_of_ne_nil _ hjava
      obtain ⟨q, hq, -⟩ := hlater p hp
      exact List.ne_nil_of_mem hq

/-- The calls of a mode compile the files that the mode tells of. -/
theorem compiles_calls {found : Language → List Path} {later : List Path}
    (hlater : ∀ p ∈ found .java, ∃ q ∈ later, q.same p = true) {mode : MixedMode}
    (htells : mode.Tells (found .scala) (found .groovy) (found .java)) :
    Compiles found (calls found later mode) := by
  cases mode with
  | clojureOnly =>
      obtain ⟨hscala, -, hjava⟩ := htells
      constructor
      · simp [hscala]
      · simp [hjava]
      · simp [calls]
      · simp [calls]
  | withScala => exact compiles_scala hlater
  | withGroovy =>
      obtain ⟨hscala, hgroovy⟩ := htells
      apply compiles_one hscala (by simp) (Scan.sorted_append_ne_nil hgroovy _)
      intro p hp
      exact Scan.exists_same_mem_sorted (List.mem_append_right _ hp)
  | withJava =>
      obtain ⟨hscala, -, hjava⟩ := htells
      apply compiles_one hscala (by simp) hjava
      intro p hp
      exact ⟨p, hp, beq_self_eq_true _⟩

/-- The lists of a job ascend.  That of Groovy and Java is the union of both, and what is left to
the Java compiler behind that of Scala has each Java file, and is the same list if there is nothing
to make. -/
structure Listed (job : CompileJob) (w : World) : Prop where
  found : ∀ language, Scan.Ascends (job.found w language)
  joint : Scan.Ascends (Scan.sorted (job.found w .groovy ++ job.found w .java))
  mem_joint : ∀ p, (∃ q ∈ Scan.sorted (job.found w .groovy ++ job.found w .java),
    q.same p = true) ↔ ∃ q ∈ job.found w .groovy ++ job.found w .java, q.same p = true
  later : Scan.Ascends (job.javaLater w)
  mem_later : ∀ p ∈ job.found w .java, ∃ q ∈ job.javaLater w, q.same p = true
  later_eq : job.found w .scala = [] ∨ w.isDir job.target = true →
    job.javaLater w = job.found w .java

theorem listed (job : CompileJob) (w : World) : Listed job w where
  found _ := Scan.ascends_sorted _
  joint := Scan.ascends_sorted _
  mem_joint _ := Scan.exists_same_mem_sorted_iff
  later := Scan.ascends_sorted _
  mem_later _ hp := exists_same_mem_javaLater hp
  later_eq := javaLater_eq

/-! ### Dispatching -/

theorem compile_issues (hleaves : job.found s.world .scala ≠ [] → LeavesJava t run job s.world)
    {language : Language}
    (htells : (MixedMode.ofLanguage language).Tells (job.found s.world .scala)
      (job.found s.world .groovy) (job.found s.world .java)) :
    Issues t o run job s
      (calls (job.found s.world) (job.javaLater s.world) (.ofLanguage language))
      ((compile t o run language job).runIn s) := by
  cases language with
  | scala => exact scalac_issues hleaves
  | groovy =>
      obtain ⟨-, hgroovy⟩ := htells
      have hissued := @groovyc_issues t o run job _ s rfl
      rwa [DelegateCall.ifNeeded_of_ne_nil (Scan.sorted_append_ne_nil hgroovy _)] at hissued
  | java =>
      obtain ⟨-, -, hjava⟩ := htells
      have hissued := @javac_issues t o run job s
      rwa [DelegateCall.ifNeeded_of_ne_nil hjava] at hissued

theorem ofLanguage_of_language? {mode : MixedMode} {language : Language}
    (h : mode.language? = some language) : MixedMode.ofLanguage language = mode := by
  cases mode <;> cases h <;> rfl

/-- A dispatch issues the calls of the mode that the sources need. -/
theorem exists_dispatch_issues
    (hleaves : job.found s.world .scala ≠ [] → LeavesJava t run job s.world) :
    ∃ result s', (dispatch t o run job).runIn s =
        (result.map fun _ => MixedMode.detect s.world job.sources, s') ∧
      Issues t o run job s (calls (job.found s.world) (job.javaLater s.world)
        (MixedMode.detect s.world job.sources)) (result, s') := by
  have htells : (MixedMode.detect s.world job.sources).Tells (job.found s.world .scala)
      (job.found s.world .groovy) (job.found s.world .java) :=
    MixedMode.tells_detect s.world job.sources
  have hquiet := MixedMode.quiet_detectEvents s.world job.sources Language.priority
  unfold dispatch
  simp only [Task.runIn_bind, Task.runIn_look, Task.runIn_note]
  generalize MixedMode.detect s.world job.sources = mode at htells ⊢
  cases hlanguage : mode.language? with
  | none =>
      have hmode : mode = .clojureOnly := by cases mode <;> first | rfl | cases hlanguage
      subst hmode
      exact ⟨.ok (), _, rfl, .done rfl (marks_note hquiet s)⟩
  | some language =>
      rw [← ofLanguage_of_language? hlanguage] at htells ⊢
      have hlog := quiet_log (by decide : LogArea.mixed ≠ .rules) .info
        ("compiling mixed " ++ (MixedMode.ofLanguage language).display ++ " sources") []
      simp only [Task.runIn_bind, Task.runIn_log]
      generalize hmid : ({ s with journal := _ } : Session) = mid
      have hworld : mid.world = s.world := by rw [← hmid]
      have hmarks : mid.marks = s.marks := by
        rw [← hmid]
        exact (marks_note hlog _).trans (marks_note hquiet s)
      rcases hrun : (compile t o run language job).runIn mid with ⟨result, s'⟩
      have hissued := @compile_issues t o run job mid (hworld ▸ hleaves) language (hworld ▸ htells)
      rw [hworld, hrun] at hissued
      refine ⟨result, s', ?_, hissued.of_quiet hworld hmarks⟩
      cases result <;> rfl

/-- Where programs are noted, the calls of a dispatch that succeeds are what is noted. -/
theorem marks_of_dispatch
    (hleaves : job.found s.world .scala ≠ [] → LeavesJava t run job s.world)
    (hrecords : Runner.Records run) {mode : MixedMode} {s' : Session}
    (h : (dispatch t o run job).runIn s = (.ok mode, s')) :
    mode = MixedMode.detect s.world job.sources ∧
      s'.marks = s.marks ++ (calls (job.found s.world) (job.javaLater s.world) mode).map
        fun call => .ran (call.invocation t o job) := by
  obtain ⟨result, last, hrun, hissued⟩ := @exists_dispatch_issues t o run job s hleaves
  rw [hrun] at h
  obtain ⟨hmode, rfl⟩ := Prod.mk.inj h
  cases result with
  | error e => exact absurd hmode (by simp [Except.map])
  | ok u =>
      obtain rfl := Except.ok.inj hmode
      exact ⟨rfl, hissued.marks_eq hrecords⟩

/-- A dispatch issues the calls of the mode that the sources need, each once the one before it ended
well; it ends as they do.  The calls compile what is found. -/
theorem dispatch_issues (hleaves : LeavesJava t run job s.world) :
    (∃ result s', (dispatch t o run job).runIn s =
        (result.map fun _ => MixedMode.detect s.world job.sources, s') ∧
      Issues t o run job s (calls (job.found s.world) (job.javaLater s.world)
        (MixedMode.detect s.world job.sources)) (result, s')) ∧
    (Runner.Records run → ∀ mode s', (dispatch t o run job).runIn s = (.ok mode, s') →
      s'.marks = s.marks ++ (calls (job.found s.world) (job.javaLater s.world) mode).map
        fun call => .ran (call.invocation t o job)) ∧
    Compiles (job.found s.world) (calls (job.found s.world) (job.javaLater s.world)
      (MixedMode.detect s.world job.sources)) ∧
    Listed job s.world := by
  have hlisted := listed job s.world
  refine ⟨exists_dispatch_issues fun _ => hleaves, fun hrecords mode last hsucceeds => ?_, ?_,
    hlisted⟩
  · exact (marks_of_dispatch (fun _ => hleaves) hrecords hsucceeds).2
  · exact compiles_calls hlisted.mem_later (MixedMode.tells_detect s.world job.sources)

/-! ### A source entry that goes through the target -/

/-- A runner that only notes what it is asked to run. -/
def notingRunner : Runner := fun i => Task.note [.invoked i]

theorem records_notingRunner : Runner.Records notingRunner := by
  intro i s
  rw [notingRunner, Task.runIn_note]
  simp [Session.marks, Event.mark?]

theorem leavesJava_notingRunner (t : Toolchain) (job : CompileJob) (w : World) :
    LeavesJava t notingRunner job w := by
  intro i _ begun after _ hrun
  rw [notingRunner, Task.runIn_note] at hrun
  obtain ⟨-, rfl⟩ := Prod.mk.inj hrun
  rfl

/-- A tree with a Scala file, and with a Java file beside it and one elsewhere. -/
def detourSession : Session where
  world := {
    nodes := [(["a"], .dir 0), (["S.scala", "a"], .file ByteArray.empty 0 false),
      (["J.java", "a"], .file ByteArray.empty 0 false), (["b"], .dir 0),
      (["K.java", "b"], .file ByteArray.empty 0 false)]
    cwd := []
    clock := 1 }
  journal := []

/-- The second entry leads nowhere until the target is there. -/
def detourJob : CompileJob := ⟨[⟨"a"⟩, ⟨"out/../b"⟩], ⟨"/out"⟩, []⟩

/-- The Java compiler is not always called over the Java files that there are at the start. -/
theorem exists_dispatch_detour :
    ¬ ∀ (t : Toolchain) (o : CompileOptions) (run : Runner) (job : CompileJob) (s : Session),
      LeavesJava t run job s.world → Runner.Records run →
        ∀ mode s', (dispatch t o run job).runIn s = (.ok mode, s') →
          s'.marks = s.marks ++
            (calls (job.found s.world) (job.found s.world .java) mode).map
              fun call => .ran (call.invocation t o job) := by
  intro hclaim
  rcases hrun : (dispatch default default notingRunner detourJob).runIn detourSession
    with ⟨result, s'⟩
  have hmode : ((dispatch default default notingRunner detourJob).runIn
      detourSession).1.toOption = some .withScala := by decide +kernel
  rw [hrun] at hmode
  cases result with
  | error e => exact absurd hmode (by simp [Except.toOption])
  | ok mode =>
      obtain rfl := Option.some.inj hmode
      have hmarks := hclaim default default notingRunner detourJob detourSession
        (leavesJava_notingRunner _ _ _) records_notingRunner _ s' hrun
      have hissued : ((dispatch default default notingRunner detourJob).runIn
          detourSession).2.marks ≠ detourSession.marks ++
            (calls (detourJob.found detourSession.world)
              (detourJob.found detourSession.world .java) .withScala).map
                fun call => .ran (call.invocation default default detourJob) := by
        decide +kernel
      rw [hrun] at hissued
      exact hissued hmarks

/-- The Java compiler takes a file along that was not found at the start. -/
theorem dispatch_issues_detour :
    detourJob.found detourSession.world .java = [⟨"/a/J.java"⟩] ∧
      ∃ s', (dispatch default default notingRunner detourJob).runIn detourSession =
          (.ok .withScala, s') ∧
        s'.marks = ([⟨.scala, [⟨"/a/S.scala"⟩, ⟨"/a/J.java"⟩]⟩,
          ⟨.java, [⟨"/a/J.java"⟩, ⟨"/out/../b/K.java"⟩]⟩] : List DelegateCall).map
            fun call => .ran (call.invocation default default detourJob) := by
  have hmode : MixedMode.detect detourSession.world detourJob.sources = .withScala := by
    decide +kernel
  have hcalls : calls (detourJob.found detourSession.world)
      (detourJob.javaLater detourSession.world) .withScala =
        [⟨.scala, [⟨"/a/S.scala"⟩, ⟨"/a/J.java"⟩]⟩,
          ⟨.java, [⟨"/a/J.java"⟩, ⟨"/out/../b/K.java"⟩]⟩] := by
    decide +kernel
  have hsucceeds : ((dispatch default default notingRunner detourJob).runIn
      detourSession).1.toOption.isSome = true := by
    decide +kernel
  obtain ⟨⟨result, s', hrun, -⟩, hmarks, -, -⟩ := @dispatch_issues default default notingRunner
    detourJob detourSession (leavesJava_notingRunner _ _ _)
  rw [hmode] at hrun
  rw [hrun] at hsucceeds
  cases result with
  | error e => exact absurd hsucceeds (by simp [Except.map, Except.toOption])
  | ok u =>
      have hissued := hmarks records_notingRunner _ _ hrun
      rw [hcalls] at hissued
      exact ⟨by decide +kernel, s', hrun, hissued⟩

end Delegate

end ClojureBuild
