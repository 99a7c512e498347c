import ClojureBuild.Proofs.Compile.SourceLists
/-!
What a single file among the sources hides.

A single file makes the first language present whatever its extension is, and behind the compiler of
that language none but the Java compiler comes.  Main statement: where no Scala file is found, a
dispatch compiles every Groovy file if no entry is a single file, and none if some entry is.
-/

namespace ClojureBuild

variable {w : World} {job : CompileJob}

namespace Delegate

theorem text_mem_args (t : Toolchain) (o : CompileOptions) (job : CompileJob)
    {call : DelegateCall} {p : Path} (h : p ∈ call.files) :
    p.text ∈ (call.invocation t o job).args := by
  rw [DelegateCall.invocation, invocation]
  exact List.mem_append_right _ (List.mem_map_of_mem h)

/-- Without single files and Scala files every Groovy file is in a call of its compiler. -/
theorem exists_call_groovy (hscala : job.found w .scala = [])
    (hnone : ∀ source ∈ job.sources, w.isFile source = false) {p : Path}
    (hp : p ∈ job.found w .groovy) :
    ∃ call ∈ job.calls w, call.language = .groovy ∧ p ∈ call.files := by
  have habsent : MixedMode.detect w job.sources ≠ .withScala := by
    rw [ne_eq, MixedMode.detect_eq_withScala_iff, hasLanguage_iff, not_or]
    refine ⟨fun hfiles => hfiles hscala, ?_⟩
    rintro ⟨source, hsource, hfile⟩
    exact absurd (hnone source hsource) (by simp [hfile])
  have htells : (MixedMode.detect w job.sources).Tells (job.found w .scala) (job.found w .groovy)
      (job.found w .java) := MixedMode.tells_detect w job.sources
  rw [CompileJob.calls]
  generalize MixedMode.detect w job.sources = mode at habsent htells
  cases mode with
  | clojureOnly => exact absurd htells.2.1 (List.ne_nil_of_mem hp)
  | withScala => exact absurd rfl habsent
  | withGroovy =>
      exact ⟨_, List.mem_singleton_self _, rfl,
        Scan.mem_sorted_append_left (Scan.ascends_sorted _) _ hp⟩
  | withJava => exact absurd htells.2.1 (List.ne_nil_of_mem hp)

/-- With a single file among the sources, and no Scala file, no compiler but that of Java is
called. -/
theorem calls_of_isFile (hscala : job.found w .scala = []) {source : Path}
    (hsource : source ∈ job.sources) (hfile : w.isFile source = true) :
    MixedMode.detect w job.sources = .withScala ∧
      job.calls w = DelegateCall.ifNeeded .java (job.found w .java) (job.found w .java) := by
  have hmode : MixedMode.detect w job.sources = .withScala :=
    MixedMode.detect_eq_withScala_iff.2 (hasLanguage_of_isFile hsource hfile)
  refine ⟨hmode, ?_⟩
  rw [CompileJob.calls, hmode, calls, javaLater_eq (Or.inl hscala), hscala]
  rfl

/-- Where no Scala file is found, a dispatch that succeeds gives every Groovy file to the Groovy
compiler, if no source entry is a single file.  If some entry is, the mode is that for Scala and the
Java compiler alone is called. -/
theorem dispatch_compiles_groovy {t : Toolchain} {o : CompileOptions} {run : Runner}
    {s s' : Session} {mode : MixedMode} (hrecords : Runner.Records run)
    (hscala : (languageFiles s.world "scala" job.sources).files = [])
    (hrun : (dispatch t o run job).runIn s = (.ok mode, s')) :
    s'.marks = s.marks ++ (job.calls s.world).map (fun call => .ran (call.invocation t o job)) ∧
      ((∀ source ∈ job.sources, s.world.isFile source = false) →
        ∀ p ∈ (languageFiles s.world "groovy" job.sources).files,
          ∃ call ∈ job.calls s.world, (call.invocation t o job).program = t.groovyc ∧
            p.text ∈ (call.invocation t o job).args) ∧
      ((∃ source ∈ job.sources, s.world.isFile source = true) →
        mode = .withScala ∧ ∀ call ∈ job.calls s.world, call.language = .java ∧
          call.files = (languageFiles s.world "java" job.sources).files) := by
  obtain ⟨rfl, hmarks⟩ := marks_of_dispatch (fun hsome => absurd hscala hsome) hrecords hrun
  refine ⟨hmarks, fun hnone p hp => ?_, ?_⟩
  · obtain ⟨call, hcall, hlanguage, hin⟩ := exists_call_groovy hscala hnone hp
    refine ⟨call, hcall, ?_, text_mem_args t o job hin⟩
    rw [DelegateCall.invocation, hlanguage]
    rfl
  · rintro ⟨source, hsource, hfile⟩
    obtain ⟨hmode, hcalls⟩ := calls_of_isFile hscala hsource hfile
    refine ⟨hmode, fun call hcall => ?_⟩
    rw [hcalls, DelegateCall.mem_ifNeeded_iff] at hcall
    rw [hcall.2]
    exact ⟨rfl, rfl⟩

/-! ### A single Java file -/

/-- A toolchain whose programs differ. -/
def namedTools : Toolchain :=
  ⟨⟨"java"⟩, ⟨"javac"⟩, ⟨"scalac"⟩, ⟨"groovyc"⟩, [], ⟨"repository"⟩⟩

/-- A directory with a Groovy file, and a Java file beside it. -/
def groovySession : Session where
  world := {
    nodes := [(["src"], .dir 0), (["G.groovy", "src"], .file ByteArray.empty 0 false),
      (["A.java"], .file ByteArray.empty 0 false)]
    cwd := []
    clock := 1 }
  journal := []

/-- The directory and the Java file. -/
def mixedJob : CompileJob := ⟨[⟨"src"⟩, ⟨"A.java"⟩], ⟨"out"⟩, []⟩

/-- The Groovy file of the directory is compiled. -/
theorem dispatch_compiles_groovy_src :
    ∃ s', (dispatch namedTools default notingRunner ⟨[⟨"src"⟩], ⟨"out"⟩, []⟩).runIn groovySession =
        (.ok .withGroovy, s') ∧
      ∃ i, .ran i ∈ s'.marks ∧ i.program = ⟨"groovyc"⟩ ∧ "/src/G.groovy" ∈ i.args := by
  have hmode : ((dispatch namedTools default notingRunner ⟨[⟨"src"⟩], ⟨"out"⟩, []⟩).runIn
      groovySession).1 = .ok .withGroovy := by decide +kernel
  rcases hrun : (dispatch namedTools default notingRunner ⟨[⟨"src"⟩], ⟨"out"⟩, []⟩).runIn
    groovySession with ⟨result, s'⟩
  rw [hrun] at hmode
  obtain rfl : result = .ok .withGroovy := hmode
  obtain ⟨hmarks, hcompiled, -⟩ :=
    dispatch_compiles_groovy records_notingRunner (by decide +kernel) hrun
  obtain ⟨call, hcall, hprogram, harg⟩ :=
    hcompiled (by decide +kernel) ⟨"/src/G.groovy"⟩ (by decide +kernel)
  refine ⟨s', rfl, _, ?_, hprogram, harg⟩
  rw [hmarks]
  exact List.mem_append_right _ (List.mem_map_of_mem hcall)

/-- With the Java file among the sources the Groovy file is found and given to no program. -/
theorem exists_dispatch_groovy_left :
    ¬ ∀ (t : Toolchain) (o : CompileOptions) (run : Runner) (job : CompileJob) (s : Session),
      Runner.Records run → (languageFiles s.world "scala" job.sources).files = [] →
        ∀ mode s', (dispatch t o run job).runIn s = (.ok mode, s') →
          ∀ p ∈ (languageFiles s.world "groovy" job.sources).files,
            ∃ i, .ran i ∈ s'.marks ∧ i.program = t.groovyc ∧ p.text ∈ i.args := by
  intro hclaim
  rcases hrun : (dispatch namedTools default notingRunner mixedJob).runIn groovySession
    with ⟨result, s'⟩
  have hended : ((dispatch namedTools default notingRunner mixedJob).runIn groovySession).1 =
        .ok .withScala ∧
      ((dispatch namedTools default notingRunner mixedJob).runIn groovySession).2.marks =
        [.ran ⟨⟨"javac"⟩, ["-classpath", "out", "-d", "out", "/A.java"]⟩] := by
    decide +kernel
  rw [hrun] at hended
  obtain ⟨rfl, hmarks⟩ := hended
  obtain ⟨i, hran, hprogram, -⟩ := hclaim namedTools default notingRunner mixedJob groovySession
    records_notingRunner (by decide +kernel) _ s' hrun ⟨"/src/G.groovy"⟩ (by decide +kernel)
  rw [hmarks, List.mem_singleton] at hran
  cases hran
  exact absurd hprogram (by decide)

end Delegate

end ClojureBuild
