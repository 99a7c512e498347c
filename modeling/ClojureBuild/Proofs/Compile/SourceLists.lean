import ClojureBuild.Proofs.Compile.Dispatch
import ClojureBuild.Proofs.World.SourceLists
import ClojureBuild.Proofs.World.Times
/-!
What a dispatch makes of its source list.

The mode and the files of each call depend on the places that the entries lead to and on nothing
else.  Main statement: lists with the same entries make the same calls over the same files; the
texts of these may differ by a separator at the front, if an entry begins with exactly two.
-/

namespace ClojureBuild

variable {w : World} {job job' : CompileJob}

/-- The calls of a dispatch. -/
def CompileJob.calls (job : CompileJob) (w : World) : List DelegateCall :=
  Delegate.calls (job.found w) (job.javaLater w) (MixedMode.detect w job.sources)

/-- Two calls of one compiler, over files that go along with each other. -/
structure DelegateCall.Along (R : Path → Path → Prop) (call other : DelegateCall) : Prop where
  language : call.language = other.language
  files : List.Forall₂ R call.files other.files

/-! ### Calls over the same places -/

/-- Two jobs that differ in the order and the number of their source entries, or in their
classpath. -/
structure CompileJob.Like (job job' : CompileJob) : Prop where
  sources : ∀ source, source ∈ job.sources ↔ source ∈ job'.sources
  target : job'.target = job.target

namespace CompileJob.Like

theorem found (h : job.Like job') (w : World) (language : Language) :
    SamePlaces (job.found w language) (job'.found w language) :=
  Scan.samePlaces_files h.sources

theorem javaLater (h : job.Like job') (w : World) :
    SamePlaces (job.javaLater w) (job'.javaLater w) := by
  have hscala : (job.found w .scala).isEmpty = (job'.found w .scala).isEmpty := by
    rw [Bool.eq_iff_iff, List.isEmpty_iff, List.isEmpty_iff]
    exact (h.found w .scala).nil_iff
  rw [CompileJob.javaLater, CompileJob.javaLater, ← hscala, h.target]
  exact h.found _ .java

end CompileJob.Like

theorem DelegateCall.ifNeeded_along {R : Path → Path → Prop}
    {needed needed' files files' : List Path} (language : Language)
    (hneeded : SamePlaces needed needed') (hfiles : List.Forall₂ R files files') :
    List.Forall₂ (Along R) (ifNeeded language needed files)
      (ifNeeded language needed' files') := by
  by_cases hnone : needed = []
  · rw [hnone, hneeded.nil_iff.1 hnone]
    exact .nil
  · rw [ifNeeded_of_ne_nil hnone, ifNeeded_of_ne_nil (mt hneeded.nil_iff.2 hnone)]
    exact .cons ⟨rfl, hfiles⟩ .nil

/-- Lists with the same entries make the same calls over the same places. -/
theorem CompileJob.Like.calls (h : job.Like job') (w : World) :
    List.Forall₂ (DelegateCall.Along fun p q => p.same q = true) (job.calls w) (job'.calls w) := by
  rw [CompileJob.calls, CompileJob.calls, ← MixedMode.detect_congr h.sources]
  cases MixedMode.detect w job.sources with
  | clojureOnly => exact .nil
  | withScala =>
      refine List.rel_append ?_ ?_
      · exact DelegateCall.ifNeeded_along .scala (h.found w .scala)
          (List.rel_append (h.found w .scala) (h.found w .java))
      · exact DelegateCall.ifNeeded_along .java (h.found w .java) (h.javaLater w)
  | withGroovy =>
      exact .cons ⟨rfl, Scan.samePlaces_sorted (h.found w .groovy) (h.found w .java)⟩ .nil
  | withJava => exact .cons ⟨rfl, h.found w .java⟩ .nil

/-! ### Texts of calls -/

/-- Every file of a call is spelled as an entry is. -/
theorem exists_spelled_of_mem_calls (hstanding : w.Standing) (hnamed : w.Named)
    {call : DelegateCall} (hcall : call ∈ job.calls w) {p : Path} (hp : p ∈ call.files) :
    ∃ source ∈ job.sources, p.Spelled source.lead := by
  have hfound : ∀ language, p ∈ job.found w language → ∃ source ∈ job.sources,
      p.Spelled source.lead :=
    fun _ => exists_spelled_of_mem_languageFiles hstanding hnamed
  have hlater : p ∈ job.javaLater w → ∃ source ∈ job.sources, p.Spelled source.lead := by
    rw [CompileJob.javaLater]
    split
    · exact hfound .java
    · exact exists_spelled_of_mem_languageFiles ((World.makeDirs_renewed w _).standing hstanding)
        (World.makeDirs_named hnamed _)
  rw [CompileJob.calls] at hcall
  generalize MixedMode.detect w job.sources = mode at hcall
  cases mode with
  | clojureOnly => exact absurd hcall List.not_mem_nil
  | withScala =>
      rw [Delegate.calls, List.mem_append, DelegateCall.mem_ifNeeded_iff,
        DelegateCall.mem_ifNeeded_iff] at hcall
      rcases hcall with ⟨-, rfl⟩ | ⟨-, rfl⟩
      · exact (List.mem_append.1 hp).elim (hfound .scala) (hfound .java)
      · exact hlater hp
  | withGroovy =>
      obtain rfl := List.mem_singleton.1 hcall
      exact (List.mem_append.1 (Scan.mem_of_mem_sorted hp)).elim (hfound .groovy) (hfound .java)
  | withJava =>
      obtain rfl := List.mem_singleton.1 hcall
      exact hfound .java hp

/-- Calls over the same places have the same texts but for a separator at the front, and are the
same where no entry begins with exactly two separators. -/
theorem DelegateCall.alike {xs ys : List Path} {calls calls' : List DelegateCall}
    (h : List.Forall₂ (Along fun p q => p.same q = true) calls calls')
    (hspelled : ∀ call ∈ calls, ∀ p ∈ call.files, ∃ source ∈ xs, p.Spelled source.lead)
    (hspelled' : ∀ call ∈ calls', ∀ p ∈ call.files, ∃ source ∈ ys, p.Spelled source.lead) :
    List.Forall₂ (Along Path.SpelledAlike) calls calls' ∧
      ((∀ source ∈ xs ++ ys, source.doubled = false) → calls = calls') := by
  induction h with
  | nil => exact ⟨.nil, fun _ => rfl⟩
  | @cons call call' _ _ halong _ ih =>
      obtain ⟨hcall, hspelled⟩ := List.forall_mem_cons.1 hspelled
      obtain ⟨hcall', hspelled'⟩ := List.forall_mem_cons.1 hspelled'
      obtain ⟨hfiles, hsame⟩ := SamePlaces.alike halong.files hcall hcall'
      obtain ⟨hrest, hsameRest⟩ := ih hspelled hspelled'
      refine ⟨.cons ⟨halong.language, hfiles⟩ hrest, fun hnone => ?_⟩
      have heq : call = call' := by
        cases call
        cases call'
        exact congrArg₂ DelegateCall.mk halong.language (hsame hnone)
      rw [heq, hsameRest hnone]

/-! ### Lists with the same entries -/

/-- A dispatch takes its source list for a set: the files of two lists are the union of those of
both, and lists with the same entries need the same mode and make the same calls over the same
places.  The texts of these differ by a separator at the front at most, and are the same unless an
entry begins with exactly two. -/
theorem dispatch_takesSets (w : World) :
    TakesSets w ∧
    (∀ job job' : CompileJob, job.Like job' →
      MixedMode.detect w job.sources = MixedMode.detect w job'.sources ∧
      (∀ ext, SamePlaces (languageFiles w ext job.sources).files
        (languageFiles w ext job'.sources).files) ∧
      List.Forall₂ (DelegateCall.Along fun p q => p.same q = true) (job.calls w)
        (job'.calls w)) ∧
    (w.IsTree → w.Standing → ∀ job job' : CompileJob, job.Like job' →
      ((∀ ext, List.Forall₂ Path.SpelledAlike (languageFiles w ext job.sources).files
        (languageFiles w ext job'.sources).files) ∧
        List.Forall₂ (DelegateCall.Along Path.SpelledAlike) (job.calls w) (job'.calls w)) ∧
      ((∀ source ∈ job.sources, source.doubled = false) →
        (∀ ext, (languageFiles w ext job.sources).files =
          (languageFiles w ext job'.sources).files) ∧ job.calls w = job'.calls w)) ∧
    ∀ (t : Toolchain) (o : CompileOptions) (run : Runner) (job : CompileJob) (s : Session),
      s.world = w → Delegate.LeavesJava t run job w →
        ∃ result s', (Delegate.dispatch t o run job).runIn s =
            (result.map fun _ => MixedMode.detect w job.sources, s') ∧
          Delegate.Issues t o run job s (job.calls w) (result, s') := by
  refine ⟨takesSets w, fun job job' hlike => ?_, fun htree hstanding job job' hlike => ?_, ?_⟩
  · exact ⟨MixedMode.detect_congr hlike.sources, fun _ => Scan.samePlaces_files hlike.sources,
      hlike.calls w⟩
  · have hplaces : ∀ ext, SamePlaces (languageFiles w ext job.sources).files
        (languageFiles w ext job'.sources).files := fun _ => Scan.samePlaces_files hlike.sources
    have hfiles := fun ext => (hplaces ext).alike
      (fun _ => exists_spelled_of_mem_languageFiles hstanding htree.named)
      (fun _ => exists_spelled_of_mem_languageFiles hstanding htree.named)
    have hcalls := DelegateCall.alike (hlike.calls w)
      (fun _ hcall _ => exists_spelled_of_mem_calls hstanding htree.named hcall)
      (fun _ hcall _ => exists_spelled_of_mem_calls hstanding htree.named hcall)
    refine ⟨⟨fun ext => (hfiles ext).1, hcalls.1⟩, fun hnone => ?_⟩
    have hboth : ∀ source ∈ job.sources ++ job'.sources, source.doubled = false := by
      intro source hin
      exact hnone source ((List.mem_append.1 hin).elim id (hlike.sources source).2)
    exact ⟨fun ext => (hfiles ext).2 hboth, hcalls.2 hboth⟩
  · rintro t o run job s rfl hleaves
    exact Delegate.exists_dispatch_issues fun _ => hleaves

/-! ### Entries that begin with two separators -/

namespace Delegate

/-- A directory with a Java file. -/
def sourceSession : Session where
  world := {
    nodes := [(["src"], .dir 0), (["A.java", "src"], .file ByteArray.empty 0 false)]
    cwd := []
    clock := 1 }
  journal := []

theorem standing_sourceSession : sourceSession.world.Standing := by
  intro loc hloc
  obtain rfl := List.suffix_nil.1 hloc
  rfl

/-- The directory in two spellings. -/
def doubledJob : CompileJob := ⟨[⟨"/src"⟩, ⟨"//src"⟩], ⟨"/out"⟩, []⟩

def doubledJob' : CompileJob := ⟨[⟨"//src"⟩, ⟨"/src"⟩], ⟨"/out"⟩, []⟩

theorem like_doubledJob : doubledJob.Like doubledJob' where
  sources _ := by simp [doubledJob, doubledJob', or_comm]
  target := rfl

/-- The order of two spellings of one directory can be seen in the arguments of a compiler. -/
theorem exists_dispatch_doubled :
    ¬ ∀ (t : Toolchain) (o : CompileOptions) (run : Runner) (job job' : CompileJob) (s : Session),
      job.Like job' → s.world.IsTree → s.world.Standing → LeavesJava t run job s.world →
        LeavesJava t run job' s.world → Runner.Records run → ∀ mode s₁ s₂,
          (dispatch t o run job).runIn s = (.ok mode, s₁) →
            (dispatch t o run job').runIn s = (.ok mode, s₂) → s₁.marks = s₂.marks := by
  intro hclaim
  rcases hrun : (dispatch default default notingRunner doubledJob).runIn sourceSession
    with ⟨result, s₁⟩
  rcases hrun' : (dispatch default default notingRunner doubledJob').runIn sourceSession
    with ⟨result', s₂⟩
  have hmodes : ((dispatch default default notingRunner doubledJob).runIn
      sourceSession).1 = .ok .withJava ∧ ((dispatch default default notingRunner doubledJob').runIn
        sourceSession).1 = .ok .withJava := by
    decide +kernel
  have hmarks : ((dispatch default default notingRunner doubledJob).runIn
      sourceSession).2.marks ≠ ((dispatch default default notingRunner doubledJob').runIn
        sourceSession).2.marks := by
    decide +kernel
  rw [hrun, hrun'] at hmodes hmarks
  obtain ⟨rfl, rfl⟩ := hmodes
  exact hmarks (hclaim default default notingRunner doubledJob doubledJob' sourceSession
    like_doubledJob (by decide) standing_sourceSession (leavesJava_notingRunner _ _ _)
    (leavesJava_notingRunner _ _ _) records_notingRunner _ s₁ s₂ hrun hrun')

/-- The directory and its file, and the same once more in another order. -/
theorem dispatch_takesSets_src :
    List.Forall₂ (DelegateCall.Along Path.SpelledAlike) [⟨.java, [⟨"/src/A.java"⟩]⟩]
        [⟨.java, [⟨"//src/A.java"⟩]⟩] ∧
      (CompileJob.mk [⟨"src"⟩, ⟨"/src/A.java"⟩] ⟨"/out"⟩ []).calls sourceSession.world =
        (CompileJob.mk [⟨"/src/A.java"⟩, ⟨"src"⟩, ⟨"/src/A.java"⟩] ⟨"/out"⟩ []).calls
          sourceSession.world := by
  obtain ⟨-, -, htexts, -⟩ := dispatch_takesSets sourceSession.world
  have hboth := htexts (by decide) standing_sourceSession
  have hcalls : doubledJob.calls sourceSession.world = [⟨.java, [⟨"/src/A.java"⟩]⟩] ∧
      doubledJob'.calls sourceSession.world = [⟨.java, [⟨"//src/A.java"⟩]⟩] := by
    decide +kernel
  have hdoubled := (hboth doubledJob doubledJob' like_doubledJob).1.2
  rw [hcalls.1, hcalls.2] at hdoubled
  have hlike : (CompileJob.mk [⟨"src"⟩, ⟨"/src/A.java"⟩] ⟨"/out"⟩ []).Like
      (CompileJob.mk [⟨"/src/A.java"⟩, ⟨"src"⟩, ⟨"/src/A.java"⟩] ⟨"/out"⟩ []) := by
    refine ⟨fun source => ?_, rfl⟩
    simp only [List.mem_cons, List.not_mem_nil, or_false]
    tauto
  exact ⟨hdoubled, ((hboth _ _ hlike).2 (by decide)).2⟩

end Delegate

end ClojureBuild
