import ClojureBuild.Proofs.Rules.Failure
import ClojureBuild.Proofs.World.Places
/-!
Copies stay in step with their sources.

The engine remembers nothing, so what carries the guarantee is a property of the files: the target
of a copy is missing, or holds the bytes of its source, or is older than its source.  Main
statement: over every history of edits and executions, each execution that succeeds leaves in every
target of a copy the bytes that its source holds.
-/

namespace ClojureBuild.Rules

open World

variable {ε : Type}

/-- The rules of a graph that copy. -/
def Graph.copies (g : Graph ε) : List Rule := g.rules.filter (·.action = .copy)

theorem Graph.mem_copies_iff {g : Graph ε} {r : Rule} :
    r ∈ g.copies ↔ r ∈ g.rules ∧ r.action = .copy := by
  simp [Graph.copies]

/-- Where the target of a rule stands. -/
def Rule.place (cwd : Location) (r : Rule) : Location := r.target.placeFrom cwd

/-- Where the source of a rule stands. -/
def Rule.origin (cwd : Location) (r : Rule) : Location := r.source.placeFrom cwd

/-- The places of the directories above the target of a rule. -/
def Rule.above (cwd : Location) (r : Rule) : List Location :=
  r.target.madeFor.map (·.placeFrom cwd)

/-- No target of a copy equals or lies above that of another, and none is a source. -/
structure Graph.Apart (cwd : Location) (g : Graph ε) : Prop where
  targets : ∀ r ∈ g.copies, ∀ r' ∈ g.copies, r ≠ r' →
    r.place cwd ≠ r'.place cwd ∧ r.place cwd ∉ r'.above cwd
  sources : ∀ r ∈ g.copies, ∀ r' ∈ g.copies, r.place cwd ≠ r'.origin cwd

/-- The world is one for the copies of a graph: the current directory stands, and no link is on the
way of a source or a target. -/
structure Graph.Fits (cwd : Location) (g : Graph ε) (w : World) : Prop where
  cwd : w.cwd = cwd
  standing : w.Standing
  sources : ∀ r ∈ g.copies, w.Unlinked r.source
  targets : ∀ r ∈ g.copies, w.Unlinked r.target
  above : ∀ r ∈ g.copies, ∀ q ∈ r.target.madeFor, w.Unlinked q

/-- The targets and sources of the copies were left alone between two worlds. -/
structure Graph.LeftAlone (cwd : Location) (g : Graph ε) (w w' : World) : Prop where
  fits : g.Fits cwd w'
  targets : ∀ r ∈ g.copies, w'.node? (r.place cwd) = w.node? (r.place cwd)
  sources : ∀ r ∈ g.copies, w'.node? (r.origin cwd) = w.node? (r.origin cwd)

/-- The actions leave the targets and sources of the copies alone, whether they succeed or fail. -/
def Graph.Harmless (cwd : Location) (g : Graph ε) : Prop :=
  ∀ action ∈ g.actions, ∀ s : Session, g.Fits cwd s.world →
    g.LeftAlone cwd s.world (action.task.runIn s).2.world

/-- A copy that fails leaves its target as it was. -/
def Graph.FailsCleanly (cwd : Location) (g : Graph ε) : Prop :=
  ∀ r ∈ g.copies, ∀ (s s' : Session) (e : Failure ε), g.Fits cwd s.world →
    s.world.isDirAt (r.place cwd) = false →
    (copyFile r.source r.target).runIn s = (.error e, s') →
    s'.world.node? (r.place cwd) = s.world.node? (r.place cwd)

/-- What happens to the files between executions: sources are edited, removed or created, and what
is written is later than the target made from it.  The targets stay. -/
structure Graph.Edited (cwd : Location) (g : Graph ε) (w w' : World) : Prop where
  fits : g.Fits cwd w'
  targets : ∀ r ∈ g.copies, w'.node? (r.place cwd) = w.node? (r.place cwd)
  sources : ∀ r ∈ g.copies, w'.node? (r.origin cwd) = w.node? (r.origin cwd) ∨
    w'.node? (r.origin cwd) = none ∨
    ∃ bytes t x, w'.node? (r.origin cwd) = some (.file bytes t x) ∧
      ∀ node, w.node? (r.place cwd) = some node → node.modified < t

/-- The sessions that edits and executions lead to, from one without any target. -/
inductive History (cwd : Location) (g : Graph ε) : Session → Prop
  | start {s : Session} (hfits : g.Fits cwd s.world)
      (habsent : ∀ r ∈ g.copies, s.world.node? (r.place cwd) = none) : History cwd g s
  | edit {s s' : Session} (hbefore : History cwd g s)
      (hedited : g.Edited cwd s.world s'.world) : History cwd g s'
  /-- The execution may succeed or fail. -/
  | execute {s : Session} (hbefore : History cwd g s) :
      History cwd g ((Rules.execute false g).runIn s).2

/-- The target of a rule holds the bytes of its source. -/
def Rule.Matches (cwd : Location) (r : Rule) (w : World) : Prop :=
  ∃ bytes, w.contentAt (r.origin cwd) = some bytes ∧ w.contentAt (r.place cwd) = some bytes

/-- What a copy leaves of a target: the bytes that the source held, or the device that was there. -/
def Rule.Copied (cwd : Location) (r : Rule) (w w' : World) : Prop :=
  (∃ bytes, w.contentAt (r.origin cwd) = some bytes ∧ w'.contentAt (r.place cwd) = some bytes) ∨
    ∃ t, w.node? (r.place cwd) = some (.device t) ∧ w'.node? (r.place cwd) = some (.device t)

/-- The target of a rule is missing; or it is a file, and its source is missing, or a file with the
same bytes, or a later file. -/
def Rule.InStep (cwd : Location) (r : Rule) (w : World) : Prop :=
  w.node? (r.place cwd) = none ∨
    ∃ bytes t x, w.node? (r.place cwd) = some (.file bytes t x) ∧
      (w.node? (r.origin cwd) = none ∨
        ∃ bytes' t' x', w.node? (r.origin cwd) = some (.file bytes' t' x') ∧
          (bytes' = bytes ∨ t < t'))

section

variable {cwd : Location} {r : Rule} {w w' : World}

theorem Rule.InStep.not_dir (h : r.InStep cwd w) : w.isDirAt (r.place cwd) = false := by
  rcases h with hnone | ⟨bytes, t, x, hfile, -⟩
  · rw [isDirAt, hnone]
    rfl
  · rw [isDirAt, hfile]
    rfl

theorem Rule.InStep.not_device (h : r.InStep cwd w) (t : Int) :
    w.node? (r.place cwd) ≠ some (.device t) := by
  rcases h with hnone | ⟨bytes, t', x, hfile, -⟩
  · simp [hnone]
  · simp [hfile]

theorem Rule.InStep.congr (h : r.InStep cwd w)
    (htarget : w'.node? (r.place cwd) = w.node? (r.place cwd))
    (hsource : w'.node? (r.origin cwd) = w.node? (r.origin cwd)) : r.InStep cwd w' := by
  rw [Rule.InStep, htarget, hsource]
  exact h

theorem Rule.Matches.congr (h : r.Matches cwd w)
    (htarget : w'.node? (r.place cwd) = w.node? (r.place cwd))
    (hsource : w'.node? (r.origin cwd) = w.node? (r.origin cwd)) : r.Matches cwd w' := by
  rw [Rule.Matches, contentAt_congr htarget, contentAt_congr hsource]
  exact h

theorem Rule.Matches.inStep (h : r.Matches cwd w) : r.InStep cwd w := by
  obtain ⟨bytes, horigin, hplace⟩ := h
  obtain ⟨t, x, hplace⟩ := contentAt_eq_some_iff.1 hplace
  obtain ⟨t', x', horigin⟩ := contentAt_eq_some_iff.1 horigin
  exact Or.inr ⟨bytes, t, x, hplace, Or.inr ⟨bytes, t', x', horigin, Or.inl rfl⟩⟩

/-- A target that is there and not older than its source holds the bytes of the source. -/
theorem Rule.InStep.matches_of_fresh (h : r.InStep cwd w) {source target : Node}
    (horigin : w.node? (r.origin cwd) = some source) (hplace : w.node? (r.place cwd) = some target)
    (hfresh : ¬ target.modified < source.modified) : r.Matches cwd w := by
  rcases h with hnone | ⟨bytes, t, x, hfile, hnone | ⟨bytes', t', x', hsource, hcases⟩⟩
  · rw [hplace] at hnone
    exact absurd hnone (by simp)
  · rw [horigin] at hnone
    exact absurd hnone (by simp)
  · rw [hplace] at hfile
    rw [horigin] at hsource
    obtain rfl := Option.some.inj hfile
    obtain rfl := Option.some.inj hsource
    rcases hcases with rfl | hlater
    · exact ⟨bytes', contentAt_eq_some_iff.2 ⟨t', x', horigin⟩,
        contentAt_eq_some_iff.2 ⟨t, x, hplace⟩⟩
    · exact absurd hlater hfresh

/-- A rule whose target stays is still in step, if its source is there and at most a directory
changes in its place. -/
theorem Rule.InStep.of_target_eq (h : r.InStep cwd w) (hthere : w.node? (r.origin cwd) ≠ none)
    (htarget : w'.node? (r.place cwd) = w.node? (r.place cwd))
    (hsource : w.isDirAt (r.origin cwd) = false →
      w'.node? (r.origin cwd) = w.node? (r.origin cwd)) : r.InStep cwd w' := by
  have hcases := h
  rcases hcases with hnone | ⟨bytes, t, x, hfile, hnone | ⟨bytes', t', x', hnode, -⟩⟩
  · exact Or.inl (htarget.trans hnone)
  · exact absurd hnone hthere
  · have hdir : w.isDirAt (r.origin cwd) = false := by
      rw [isDirAt, hnode]
      rfl
    exact h.congr htarget (hsource hdir)

/-- An edit keeps the rule in step, because what it writes is later than the target. -/
theorem Rule.InStep.edited {g : Graph ε} (h : r.InStep cwd w) (hr : r ∈ g.copies)
    (hedited : g.Edited cwd w w') : r.InStep cwd w' := by
  have htarget := hedited.targets r hr
  rcases hedited.sources r hr with hsource | hgone | ⟨bytes', t', x', hsource, hlater⟩
  · exact h.congr htarget hsource
  · rcases h with hnone | ⟨bytes, t, x, hfile, -⟩
    · exact Or.inl (htarget.trans hnone)
    · exact Or.inr ⟨bytes, t, x, htarget.trans hfile, Or.inl hgone⟩
  · rcases h with hnone | ⟨bytes, t, x, hfile, -⟩
    · exact Or.inl (htarget.trans hnone)
    · exact Or.inr ⟨bytes, t, x, htarget.trans hfile,
        Or.inr ⟨bytes', t', x', hsource, Or.inr (hlater _ hfile)⟩⟩

end

/-! ### One copy -/

/-- A copy first makes directories above its target.  Then it fails and leaves it at that, or the
file is copied. -/
theorem exists_of_copyFile {source target : Path} {s s' : Session}
    {result : Except (Failure ε) Unit} (hclear : ∀ q ∈ target.madeFor, s.world.Unlinked q)
    (h : (copyFile source target).runIn s = (result, s')) :
    ∃ mid, Footprint (fun _ => False) (· ∈ target.madeFor.map (·.placeFrom s.world.cwd))
        s.world mid ∧
      ((∃ e, result = .error e) ∧ s'.world = mid ∨
        result = .ok () ∧ (mid.copyFile source target).2 = .ok () ∧
          s'.world = (mid.copyFile source target).1) := by
  have hcopy : ∀ mid : Session,
      (Task.change (·.copyFile source target) (Failure.io target)).runIn mid = (result, s') →
        (∃ e, result = .error e) ∧ s'.world = mid.world ∨
          result = .ok () ∧ (mid.world.copyFile source target).2 = .ok () ∧
            s'.world = (mid.world.copyFile source target).1 := by
    intro mid hmid
    rw [Task.runIn_change, Prod.mk.injEq] at hmid
    obtain ⟨rfl, rfl⟩ := hmid
    cases hdone : (mid.world.copyFile source target).2 with
    | ok u => exact Or.inr ⟨rfl, rfl, rfl⟩
    | error cause => exact Or.inl ⟨⟨_, rfl⟩, eq_of_copyFile_error hdone⟩
  rw [copyFile] at h
  cases hparent : target.parent? with
  | none =>
      simp only [hparent] at h
      exact ⟨s.world, Footprint.refl _, hcopy s h⟩
  | some parent =>
      have hmadeFor : target.madeFor = ancestors parent := by
        rw [Path.madeFor, hparent]
        rfl
      have hfirst : Footprint (fun _ => False)
          (· ∈ target.madeFor.map (·.placeFrom s.world.cwd)) s.world
          (s.world.makeDirs parent).1 := by
        rw [hmadeFor] at hclear ⊢
        exact makeDirs_footprint hclear fun q hq => List.mem_map_of_mem hq
      simp only [hparent, Task.runIn_bind, Task.runIn_change] at h
      refine ⟨_, hfirst, ?_⟩
      cases hmade : (s.world.makeDirs parent).2 with
      | ok u =>
          rw [hmade] at h
          exact hcopy _ h
      | error cause =>
          rw [hmade] at h
          obtain ⟨rfl, rfl⟩ := Prod.mk.inj h
          exact Or.inl ⟨⟨_, rfl⟩, rfl⟩

section

variable {cwd : Location} {g : Graph ε} {r other : Rule} {s s' : Session}

/-- A copy writes to the place of its target, and makes directories above that. -/
theorem copy_footprint (hr : r ∈ g.copies) (hfits : g.Fits cwd s.world)
    {result : Except (Failure ε) Unit}
    (h : (copyFile r.source r.target).runIn s = (result, s')) :
    Footprint (· = r.place cwd) (· ∈ r.above cwd) s.world s'.world := by
  obtain ⟨mid, hfirst, hrest⟩ := exists_of_copyFile (hfits.above r hr) h
  rw [hfits.cwd] at hfirst
  have hmid : Footprint (· = r.place cwd) (· ∈ r.above cwd) s.world mid :=
    hfirst.mono (fun _ hnot => hnot.elim) (fun _ hin => hin)
  rcases hrest with ⟨-, hleft⟩ | ⟨-, -, hleft⟩
  · rw [hleft]
    exact hmid
  · rw [hleft]
    refine hmid.trans (copyFile_footprint (hmid.unlinked (hfits.targets r hr)) ?_)
    rw [hmid.cwd, hfits.cwd]
    rfl

/-- What is written elsewhere than at the current directory and above leaves the world fit for the
copies. -/
theorem Graph.Fits.of_footprint {written made : Location → Prop} {w w' : World}
    (hfits : g.Fits cwd w) (hprint : Footprint written made w w')
    (hwritten : ∀ loc, loc <:+ cwd → w.isDirAt loc = true → ¬ written loc) : g.Fits cwd w' := by
  refine ⟨hprint.cwd.trans hfits.cwd, fun loc hloc => ?_,
    fun q hq => hprint.unlinked (hfits.sources q hq),
    fun q hq => hprint.unlinked (hfits.targets q hq),
    fun q hq p hp => hprint.unlinked (hfits.above q hq p hp)⟩
  rw [hprint.cwd] at hloc
  have hstands := hfits.standing loc hloc
  rw [hfits.cwd] at hloc
  exact hprint.isDirAt (hwritten loc hloc hstands) hstands

theorem Graph.Fits.copy (hr : r ∈ g.copies) (hfits : g.Fits cwd s.world)
    (hdir : s.world.isDirAt (r.place cwd) = false) {result : Except (Failure ε) Unit}
    (h : (copyFile r.source r.target).runIn s = (result, s')) : g.Fits cwd s'.world := by
  refine hfits.of_footprint (copy_footprint hr hfits h) ?_
  rintro loc - hstands rfl
  rw [hdir] at hstands
  exact absurd hstands (by simp)

/-- A copy that succeeds goes to no directory, and leaves there the bytes of its source or the
device that it found. -/
theorem copied_of_copyFile (hr : r ∈ g.copies) (hfits : g.Fits cwd s.world)
    (hne : r.origin cwd ≠ r.place cwd)
    (h : (copyFile r.source r.target : Task (Failure ε) Unit).runIn s = (.ok (), s')) :
    s.world.isDirAt (r.place cwd) = false ∧ r.Copied cwd s.world s'.world := by
  obtain ⟨mid, hfirst, hrest⟩ := exists_of_copyFile (hfits.above r hr) h
  rcases hrest with ⟨⟨e, he⟩, -⟩ | ⟨-, hok, hleft⟩
  · exact absurd he (by simp)
  have hcwd : mid.cwd = cwd := hfirst.cwd.trans hfits.cwd
  have hstanding : mid.Standing := by
    intro loc hloc
    rw [hfirst.cwd] at hloc
    exact hfirst.isDirAt not_false (hfits.standing loc hloc)
  have hsource := hfirst.unlinked (hfits.sources r hr)
  have htarget := hfirst.unlinked (hfits.targets r hr)
  constructor
  · have hnot := isDirAt_of_copyFile htarget hok
    rw [hcwd] at hnot
    rw [Bool.eq_false_iff]
    intro hdir
    exact absurd (hnot.symm.trans (hfirst.isDirAt not_false hdir)) (by simp)
  · by_cases hdevice : ∃ t, mid.node? (r.target.placeFrom mid.cwd) = some (.device t)
    · obtain ⟨t, ht⟩ := hdevice
      rw [copyFile_of_device hstanding htarget ht] at hleft
      rw [hcwd] at ht
      refine Or.inr ⟨t, hfirst.node?_before not_false ht rfl, ?_⟩
      rw [hleft]
      exact ht
    · rw [← hcwd] at hne
      obtain ⟨bytes, hbytes, hcopied⟩ := contentAt_of_copyFile hstanding hsource htarget hne
        (fun t ht => hdevice ⟨t, ht⟩) hok
      rw [← hleft, hcwd] at hcopied
      rw [hcwd] at hbytes
      obtain ⟨t, x, hnode⟩ := contentAt_eq_some_iff.1 hbytes
      have hbefore := hfirst.node?_before not_false hnode rfl
      exact Or.inl ⟨bytes, contentAt_eq_some_iff.2 ⟨t, x, hbefore⟩, hcopied⟩

/-- A copy that succeeds brings its target up to its source. -/
theorem matches_of_copy (hr : r ∈ g.copies) (hapart : g.Apart cwd) (hfits : g.Fits cwd s.world)
    (hin : r.InStep cwd s.world)
    (h : (copyFile r.source r.target : Task (Failure ε) Unit).runIn s = (.ok (), s')) :
    r.Matches cwd s'.world := by
  have hne := hapart.sources r hr r hr
  rcases (copied_of_copyFile hr hfits hne.symm h).2 with ⟨bytes, hbytes, hcopied⟩ | ⟨t, ht, -⟩
  · obtain ⟨t, x, hnode⟩ := contentAt_eq_some_iff.1 hbytes
    have hkept := (copy_footprint hr hfits h).node?_eq hne.symm (isDirAt_of_contentAt hbytes)
      fun _ => hnode ▸ Option.some_ne_none _
    exact ⟨bytes, by rw [contentAt_congr hkept, hbytes], hcopied⟩
  · exact absurd ht (hin.not_device t)

/-- The world is one for the copies of a graph, each of them is in step, and their sources are
there. -/
structure Graph.Ready (cwd : Location) (g : Graph ε) (w : World) : Prop where
  fits : g.Fits cwd w
  inStep : ∀ r ∈ g.copies, r.InStep cwd w
  there : ∀ r ∈ g.copies, w.node? (r.origin cwd) ≠ none

theorem Graph.LeftAlone.ready {w w' : World} (h : g.LeftAlone cwd w w') (hready : g.Ready cwd w) :
    g.Ready cwd w' := by
  refine ⟨h.fits, fun r hr => (hready.inStep r hr).congr (h.targets r hr) (h.sources r hr),
    fun r hr => ?_⟩
  rw [h.sources r hr]
  exact hready.there r hr

theorem copy_source_eq (hr : r ∈ g.copies) (hother : other ∈ g.copies) (hapart : g.Apart cwd)
    (hready : g.Ready cwd s.world) (hfile : s.world.isDirAt (r.origin cwd) = false)
    {result : Except (Failure ε) Unit}
    (h : (copyFile other.source other.target).runIn s = (result, s')) :
    s'.world.node? (r.origin cwd) = s.world.node? (r.origin cwd) :=
  (copy_footprint hother hready.fits h).node?_eq (hapart.sources other hother r hr).symm hfile
    fun _ => hready.there r hr

theorem copy_target_eq (hr : r ∈ g.copies) (hother : other ∈ g.copies) (hne : r ≠ other)
    (hapart : g.Apart cwd) (hready : g.Ready cwd s.world) {result : Except (Failure ε) Unit}
    (h : (copyFile other.source other.target).runIn s = (result, s')) :
    s'.world.node? (r.place cwd) = s.world.node? (r.place cwd) := by
  obtain ⟨hplace, habove⟩ := hapart.targets r hr other hother hne
  exact (copy_footprint hother hready.fits h).node?_eq hplace (hready.inStep r hr).not_dir
    fun hin => absurd hin habove

/-- A copy, whether it succeeds or fails, leaves all copies in step. -/
theorem Graph.Ready.copy (hother : other ∈ g.copies) (hapart : g.Apart cwd)
    (hclean : g.FailsCleanly cwd) (hready : g.Ready cwd s.world) {result : Except (Failure ε) Unit}
    (h : (copyFile other.source other.target).runIn s = (result, s')) : g.Ready cwd s'.world := by
  have hdir := (hready.inStep other hother).not_dir
  refine ⟨hready.fits.copy hother hdir h, fun r hr => ?_, fun r hr => ?_⟩
  · have hsource := fun hfile => copy_source_eq hr hother hapart hready hfile h
    have hkept := fun htarget =>
      (hready.inStep r hr).of_target_eq (hready.there r hr) htarget hsource
    by_cases hsame : r = other
    · subst hsame
      cases result with
      | ok u => exact (matches_of_copy hr hapart hready.fits (hready.inStep r hr) h).inStep
      | error e => exact hkept (hclean r hr s s' e hready.fits hdir h)
    · exact hkept (copy_target_eq hr hother hsame hapart hready h)
  · cases hfile : s.world.isDirAt (r.origin cwd) with
    | false =>
        rw [copy_source_eq hr hother hapart hready hfile h]
        exact hready.there r hr
    | true =>
        have hprint := copy_footprint hother hready.fits h
        obtain ⟨t, ht⟩ := isDirAt_iff.1
          (hprint.isDirAt (hapart.sources other hother r hr).symm hfile)
        rw [ht]
        exact Option.some_ne_none _

/-- A target that was brought up to its source stays so while copies succeed. -/
theorem Rule.Matches.copy (hr : r ∈ g.copies) (hother : other ∈ g.copies) (hapart : g.Apart cwd)
    (hready : g.Ready cwd s.world) (hmatches : r.Matches cwd s.world)
    (h : (copyFile other.source other.target : Task (Failure ε) Unit).runIn s = (.ok (), s')) :
    r.Matches cwd s'.world := by
  by_cases hsame : r = other
  · subst hsame
    exact matches_of_copy hr hapart hready.fits (hready.inStep r hr) h
  · have hfile : s.world.isDirAt (r.origin cwd) = false := by
      obtain ⟨bytes, horigin, -⟩ := hmatches
      obtain ⟨t, x, hnode⟩ := contentAt_eq_some_iff.1 horigin
      rw [isDirAt, hnode]
      rfl
    exact hmatches.congr (copy_target_eq hr hother hsame hapart hready h)
      (copy_source_eq hr hother hapart hready hfile h)

/-! ### One execution -/

variable {entry : Entry} {deed : Deed}

/-- What is done about one entry leaves all copies in step. -/
theorem Graph.Ready.perform (hready : g.Ready cwd s.world) (hapart : g.Apart cwd)
    (hharmless : g.Harmless cwd) (hclean : g.FailsCleanly cwd)
    (hcopy : deed = .copy → entry.1 ∈ g.copies) {result : Except (Failure ε) Unit}
    (h : (Rules.perform g entry deed).runIn s = (result, s')) : g.Ready cwd s'.world := by
  rcases perform_cases h with hsame | ⟨action, haction, begun, ended, hbegun, hran, -⟩ |
    ⟨hdeed, begun, hbegun, hrun⟩
  · rw [hsame]
    exact hready
  · rw [← hbegun] at hready
    have halone := hharmless action haction begun hready.fits
    rw [hran] at halone
    exact halone.ready hready
  · rw [← hbegun] at hready
    exact hready.copy (hcopy hdeed) hapart hclean hrun

/-- A target that was brought up to its source stays so while the deeds succeed. -/
theorem Rule.Matches.perform (hr : r ∈ g.copies) (hready : g.Ready cwd s.world)
    (hapart : g.Apart cwd) (hharmless : g.Harmless cwd)
    (hcopy : deed = .copy → entry.1 ∈ g.copies) (hmatches : r.Matches cwd s.world)
    (h : (Rules.perform g entry deed).runIn s = (.ok (), s')) : r.Matches cwd s'.world := by
  rcases perform_cases h with hsame | ⟨action, haction, begun, ended, hbegun, hran, -⟩ |
    ⟨hdeed, begun, hbegun, hrun⟩
  · rw [hsame]
    exact hmatches
  · rw [← hbegun] at hready hmatches
    have halone := hharmless action haction begun hready.fits
    rw [hran] at halone
    exact hmatches.congr (halone.targets r hr) (halone.sources r hr)
  · rw [← hbegun] at hready hmatches
    exact hmatches.copy hr (hcopy hdeed) hapart hready hrun

theorem matches_of_perform (hr : entry.1 ∈ g.copies) (hready : g.Ready cwd s.world)
    (hapart : g.Apart cwd) (h : (Rules.perform g entry .copy).runIn s = (.ok (), s')) :
    entry.1.Matches cwd s'.world := by
  obtain ⟨begun, hbegun, hrun⟩ := exists_perform_copy g entry s
  rw [← hbegun] at hready
  rw [hrun] at h
  exact matches_of_copy hr hapart hready.fits (hready.inStep _ hr) h

theorem Graph.Ready.performEach {todo : List (Entry × Deed)} (hready : g.Ready cwd s.world)
    (hapart : g.Apart cwd) (hharmless : g.Harmless cwd) (hclean : g.FailsCleanly cwd)
    (hcopies : ∀ one ∈ todo, one.2 = .copy → one.1.1 ∈ g.copies) :
    g.Ready cwd ((Rules.performEach g todo).runIn s).2.world := by
  induction todo generalizing s with
  | nil => exact hready
  | cons one rest ih =>
      obtain ⟨entry, deed⟩ := one
      have hrest := fun other hother => hcopies other (List.mem_cons_of_mem _ hother)
      rw [Rules.performEach, Task.runIn_bind]
      rcases hfirst : (Rules.perform g entry deed).runIn s with ⟨result, mid⟩
      have hmid : g.Ready cwd mid.world :=
        hready.perform hapart hharmless hclean (hcopies _ List.mem_cons_self) hfirst
      cases result with
      | ok u => exact ih hmid hrest
      | error e => exact hmid

/-- A target is up to its source behind all deeds, if it was so before them, or is copied by one. -/
theorem matches_of_performEach {todo : List (Entry × Deed)} (hr : r ∈ g.copies)
    (hready : g.Ready cwd s.world) (hapart : g.Apart cwd) (hharmless : g.Harmless cwd)
    (hclean : g.FailsCleanly cwd) (hcopies : ∀ one ∈ todo, one.2 = .copy → one.1.1 ∈ g.copies)
    (hcovered : r.Matches cwd s.world ∨ ∃ one ∈ todo, one.1.1 = r ∧ one.2 = .copy)
    (h : (performEach g todo).runIn s = (.ok (), s')) : r.Matches cwd s'.world := by
  induction todo generalizing s with
  | nil =>
      cases h
      exact hcovered.resolve_right (by simp)
  | cons one rest ih =>
      obtain ⟨entry, deed⟩ := one
      have hrest := fun other hother => hcopies other (List.mem_cons_of_mem _ hother)
      have hcopy : deed = .copy → entry.1 ∈ g.copies := hcopies _ List.mem_cons_self
      rw [Rules.performEach] at h
      obtain ⟨⟨⟩, mid, hfirst, hnext⟩ := Task.runIn_bind_eq_ok h
      refine ih (hready.perform hapart hharmless hclean hcopy hfirst) hrest ?_ hnext
      rcases hcovered with hmatches | ⟨one, hone, rfl, hdeed⟩
      · exact Or.inl (hmatches.perform hr hready hapart hharmless hcopy hfirst)
      · rcases List.mem_cons.1 hone with rfl | hone
        · obtain rfl : deed = .copy := hdeed
          exact Or.inl (matches_of_perform hr hready hapart hfirst)
        · exact Or.inr ⟨one, hone, rfl, hdeed⟩

/-- Once the targets were looked at, every source is known to be there. -/
theorem Snapshot.ready {known : List Entry} {w : World}
    (hsnap : Snapshot ε false w g.rules known) (hfits : g.Fits cwd w)
    (hin : ∀ r ∈ g.copies, r.InStep cwd w) : g.Ready cwd w := by
  refine ⟨hfits, hin, fun r hr => ?_⟩
  obtain ⟨state, -, hseen⟩ := hsnap.exists_seen (Graph.mem_copies_iff.1 hr).1
  obtain ⟨made, hmade, -⟩ := check_eq_ok hseen
  obtain ⟨node, hnode, -⟩ := exists_of_modified (hfits.sources r hr) hmade
  rw [hfits.cwd] at hnode
  rw [Rule.origin, hnode]
  exact Option.some_ne_none node

/-- Only rules that copy are copied. -/
theorem mem_copies_of_zip {known : List Entry} {w : World}
    (hsnap : Snapshot ε false w g.rules known) :
    ∀ one ∈ known.zip (deeds known), one.2 = .copy → one.1.1 ∈ g.copies := by
  rintro ⟨entry, deed⟩ hone hdeed
  obtain rfl : deed = .copy := hdeed
  obtain ⟨i, hi⟩ := List.mem_iff_getElem?.1 hone
  obtain ⟨hentry, hdeeds⟩ := List.getElem?_zip_eq_some.1 hi
  obtain ⟨rule, hrule, -, hcopy⟩ := hsnap.deeds_eq_copy_iff.1 hdeeds
  rw [← hsnap.rules_eq, List.getElem?_map, hentry] at hrule
  obtain rfl : entry.1 = rule := Option.some.inj hrule
  refine Graph.mem_copies_iff.2 ⟨?_, hcopy⟩
  rw [← hsnap.rules_eq]
  exact List.mem_map_of_mem (List.mem_of_getElem? hentry)

/-- A copy that is in step matches already, or is carried out. -/
theorem matches_or_copied {known : List Entry} (hr : r ∈ g.copies)
    (hsnap : Snapshot ε false s.world g.rules known) (hready : g.Ready cwd s.world) :
    r.Matches cwd s.world ∨ ∃ one ∈ known.zip (deeds known), one.1.1 = r ∧ one.2 = .copy := by
  obtain ⟨hrule, hcopy⟩ := Graph.mem_copies_iff.1 hr
  obtain ⟨state, hentry, hseen⟩ := hsnap.exists_seen hrule
  cases hstale : state.isStale with
  | true =>
      right
      obtain ⟨i, hi⟩ := List.mem_iff_getElem?.1 hentry
      have hdeed : (deeds known)[i]? = some .copy := by
        rw [deeds, deedsAfter_getElem?, hi]
        exact congrArg some (deedFor_copy hstale hcopy)
      exact ⟨((r, state), .copy), List.mem_of_getElem? (List.getElem?_zip_eq_some.2 ⟨hi, hdeed⟩),
        rfl, rfl⟩
  | false =>
      left
      obtain ⟨made, hmade, ⟨-, hstate⟩ | ⟨-, kept, hkept, hstate⟩⟩ := check_eq_ok hseen
      · obtain rfl : state = .missing := hstate
        exact absurd hstale (by decide)
      · obtain ⟨source, hsource, rfl⟩ := exists_of_modified (hready.fits.sources r hr) hmade
        obtain ⟨target, htarget, rfl⟩ := exists_of_modified (hready.fits.targets r hr) hkept
        rw [hready.fits.cwd] at hsource htarget
        refine (hready.inStep r hr).matches_of_fresh hsource htarget fun holder => ?_
        obtain rfl : state = .outdated := hstate.trans (if_pos holder)
        exact absurd hstale (by decide)

/-- Where no target of a copy lies above itself, a copy that fails leaves its target as it was. -/
theorem failsCleanly_of_above (h : ∀ r ∈ g.copies, r.place cwd ∉ r.above cwd) :
    g.FailsCleanly cwd := by
  intro r hr s s' e hfits hdir hfails
  obtain ⟨mid, hfirst, hrest⟩ := exists_of_copyFile (hfits.above r hr) hfails
  rw [hfits.cwd] at hfirst
  have hmid : mid.node? (r.place cwd) = s.world.node? (r.place cwd) :=
    hfirst.node?_eq not_false hdir fun hin => absurd hin (h r hr)
  rcases hrest with ⟨-, hleft⟩ | ⟨hok, -⟩
  · rw [hleft, hmid]
  · exact absurd hok (by simp)

/-! ### Histories -/

/-- Over a whole history the world stays fit for the copies, and every copy in step. -/
theorem History.inStep (hapart : g.Apart cwd) (hharmless : g.Harmless cwd)
    (hclean : g.FailsCleanly cwd) (hhistory : History cwd g s) :
    g.Fits cwd s.world ∧ ∀ r ∈ g.copies, r.InStep cwd s.world := by
  induction hhistory with
  | start hfits habsent => exact ⟨hfits, fun r hr => Or.inl (habsent r hr)⟩
  | edit hbefore hedited ih => exact ⟨hedited.fits, fun r hr => (ih.2 r hr).edited hr hedited⟩
  | @execute s hbefore ih =>
      rw [execute_runIn]
      cases hstates : (states s.world false g.rules : Except (Failure ε) (List Freshness)) with
      | error e => exact ih
      | ok found =>
          have hsnap := Snapshot.of_states hstates
          have hready := (hsnap.ready ih.1 ih.2).performEach hapart hharmless hclean
            (mem_copies_of_zip hsnap)
          simp only [performAll]
          rcases hdone : (performEach g
            ((g.rules.zip found).zip (deeds (g.rules.zip found)))).runIn s with ⟨result, left⟩
          rw [hdone] at hready
          cases result <;> exact ⟨hready.fits, hready.inStep⟩

/-- After an execution that succeeds, whatever edits and executions went before it, every target of
a copy holds the bytes of its source. -/
theorem copies_in_step (hapart : g.Apart cwd) (hharmless : g.Harmless cwd)
    (hclean : g.FailsCleanly cwd) (hhistory : History cwd g s) {report : Report}
    (hrun : (execute false g).runIn s = (.ok report, s')) :
    ∀ r ∈ g.copies, r.Matches cwd s'.world := by
  intro r hr
  obtain ⟨hfits, hin⟩ := hhistory.inStep hapart hharmless hclean
  obtain ⟨known, hsnap, hdone, -⟩ := exists_snapshot_of_execute hrun
  have hready := hsnap.ready hfits hin
  exact matches_of_performEach hr hready hapart hharmless hclean (mem_copies_of_zip hsnap)
    (matches_or_copied hr hsnap hready) hdone

end

/-- The session with a file written. -/
def edited (s : Session) (place : Location) (bytes : ByteArray) (t : Int) : Session :=
  { s with world := s.world.put place (.file bytes t false) }

/-- Writing a file is an edit, if it is no target and later than the targets made from it. -/
theorem edited_of_later {cwd : Location} {g : Graph ε} {s : Session} {place : Location}
    {bytes : ByteArray} {t : Int} (hfits : g.Fits cwd s.world)
    (hcwd : ∀ loc, loc <:+ cwd → loc ≠ place) (hplace : ∀ r ∈ g.copies, place ≠ r.place cwd)
    (hlater : ∀ r ∈ g.copies, place = r.origin cwd →
      ∀ node, s.world.node? (r.place cwd) = some node → node.modified < t) :
    g.Edited cwd s.world (edited s place bytes t).world := by
  have hprint : Footprint (· = place) (fun _ => False) s.world (edited s place bytes t).world :=
    put_footprint rfl rfl
  refine ⟨hfits.of_footprint hprint fun loc hloc _ => hcwd loc hloc, fun r hr => ?_,
    fun r hr => ?_⟩
  · rw [edited, node?_put, if_neg (hplace r hr)]
  · by_cases hsource : place = r.origin cwd
    · refine Or.inr (Or.inr ⟨bytes, t, false, ?_, hlater r hr hsource⟩)
      rw [edited, node?_put, if_pos hsource]
    · left
      rw [edited, node?_put, if_neg hsource]

/-- Two copies and, between them, an action that writes elsewhere and fails the first time. -/
def stepGraph : Graph Unit :=
  let write : Action Unit := ⟨"write", Task.change (fun w =>
    (w.put ["x"] (.file ByteArray.empty w.clock false),
      if (w.node? ["x"]).isSome then .ok () else .error .notFound)) (fun _ => ())⟩
  (((Graph.empty.addAction write).1.copy ⟨"/s/a"⟩ ⟨"/t/a"⟩).depend ⟨"/x"⟩ ⟨"/s/a"⟩ 0).copy
    ⟨"/s/b"⟩ ⟨"/t/b"⟩

/-- What an execution leaves of two sources: its action fails behind the first copy. -/
def brokenSession : Session :=
  ((execute false stepGraph).runIn ⟨⟨[(["s"], .dir 0), (["a", "s"], .file ⟨#[1]⟩ 5 false),
    (["b", "s"], .file ⟨#[2]⟩ 5 false)], [], 10⟩, []⟩).2

/-- The first source is changed behind its copy, and the second was not copied yet. -/
def changedSession : Session := edited brokenSession ["a", "s"] ⟨#[3]⟩ 11

theorem stepGraph_places : ∀ r ∈ stepGraph.copies, r.place [] ≠ ["x"] ∧ r.origin [] ≠ ["x"] ∧
    r.place [] ∉ r.above [] ∧ r.place [] ≠ ["a", "s"] := by
  decide

theorem stepGraph_apart : stepGraph.Apart [] := ⟨by decide, by decide⟩

theorem stepGraph_failsCleanly : stepGraph.FailsCleanly [] :=
  failsCleanly_of_above fun r hr => (stepGraph_places r hr).2.2.1

theorem stepGraph_harmless : stepGraph.Harmless [] := by
  intro action haction s hfits
  obtain rfl := List.mem_singleton.1 haction
  have hprint : Footprint (· = ["x"]) (fun _ => False) s.world
      (s.world.put ["x"] (.file ByteArray.empty s.world.clock false)) := put_footprint rfl rfl
  refine ⟨hfits.of_footprint hprint ?_, fun r hr => ?_, fun r hr => ?_⟩
  · rintro loc hloc - rfl
    exact absurd (List.suffix_nil.1 hloc) (by decide)
  · exact (node?_put ..).trans (if_neg (stepGraph_places r hr).1.symm)
  · exact (node?_put ..).trans (if_neg (stepGraph_places r hr).2.1.symm)

theorem history_broken : History [] stepGraph brokenSession := by
  have hfree : World.LinkFree ⟨[(["s"], .dir 0), (["a", "s"], .file ⟨#[1]⟩ 5 false),
      (["b", "s"], .file ⟨#[2]⟩ 5 false)], [], 10⟩ := by
    decide
  refine .execute (.start ⟨rfl, fun loc hloc => ?_, fun r _ => hfree.unlinked _,
    fun r _ => hfree.unlinked _, fun r _ q _ => hfree.unlinked q⟩ (by decide))
  obtain rfl := List.suffix_nil.1 hloc
  rfl

theorem history_changed : History [] stepGraph changedSession := by
  have hfits := (history_broken.inStep stepGraph_apart stepGraph_harmless stepGraph_failsCleanly).1
  have holder : ∀ r ∈ stepGraph.copies,
      (brokenSession.world.node? (r.place [])).all (·.modified < 11) = true := by decide +kernel
  refine .edit history_broken
    (edited_of_later hfits ?_ (fun r hr => (stepGraph_places r hr).2.2.2.symm) ?_)
  · intro loc hloc
    rw [List.suffix_nil.1 hloc]
    exact (List.cons_ne_nil _ _).symm
  · intro r hr _ node hnode
    have hearlier := holder r hr
    rw [hnode] at hearlier
    exact of_decide_eq_true hearlier

theorem copies_in_step_changed :
    Rule.Matches [] ⟨⟨"/t/a"⟩, ⟨"/s/a"⟩, .copy⟩
        ((execute false stepGraph).runIn changedSession).2.world ∧
      Rule.Matches [] ⟨⟨"/t/b"⟩, ⟨"/s/b"⟩, .copy⟩
        ((execute false stepGraph).runIn changedSession).2.world := by
  have hreport : ((execute false stepGraph).runIn changedSession).1 =
      .ok ⟨[], [⟨"/x"⟩], [⟨"/t/a"⟩, ⟨"/t/b"⟩], 1⟩ := by decide +kernel
  rcases hrun : (execute false stepGraph).runIn changedSession with ⟨result, left⟩
  rw [hrun] at hreport
  obtain rfl : result = .ok _ := hreport
  have hall := copies_in_step stepGraph_apart stepGraph_harmless stepGraph_failsCleanly
    history_changed hrun
  exact ⟨hall _ (by decide), hall _ (by decide)⟩

end ClojureBuild.Rules
