import ClojureBuild.Proofs.Rules.Failure
import ClojureBuild.Proofs.World.Times
/-!
What a successful execution settles.

After an execution that succeeds, forced or not, no target is older than its source was at the
start, as long as the actions make the targets that name them and spare those of the other rules.
An execution has nothing to do exactly when every target is up to date.
-/

namespace ClojureBuild.Rules

open World (Spares SparesWithin)

variable {ε : Type} {g : Graph ε}

/-! ### What every deed does -/

section

variable {R : World → World → Prop} [IsPreorder World R]

theorem copyFile_moves {source target : Path}
    (hmake : ∀ parent, target.parent? = some parent → ∀ w, R w (w.makeDirs parent).1)
    (hcopy : ∀ w, R w (w.copyFile source target).1) :
    Task.Moves R (copyFile source target : Task (Failure ε) Unit) := by
  rw [copyFile]
  cases hparent : target.parent? with
  | none => exact .change _ hcopy
  | some parent => exact .bind (.change _ (hmake parent hparent)) fun _ => .change _ hcopy

/-- What copying and the actions do, every deed does. -/
theorem perform_moves (hactions : ∀ action ∈ g.actions, Task.Moves R action.task) {entry : Entry}
    {deed : Deed} (hcopy : deed = .copy →
      Task.Moves R (copyFile entry.1.source entry.1.target : Task (Failure ε) Unit)) :
    Task.Moves R (perform g entry deed) := by
  intro s
  rcases hrun : (perform g entry deed).runIn s with ⟨result, s'⟩
  rcases perform_cases hrun with hsame | ⟨action, haction, begun, ended, hbegun, hran, -⟩ |
    ⟨hdeed, begun, hbegun, hran⟩
  · change R s.world s'.world
    exact hsame.symm ▸ Std.Refl.refl s.world
  · have hmoved := hactions action haction begun
    rwa [hran, hbegun] at hmoved
  · have hmoved := hcopy hdeed begun
    rwa [hran, hbegun] at hmoved

/-! ### What deeds that end well do -/

theorem perform_yields (hactions : ∀ action ∈ g.actions, Task.Yields R action.task) {entry : Entry}
    {deed : Deed} (hcopy : deed = .copy →
      Task.Yields R (copyFile entry.1.source entry.1.target : Task (Failure ε) Unit)) :
    Task.Yields R (perform g entry deed) := by
  intro s a s' hrun
  rcases perform_cases hrun with hsame | ⟨action, haction, begun, ended, hbegun, hran, hended⟩ |
    ⟨hdeed, begun, hbegun, hran⟩
  · exact hsame.symm ▸ Std.Refl.refl s.world
  · rw [Task.mapError_eq_ok_iff.1 hended.symm] at hran
    exact hbegun ▸ hactions action haction begun () s' hran
  · exact hbegun ▸ hcopy hdeed begun a s' hran

theorem performEach_yields {todo : List (Entry × Deed)}
    (hperform : ∀ one ∈ todo, Task.Yields R (perform g one.1 one.2)) :
    Task.Yields R (performEach g todo) := by
  induction todo with
  | nil =>
      intro s a s' hrun
      obtain rfl := (Prod.mk.inj hrun).2
      exact Std.Refl.refl s.world
  | cons one rest ih =>
      intro s a s' hrun
      obtain ⟨⟨⟩, mid, hfirst, hrest⟩ := Task.runIn_bind_eq_ok hrun
      exact Trans.trans (hperform one List.mem_cons_self s () mid hfirst)
        (ih (fun other hother => hperform other (List.mem_cons_of_mem one hother)) mid a s' hrest)

/-- Deeds that all end well did each of them, with others before and after it. -/
theorem exists_of_performEach {todo : List (Entry × Deed)}
    (hperform : ∀ one ∈ todo, Task.Yields R (perform g one.1 one.2)) {s s' : Session}
    (h : (performEach g todo).runIn s = (.ok (), s')) {entry : Entry} {deed : Deed}
    (hone : (entry, deed) ∈ todo) :
    ∃ before after, R s.world before.world ∧
      (perform g entry deed).runIn before = (.ok (), after) ∧ R after.world s'.world := by
  induction todo generalizing s with
  | nil => exact absurd hone List.not_mem_nil
  | cons first rest ih =>
      have hlater := fun one hone => hperform one (List.mem_cons_of_mem first hone)
      obtain ⟨⟨⟩, mid, hfirst, hrest⟩ := Task.runIn_bind_eq_ok h
      rcases List.mem_cons.1 hone with rfl | hone
      · exact ⟨s, mid, Std.Refl.refl s.world, hfirst, performEach_yields hlater mid () s' hrest⟩
      · have hmid := hperform first List.mem_cons_self s () mid hfirst
        obtain ⟨before, after, hbefore, hdone, hafter⟩ := ih hlater hrest hone
        exact ⟨before, after, Trans.trans hmid hbefore, hdone, hafter⟩

end

/-! ### Fresh targets -/

/-- A target is fresh exactly when it is there and not older than its source. -/
theorem check_eq_fresh_iff {w : World} {source target : Path} {made : Int}
    (hmade : w.modified source = .ok made) :
    Freshness.check w source target = (.ok .fresh : Except (Failure ε) Freshness) ↔
      w.Holds target made := by
  constructor
  · intro h
    obtain ⟨made', hmade', ⟨-, hmissing⟩ | ⟨-, kept, hkept, hstate⟩⟩ := check_eq_ok h
    · exact absurd hmissing (by simp)
    · obtain rfl := Except.ok.inj (hmade.symm.trans hmade')
      refine ⟨kept, hkept, Int.not_lt.1 fun hlt => ?_⟩
      rw [if_pos hlt] at hstate
      exact absurd hstate (by simp)
  · rintro ⟨kept, hkept, hle⟩
    obtain ⟨found, hfound, -⟩ := Task.exists_of_bind_eq_ok hkept
    have hexists : w.pathExists target = true := by rw [World.pathExists, hfound]
    rw [Freshness.check, hmade, hexists, hkept]
    exact congrArg Except.ok (if_neg (Int.not_lt.2 hle))

theorem eq_fresh_of_isStale {state : Freshness} (h : state.isStale = false) : state = .fresh := by
  cases state <;> simp_all [Freshness.isStale]

theorem exists_run_of_needs {known : List Entry} {n : Nat} (h : ∃ e ∈ known, e.needs n) :
    ∃ entry, (entry, Deed.run n) ∈ known.zip (deeds known) := by
  have hruns : n ∈ runs [] known := mem_runs_iff.2 ⟨h, fun e he => absurd he List.not_mem_nil⟩
  obtain ⟨deed, hdeed, hrun⟩ := List.mem_filterMap.1 hruns
  obtain rfl := Deed.action?_eq_some_iff.1 hrun
  obtain ⟨i, hi⟩ := List.mem_iff_getElem?.1 hdeed
  have hknown := hi
  rw [deedsAfter_getElem?] at hknown
  obtain ⟨entry, hentry, -⟩ := Option.map_eq_some_iff.1 hknown
  exact ⟨entry, List.mem_iff_getElem?.2 ⟨i, List.getElem?_zip_eq_some.2 ⟨hentry, hi⟩⟩⟩

/-! ### What a deed settles -/

/-- Whenever a task succeeds in a world of some kind, what a path leads to afterwards was changed
since it began. -/
def Writes (kind : World → Prop) (p : Path) {δ : Type} (task : Task δ Unit) : Prop :=
  ∀ before after, kind before.world → task.runIn before = (.ok (), after) →
    after.world.Holds p before.world.clock

/-- The target of a copy that was done has the time of the copy, unless a device is there. -/
theorem holds_of_copyFile {source target : Path} {before after : Session}
    (hstanding : before.world.Standing)
    (hdevice : ∀ {w}, World.Renewed before.world w → ¬ w.LeadsToDevice target)
    (h : (copyFile source target : Task (Failure ε) Unit).runIn before = (.ok (), after)) :
    after.world.Holds target before.world.clock := by
  have hlast : ∀ {mid : Session}, World.Renewed before.world mid.world →
      (Task.change (·.copyFile source target) (Failure.io target) : Task (Failure ε) Unit).runIn
        mid = (.ok (), after) → after.world.Holds target before.world.clock := by
    intro mid hmid hcopy
    rw [Task.runIn_change, Prod.mk.injEq] at hcopy
    obtain ⟨hresult, rfl⟩ := hcopy
    rw [← hmid.clock]
    exact World.holds_copyFile (hmid.standing hstanding) (hdevice hmid)
      (Task.mapError_eq_ok_iff.1 hresult)
  rw [copyFile] at h
  cases hparent : target.parent? with
  | none =>
      simp only [hparent] at h
      exact hlast (Std.Refl.refl _) h
  | some parent =>
      simp only [hparent] at h
      obtain ⟨⟨⟩, mid, hmake, hcopy⟩ := Task.runIn_bind_eq_ok h
      obtain ⟨-, rfl⟩ := Prod.mk.inj hmake
      exact hlast (World.makeDirs_renewed before.world parent) hcopy

/-- A path is the target of a rule. -/
def Graph.Targets (g : Graph ε) (p : Path) : Prop := ∃ rule ∈ g.rules, rule.target = p

/-- In worlds of some kind, what the actions and copies of a graph do when they succeed spares all
targets and makes those of their own rules. -/
structure Graph.Steady (kind : World → Prop) (g : Graph ε) : Prop where
  actions : ∀ action ∈ g.actions, Task.Yields (SparesWithin kind g.Targets) action.task
  copies : ∀ rule ∈ g.rules, rule.action = .copy → Task.Yields (SparesWithin kind g.Targets)
    (copyFile rule.source rule.target : Task (Failure ε) Unit)
  made : ∀ rule ∈ g.rules, ∀ n, rule.action = .invoke n →
    ∃ action, g.actions[n]? = some action ∧ Writes kind rule.target action.task
  copied : ∀ rule ∈ g.rules, rule.action = .copy →
    Writes kind rule.target (copyFile rule.source rule.target : Task (Failure ε) Unit)

section

variable {kind : World → Prop} {force : Bool} {s s' : Session} {report : Report}

theorem Graph.Steady.perform (hsteady : g.Steady kind) {known : List Entry}
    (hsnap : Snapshot ε force s.world g.rules known) : ∀ one ∈ known.zip (deeds known),
      Task.Yields (SparesWithin kind g.Targets) (Rules.perform g one.1 one.2) := by
  intro one hone
  obtain ⟨hentry, front, hdeed⟩ := exists_of_mem_zip_deedsAfter hone
  refine perform_yields hsteady.actions fun hcopy => hsteady.copies _ ?_ ?_
  · exact hsnap.rules_eq ▸ List.mem_map_of_mem hentry
  · exact (deedFor_eq_copy_iff.1 (hdeed.symm.trans hcopy)).2

theorem Graph.Steady.execute (hsteady : g.Steady kind)
    (hrun : (Rules.execute force g).runIn s = (.ok report, s')) :
    SparesWithin kind g.Targets s.world s'.world := by
  obtain ⟨known, hsnap, hdone, -⟩ := exists_snapshot_of_execute hrun
  exact performEach_yields (hsteady.perform hsnap) s () s' hdone

/-- When deeds all end well, what one of them leaves no older than it began is left so by the
others. -/
theorem Graph.Steady.holds_of_deed (hsteady : g.Steady kind) {known : List Entry}
    (hsnap : Snapshot ε force s.world g.rules known) (hkind : kind s.world)
    (hdone : (performAll g known).runIn s = (.ok (), s')) {entry : Entry} {deed : Deed}
    (hone : (entry, deed) ∈ known.zip (deeds known)) {p : Path} (hp : g.Targets p)
    (hwrites : Writes kind p (Rules.perform g entry deed)) {made : Int}
    (hpast : made ≤ s.world.clock) : s'.world.Holds p made := by
  have hperform := hsteady.perform hsnap
  obtain ⟨before, after, hbefore, hran, hafter⟩ := exists_of_performEach hperform hdone hone
  have hstep := hperform _ hone before () after hran
  have hkindBefore := hbefore.stays hkind
  have hclock : made ≤ before.world.clock := Int.le_trans hpast (hbefore.clock hkind)
  refine hafter.holds (hstep.stays hkindBefore) hp
    (Int.le_trans hclock (hstep.clock hkindBefore)) ?_
  exact (hwrites before after hkindBefore hran).mono hclock

/-- After a successful execution no target is older than its source was at the start. -/
theorem Graph.Steady.holds_of_execute (hsteady : g.Steady kind) (hkind : kind s.world)
    (hrun : (Rules.execute force g).runIn s = (.ok report, s')) {rule : Rule}
    (hrule : rule ∈ g.rules) {made : Int} (hmade : s.world.modified rule.source = .ok made)
    (hpast : made ≤ s.world.clock) : s'.world.Holds rule.target made := by
  have htarget : g.Targets rule.target := ⟨rule, hrule, rfl⟩
  obtain ⟨known, hsnap, hdone, -⟩ := exists_snapshot_of_execute hrun
  have hrule' := hrule
  rw [← hsnap.rules_eq] at hrule'
  obtain ⟨entry, hentry, rfl⟩ := List.mem_map.1 hrule'
  cases hstale : entry.2.isStale with
  | false =>
      -- The target was fresh already, and is spared.
      have hseen := hsnap.seen entry hentry
      rw [Entry.Seen, eq_fresh_of_isStale hstale] at hseen
      split at hseen
      · exact absurd hseen (by simp)
      · exact (hsteady.execute hrun).holds hkind htarget hpast ((check_eq_fresh_iff hmade).1 hseen)
  | true =>
      cases haction : entry.1.action with
      | copy =>
          obtain ⟨front, hone⟩ := exists_mem_zip_deeds hentry
          rw [deedFor_eq_copy_iff.2 ⟨hstale, haction⟩] at hone
          refine hsteady.holds_of_deed hsnap hkind hdone hone htarget ?_ hpast
          intro before after hbefore hran
          obtain ⟨⟨⟩, mid, hlog, hcopy⟩ := Task.runIn_bind_eq_ok hran
          have hworld : before.world = mid.world := by rw [← (Prod.mk.inj hlog).2]
          rw [hworld] at hbefore ⊢
          exact hsteady.copied _ hrule haction mid after hbefore hcopy
      | invoke n =>
          -- The action may have run for another entry.
          obtain ⟨other, hone⟩ := exists_run_of_needs ⟨entry, hentry, hstale, haction⟩
          obtain ⟨action, hfound, hwrites⟩ := hsteady.made _ hrule n haction
          refine hsteady.holds_of_deed hsnap hkind hdone hone htarget ?_ hpast
          intro before after hbefore hran
          rw [Rules.perform, hfound] at hran
          obtain ⟨⟨⟩, mid, hlog, htask⟩ := Task.runIn_bind_eq_ok hran
          have hworld : before.world = mid.world := by rw [← (Prod.mk.inj hlog).2]
          rw [hworld] at hbefore ⊢
          exact hwrites mid after hbefore (Task.runIn_mapError_eq_ok_iff.1 htask)

end

/-- The action of a rule is there, and makes the target whenever it succeeds. -/
def Graph.Makes (g : Graph ε) (rule : Rule) : Prop :=
  ∀ n, rule.action = .invoke n → ∃ action, g.actions[n]? = some action ∧
    ∀ before after, action.task.runIn before = (.ok (), after) →
      after.world.Holds rule.target before.world.clock

/-- Where nothing is a device, actions that spare the targets and make those of their rules do
enough: the copies do their part. -/
theorem Graph.steady_of_spares
    (hspares : ∀ action ∈ g.actions, Task.Moves (Spares g.Targets) action.task)
    (hmakes : ∀ rule ∈ g.rules, g.Makes rule) : g.Steady World.Ordinary where
  actions action haction := (hspares action haction).yields.mono fun _ _ h => h.within
  copies rule _ _ := Task.Moves.yields <| copyFile_moves
    (fun parent _ w => ((World.makeDirs_renewed w parent).spares g.Targets).within)
    fun w => ((World.copyFile_renewed w rule.source rule.target).spares g.Targets).within
  made rule hrule n haction := by
    obtain ⟨action, hfound, hmade⟩ := hmakes rule hrule n haction
    exact ⟨action, hfound, fun before after _ => hmade before after⟩
  copied rule _ _ _ _ hordinary := holds_of_copyFile hordinary.standing
    fun hrenewed => (hrenewed.ordinary hordinary).not_leadsToDevice rule.target

theorem exists_modified_of_execute {s s' : Session} {report : Report}
    (hrun : (execute false g).runIn s = (.ok report, s')) {rule : Rule} (hrule : rule ∈ g.rules) :
    ∃ made, s.world.modified rule.source = .ok made := by
  obtain ⟨known, hsnap, -, -⟩ := exists_snapshot_of_execute hrun
  exact exists_states_iff.1 ⟨_, hsnap.states_eq⟩ rule hrule

/-! ### Nothing to do -/

/-- The rules of a graph can be carried out, and there is nothing to do about any of them. -/
def Graph.Idle (g : Graph ε) (s : Session) : Prop :=
  ∃ report s', (execute false g).runIn s = (.ok report, s') ∧ s'.world = s.world ∧
    report.isNoop = true

/-- What the first look finds fresh is not stale. -/
theorem staleIn_eq_false_iff {s s' : Session} {report : Report}
    (hrun : (execute false g).runIn s = (.ok report, s')) {rule : Rule} (hrule : rule ∈ g.rules) :
    rule.staleIn false s.world = false ↔ Freshness.check s.world rule.source rule.target =
      (.ok .fresh : Except (Failure ε) Freshness) := by
  obtain ⟨known, hsnap, -, -⟩ := exists_snapshot_of_execute hrun
  obtain ⟨state, -, hseen⟩ := hsnap.exists_seen hrule
  rw [← hseen.isStale]
  constructor
  · intro hfresh
    rwa [Entry.Seen, eq_fresh_of_isStale hfresh] at hseen
  · intro hfresh
    obtain hstate := Except.ok.inj (hseen.symm.trans hfresh)
    rw [hstate]
    rfl

/-- An execution that succeeds reports that nothing was rebuilt or copied exactly when every target
was fresh.  Then no action ran. -/
theorem isNoop_iff_of_execute {s s' : Session} {report : Report}
    (hrun : (execute false g).runIn s = (.ok report, s')) :
    report.isNoop = true ↔ ∀ rule ∈ g.rules, Freshness.check s.world rule.source rule.target =
      (.ok .fresh : Except (Failure ε) Freshness) := by
  rw [report_eq_of_execute hrun, Report.isNoop, Bool.and_eq_true, List.isEmpty_iff,
    List.isEmpty_iff, List.map_eq_nil_iff, List.map_eq_nil_iff, List.filter_eq_nil_iff,
    List.filter_eq_nil_iff]
  constructor
  · rintro ⟨hrebuilt, hcopied⟩ rule hrule
    refine (staleIn_eq_false_iff hrun hrule).1 ?_
    cases hinvokes : rule.invokes with
    | true => simpa [hinvokes] using hrebuilt rule hrule
    | false => simpa [hinvokes] using hcopied rule hrule
  · intro hfresh
    have hstale : ∀ rule ∈ g.rules, rule.staleIn false s.world = false :=
      fun rule hrule => (staleIn_eq_false_iff hrun hrule).2 (hfresh rule hrule)
    exact ⟨fun rule hrule => by simp [hstale rule hrule],
      fun rule hrule => by simp [hstale rule hrule]⟩

theorem actionsRun_eq_zero_of_isNoop {s s' : Session} {report : Report}
    (hrun : (execute false g).runIn s = (.ok report, s')) (hnoop : report.isNoop = true) :
    report.actionsRun = 0 := by
  have hnone : g.rules.filterMap (Rule.staleAction? false s.world) = [] := by
    rw [List.filterMap_eq_nil_iff]
    intro rule hrule
    have hfresh := (isNoop_iff_of_execute hrun).1 hnoop rule hrule
    rw [Rule.staleAction?, (staleIn_eq_false_iff hrun hrule).2 hfresh]
  rw [report_eq_of_execute hrun, hnone]
  rfl

/-- Where all targets are fresh, all are reported so, in the order of the rules. -/
theorem report_eq_of_fresh {s s' : Session} {report : Report}
    (hrun : (execute false g).runIn s = (.ok report, s')) (hfresh : ∀ rule ∈ g.rules,
      Freshness.check s.world rule.source rule.target =
        (.ok .fresh : Except (Failure ε) Freshness)) :
    report = ⟨g.rules.map (·.target), [], [], 0⟩ := by
  have hnoop := (isNoop_iff_of_execute hrun).2 hfresh
  have hnone := actionsRun_eq_zero_of_isNoop hrun hnoop
  rw [Report.isNoop, Bool.and_eq_true, List.isEmpty_iff, List.isEmpty_iff] at hnoop
  have hall : report.fresh = g.rules.map (·.target) := by
    rw [report_eq_of_execute hrun]
    refine congrArg (List.map _) (List.filter_eq_self.2 fun rule hrule => ?_)
    rw [(staleIn_eq_false_iff hrun hrule).2 (hfresh rule hrule)]
    rfl
  calc report = ⟨report.fresh, report.rebuilt, report.copied, report.actionsRun⟩ := rfl
    _ = ⟨g.rules.map (·.target), [], [], 0⟩ := by rw [hall, hnoop.1, hnoop.2, hnone]

/-- Where all targets are fresh, they are passed over and reported, and no more is done. -/
theorem execute_of_fresh {s : Session} (hfresh : ∀ rule ∈ g.rules,
    Freshness.check s.world rule.source rule.target =
      (.ok .fresh : Except (Failure ε) Freshness)) :
    (execute false g).runIn s = (.ok ⟨g.rules.map (·.target), [], [], 0⟩,
      { s with journal := s.journal ++ g.rules.map Rule.upToDate }) := by
  let known : List Entry := g.rules.map fun rule => (rule, .fresh)
  have hsnap : Snapshot ε false s.world g.rules known := by
    refine ⟨by rw [List.map_map]; exact List.map_id _, fun entry hentry => ?_⟩
    obtain ⟨rule, hrule, rfl⟩ := List.mem_map.1 hentry
    exact hfresh rule hrule
  have hpass : ∀ one ∈ known.zip (deeds known), one.2 = .pass := by
    intro one hone
    obtain ⟨hentry, front, hdeed⟩ := exists_of_mem_zip_deedsAfter hone
    obtain ⟨rule, -, hrule⟩ := List.mem_map.1 hentry
    have hstale := congrArg (fun entry : Entry => entry.2.isStale) hrule
    exact hdeed.trans (deedFor_fresh hstale.symm)
  have hnoted : (known.zip (deeds known)).map (·.1.1.upToDate) = g.rules.map Rule.upToDate := by
    have hfirst : (known.zip (deeds known)).map Prod.fst = known :=
      List.map_fst_zip (length_deedsAfter [] known).ge
    rw [← hsnap.rules_eq, List.map_map, ← hfirst, List.map_map, hfirst]
    rfl
  have hrun := execute_runIn_of_snapshot hsnap
  rw [performAll, performEach_pass hpass, hnoted] at hrun
  rw [hrun, report_eq_of_fresh hrun hfresh]

theorem Graph.idle_iff {s : Session} :
    g.Idle s ↔ ∀ rule ∈ g.rules, Freshness.check s.world rule.source rule.target =
      (.ok .fresh : Except (Failure ε) Freshness) := by
  constructor
  · rintro ⟨report, s', hrun, -, hnoop⟩
    exact (isNoop_iff_of_execute hrun).1 hnoop
  · intro hfresh
    have hrun := execute_of_fresh hfresh
    exact ⟨_, _, hrun, rfl, (isNoop_iff_of_execute hrun).2 hfresh⟩

end ClojureBuild.Rules
