import ClojureBuild.Proofs.Session
import ClojureBuild.Rules.Execute
import Mathlib.Data.Finset.Card
import Mathlib.Data.Finset.Dedup
/-!
The sequential reading of an execution.

The engine threads the numbers of the actions that ran through its loop.  Here the same work is
read off the list of rules and their states alone: what is done about a rule depends only on that
rule and on the stale rules in front of it.  Main statement: a successful execution reports and does
exactly what this reading says.
-/

namespace ClojureBuild.Rules

variable {ε : Type}

/-- A graph put together by its own operations, so that every number in a rule is one that the graph
gave out. -/
inductive Graph.Built : Graph ε → Prop
  | empty : Built Graph.empty
  | addAction {g : Graph ε} (action : Action ε) : Built g → Built (g.addAction action).1
  | depend {g : Graph ε} (target source : Path) {n : Nat} :
      Built g → n < g.actions.length → Built (g.depend target source n)
  | copy {g : Graph ε} (source target : Path) : Built g → Built (g.copy source target)

theorem Graph.Built.issued {g : Graph ε} (hbuilt : g.Built) {rule : Rule} {n : Nat}
    (hrule : rule ∈ g.rules) (haction : rule.action = .invoke n) : n < g.actions.length := by
  induction hbuilt with
  | empty => simp [Graph.empty] at hrule
  | addAction action _ ih =>
      have hold := ih hrule
      simp only [Graph.addAction, List.length_append, List.length_singleton]
      omega
  | depend target source _ hn ih =>
      simp only [Graph.depend, Graph.addRules, List.mem_append, List.mem_singleton] at hrule ⊢
      rcases hrule with hold | rfl
      · exact ih hold
      · simp only [RuleAction.invoke.injEq] at haction
        exact haction ▸ hn
  | copy source target _ ih =>
      simp only [Graph.copy, Graph.addRules, List.mem_append, List.mem_singleton] at hrule ⊢
      rcases hrule with hold | rfl
      · exact ih hold
      · simp at haction

/-- A rule and the state of its target before anything is done. -/
abbrev Entry := Rule × Freshness

/-- Whether an entry needs an action. -/
def Entry.needs (entry : Entry) (n : Nat) : Prop :=
  entry.2.isStale = true ∧ entry.1.action = .invoke n

instance (entry : Entry) (n : Nat) : Decidable (entry.needs n) :=
  inferInstanceAs (Decidable (_ ∧ _))

/-- What is done about one rule. -/
inductive Deed where
  /-- The target is up to date. -/
  | pass
  | run (action : Nat)
  /-- The action ran for a rule in front of this one. -/
  | cover
  | copy
deriving DecidableEq, Repr

/-- The action that a deed runs. -/
def Deed.action? : Deed → Option Nat
  | .run n => some n
  | _ => none

/-- What is done about an entry, given those in front of it. -/
def deedFor (earlier : List Entry) (entry : Entry) : Deed :=
  if entry.2.isStale then
    match entry.1.action with
    | .copy => .copy
    | .invoke n => if ∃ e ∈ earlier, e.needs n then .cover else .run n
  else .pass

/-- What is done about each entry, behind some that were dealt with. -/
def deedsAfter (earlier : List Entry) : List Entry → List Deed
  | [] => []
  | entry :: rest => deedFor earlier entry :: deedsAfter (earlier ++ [entry]) rest

/-- What is done about each entry of a whole list. -/
def deeds (known : List Entry) : List Deed := deedsAfter [] known

/-- Does what is to be done about one entry. -/
def perform (g : Graph ε) (entry : Entry) : Deed → Task (Failure ε) Unit
  | .pass => Task.log .rules .debug "up to date" [("output", entry.1.target.display)]
  | .cover => Task.log .rules .debug "covered by earlier run" [("output", entry.1.target.display)]
  | .run n =>
      match g.actions[n]? with
      | some action => runAction entry.1 entry.2 action
      | none => pure ()
  | .copy => do
      Task.log .rules .debug "copying"
        [("input", entry.1.source.display), ("output", entry.1.target.display)]
      copyFile entry.1.source entry.1.target

/-- Does one thing after the other, up to the first failure. -/
def performEach (g : Graph ε) : List (Entry × Deed) → Task (Failure ε) Unit
  | [] => pure ()
  | (entry, deed) :: rest => do
      perform g entry deed
      performEach g rest

/-- The sequential reading of a list of entries. -/
def performAll (g : Graph ε) (known : List Entry) : Task (Failure ε) Unit :=
  performEach g (known.zip (deeds known))

theorem exists_perform_copy (g : Graph ε) (entry : Entry) (s : Session) :
    ∃ begun : Session, begun.world = s.world ∧ (perform g entry .copy).runIn s =
      (copyFile entry.1.source entry.1.target : Task (Failure ε) Unit).runIn begun := by
  simp only [perform, Task.runIn_bind, Task.runIn_log]
  refine ⟨_, ?_, rfl⟩
  rfl

theorem exists_perform_run {g : Graph ε} {n : Nat} {action : Action ε}
    (haction : g.actions[n]? = some action) (entry : Entry) (s : Session) :
    ∃ begun : Session, begun.world = s.world ∧ (perform g entry (.run n)).runIn s =
      (action.task.mapError (Failure.actionFailed action.label)).runIn begun := by
  simp only [perform, haction, runAction, Task.runIn_bind, Task.runIn_log]
  refine ⟨_, ?_, rfl⟩
  rfl

/-! ### The numbers of the actions that ran -/

/-- What is done about an entry is decided by the entries in front of it. -/
theorem deedsAfter_getElem? (earlier known : List Entry) (i : Nat) :
    (deedsAfter earlier known)[i]? =
      known[i]?.map fun entry => deedFor (earlier ++ known.take i) entry := by
  induction known generalizing earlier i with
  | nil => simp [deedsAfter]
  | cons entry rest ih =>
      cases i with
      | zero => simp [deedsAfter]
      | succ i => simp [deedsAfter, ih]

theorem length_deedsAfter (earlier known : List Entry) :
    (deedsAfter earlier known).length = known.length := by
  induction known generalizing earlier with
  | nil => rfl
  | cons entry rest ih => rw [deedsAfter, List.length_cons, List.length_cons, ih]

theorem exists_of_mem_zip_deedsAfter {earlier known : List Entry} {one : Entry × Deed}
    (h : one ∈ known.zip (deedsAfter earlier known)) :
    one.1 ∈ known ∧ ∃ front, one.2 = deedFor (earlier ++ front) one.1 := by
  obtain ⟨i, hi⟩ := List.mem_iff_getElem?.1 h
  obtain ⟨hentry, hdeed⟩ := List.getElem?_zip_eq_some.1 hi
  rw [deedsAfter_getElem?, hentry] at hdeed
  exact ⟨List.mem_of_getElem? hentry, _, (Option.some.inj hdeed).symm⟩

theorem exists_mem_zip_deeds {known : List Entry} {entry : Entry} (h : entry ∈ known) :
    ∃ front, (entry, deedFor front entry) ∈ known.zip (deeds known) := by
  obtain ⟨i, hi⟩ := List.mem_iff_getElem?.1 h
  refine ⟨[] ++ known.take i, List.mem_iff_getElem?.2 ⟨i, List.getElem?_zip_eq_some.2 ⟨hi, ?_⟩⟩⟩
  rw [deeds, deedsAfter_getElem?, hi]
  rfl

section

variable {earlier : List Entry} {rule : Rule} {state : Freshness} {n : Nat}

theorem deedFor_fresh (hstale : state.isStale = false) :
    deedFor earlier (rule, state) = .pass := by
  simp [deedFor, hstale]

theorem deedFor_copy (hstale : state.isStale = true) (haction : rule.action = .copy) :
    deedFor earlier (rule, state) = .copy := by
  simp [deedFor, hstale, haction]

theorem deedFor_covered (hstale : state.isStale = true) (haction : rule.action = .invoke n)
    (hearlier : ∃ e ∈ earlier, e.needs n) : deedFor earlier (rule, state) = .cover := by
  simp only [deedFor, hstale, haction, if_pos hearlier, ↓reduceIte]

theorem deedFor_first (hstale : state.isStale = true) (haction : rule.action = .invoke n)
    (hearlier : ¬ ∃ e ∈ earlier, e.needs n) : deedFor earlier (rule, state) = .run n := by
  simp only [deedFor, hstale, haction, if_neg hearlier, ↓reduceIte]

end

theorem deedFor_eq_run_iff {earlier : List Entry} {entry : Entry} {n : Nat} :
    deedFor earlier entry = .run n ↔ entry.needs n ∧ ∀ e ∈ earlier, ¬ e.needs n := by
  obtain ⟨rule, state⟩ := entry
  cases hstale : state.isStale with
  | false => simp [deedFor_fresh hstale, Entry.needs, hstale]
  | true =>
      cases haction : rule.action with
      | copy => simp [deedFor_copy hstale haction, Entry.needs, haction]
      | invoke m =>
          by_cases hearlier : ∃ e ∈ earlier, e.needs m
          · simp only [deedFor_covered hstale haction hearlier, Entry.needs, haction,
              RuleAction.invoke.injEq, reduceCtorEq, false_iff]
            rintro ⟨⟨_, rfl⟩, hnot⟩
            obtain ⟨e, he, hneeds⟩ := hearlier
            exact hnot e he hneeds
          · rw [deedFor_first hstale haction hearlier]
            constructor
            · rintro ⟨rfl⟩
              exact ⟨⟨hstale, haction⟩, fun e he hneeds => hearlier ⟨e, he, hneeds⟩⟩
            · rintro ⟨⟨_, hn⟩, _⟩
              simp only [haction, RuleAction.invoke.injEq] at hn
              rw [hn]

theorem deedFor_eq_copy_iff {earlier : List Entry} {entry : Entry} :
    deedFor earlier entry = .copy ↔ entry.2.isStale = true ∧ entry.1.action = .copy := by
  obtain ⟨rule, state⟩ := entry
  cases hstale : state.isStale with
  | false => simp [deedFor_fresh hstale]
  | true =>
      cases haction : rule.action with
      | copy => simp [deedFor_copy hstale haction]
      | invoke n =>
          by_cases hearlier : ∃ e ∈ earlier, e.needs n
          · simp [deedFor_covered hstale haction hearlier]
          · simp [deedFor_first hstale haction hearlier]

/-- The numbers of the actions that the deeds run. -/
def runs (earlier known : List Entry) : List Nat :=
  (deedsAfter earlier known).filterMap Deed.action?

theorem runs_cons (earlier : List Entry) (entry : Entry) (rest : List Entry) :
    runs earlier (entry :: rest) =
      (deedFor earlier entry).action?.toList ++ runs (earlier ++ [entry]) rest := by
  simp only [runs, deedsAfter, List.filterMap_cons]
  cases (deedFor earlier entry).action? <;> rfl

theorem Deed.action?_eq_some_iff {deed : Deed} {n : Nat} :
    deed.action? = some n ↔ deed = .run n := by
  cases deed <;> simp [Deed.action?]

theorem mem_runs_iff {earlier known : List Entry} {n : Nat} :
    n ∈ runs earlier known ↔ (∃ e ∈ known, e.needs n) ∧ ∀ e ∈ earlier, ¬ e.needs n := by
  induction known generalizing earlier with
  | nil => simp [runs, deedsAfter]
  | cons entry rest ih =>
      rw [runs_cons, List.mem_append, Option.mem_toList, Deed.action?_eq_some_iff,
        deedFor_eq_run_iff, ih]
      constructor
      · rintro (⟨hneeds, hnot⟩ | ⟨⟨e, he, hneeds⟩, hnot⟩)
        · exact ⟨⟨entry, List.mem_cons_self, hneeds⟩, hnot⟩
        · exact ⟨⟨e, List.mem_cons_of_mem entry he, hneeds⟩,
            fun e' he' => hnot e' (List.mem_append_left _ he')⟩
      · rintro ⟨⟨e, he, hneeds⟩, hnot⟩
        by_cases hentry : entry.needs n
        · exact Or.inl ⟨hentry, hnot⟩
        · right
          rcases List.mem_cons.1 he with rfl | he
          · exact absurd hneeds hentry
          · refine ⟨⟨e, he, hneeds⟩, ?_⟩
            intro e' he'
            rcases List.mem_append.1 he' with hold | hlast
            · exact hnot e' hold
            · exact List.mem_singleton.1 hlast ▸ hentry

/-- No action runs twice. -/
theorem runs_nodup (earlier known : List Entry) : (runs earlier known).Nodup := by
  induction known generalizing earlier with
  | nil => simp [runs, deedsAfter]
  | cons entry rest ih =>
      rw [runs_cons]
      cases hdeed : (deedFor earlier entry).action? with
      | none => exact ih _
      | some n =>
          have hrun : deedFor earlier entry = .run n := Deed.action?_eq_some_iff.1 hdeed
          simp only [Option.toList_some, List.singleton_append, List.nodup_cons]
          refine ⟨?_, ih _⟩
          rw [mem_runs_iff]
          rintro ⟨_, hnot⟩
          exact hnot entry (by simp) (deedFor_eq_run_iff.1 hrun).1

/-! ### The loop against the reference -/

/-- What the loop keeps in mind after a deed. -/
def Progress.after (progress : Progress) (entry : Entry) : Deed → Progress
  | .pass => { progress with report.fresh := progress.report.fresh ++ [entry.1.target] }
  | .cover => { progress with report.rebuilt := progress.report.rebuilt ++ [entry.1.target] }
  | .copy => { progress with report.copied := progress.report.copied ++ [entry.1.target] }
  | .run n => {
      report := { progress.report with
        rebuilt := progress.report.rebuilt ++ [entry.1.target]
        actionsRun := progress.report.actionsRun + 1 }
      ran := n :: progress.ran }

/-- What the loop keeps in mind after a list of entries. -/
def Progress.afterAll (progress : Progress) (earlier : List Entry) : List Entry → Progress
  | [] => progress
  | entry :: rest =>
      (progress.after entry (deedFor earlier entry)).afterAll (earlier ++ [entry]) rest

/-- The actions that ran are those that the entries so far need. -/
def Progress.Matches (progress : Progress) (earlier : List Entry) : Prop :=
  ∀ n, n ∈ progress.ran ↔ ∃ e ∈ earlier, e.needs n

theorem Progress.Matches.start : Progress.start.Matches [] := by
  simp [Progress.Matches, Progress.start]

theorem Progress.Matches.after {progress : Progress} {earlier : List Entry}
    (hmatches : progress.Matches earlier) (entry : Entry) :
    (progress.after entry (deedFor earlier entry)).Matches (earlier ++ [entry]) := by
  intro n
  have hold := hmatches n
  have hran : n ∈ (progress.after entry (deedFor earlier entry)).ran ↔
      deedFor earlier entry = .run n ∨ n ∈ progress.ran := by
    cases hdeed : deedFor earlier entry with
    | run m => simp [Progress.after, eq_comm]
    | pass | cover | copy => simp [Progress.after]
  rw [hran, deedFor_eq_run_iff, hold]
  constructor
  · rintro (⟨hneeds, _⟩ | ⟨e, he, hneeds⟩)
    · exact ⟨entry, by simp, hneeds⟩
    · exact ⟨e, List.mem_append_left _ he, hneeds⟩
  · rintro ⟨e, he, hneeds⟩
    by_cases hearlier : ∃ e ∈ earlier, e.needs n
    · exact Or.inr hearlier
    · rcases List.mem_append.1 he with he | he
      · exact absurd ⟨e, he, hneeds⟩ hearlier
      · rw [List.mem_singleton.1 he] at hneeds
        exact Or.inl ⟨hneeds, fun e he hneeds => hearlier ⟨e, he, hneeds⟩⟩

/-- One round of the loop does the deed of its entry. -/
theorem step_runIn (g : Graph ε) {progress : Progress} {earlier : List Entry}
    (hmatches : progress.Matches earlier) (entry : Entry) (s : Session) :
    (step g entry.1 entry.2 progress).runIn s =
      match (perform g entry (deedFor earlier entry)).runIn s with
      | (.ok _, s') => (.ok (progress.after entry (deedFor earlier entry)), s')
      | (.error e, s') => (.error e, s') := by
  obtain ⟨rule, state⟩ := entry
  cases hstale : state.isStale with
  | false =>
      simp only [step, deedFor_fresh hstale, perform, Progress.after, hstale, Task.runIn_bind,
        Bool.not_false, ↓reduceIte, Task.runIn_log, Task.runIn_pure]
  | true =>
      cases haction : rule.action with
      | copy =>
          simp only [step, deedFor_copy hstale haction, perform, Progress.after, hstale, haction,
            Task.runIn_bind, Bool.not_true, Bool.false_eq_true, ↓reduceIte, Task.runIn_log,
            Task.runIn_pure]
          split <;> simp_all
      | invoke n =>
          have hran := hmatches n
          by_cases hcovered : ∃ e ∈ earlier, e.needs n
          · simp only [step, deedFor_covered hstale haction hcovered, perform, Progress.after,
              hstale, haction, Task.runIn_bind, hran.2 hcovered, Bool.not_true,
              Bool.false_eq_true, ↓reduceIte, Task.runIn_log, Task.runIn_pure]
          · have hnot : n ∉ progress.ran := fun hin => hcovered (hran.1 hin)
            simp only [step, deedFor_first hstale haction hcovered, perform, Progress.after,
              hstale, haction, hnot, Bool.not_true, Bool.false_eq_true, ↓reduceIte]
            cases g.actions[n]? with
            | none => simp only [Task.runIn_pure]
            | some action =>
                simp only [Task.runIn_bind, Task.runIn_pure]
                split <;> simp_all

/-- The whole loop does the deeds in order and stops where they stop. -/
theorem carryOut_runIn (g : Graph ε) {progress : Progress} {earlier : List Entry}
    (hmatches : progress.Matches earlier) (known : List Entry) (s : Session) :
    (carryOut g known progress).runIn s =
      match (performEach g (known.zip (deedsAfter earlier known))).runIn s with
      | (.ok _, s') => (.ok (progress.afterAll earlier known), s')
      | (.error e, s') => (.error e, s') := by
  induction known generalizing progress earlier s with
  | nil => simp [carryOut, performEach, Progress.afterAll]
  | cons entry rest ih =>
      obtain ⟨rule, state⟩ := entry
      simp only [carryOut, deedsAfter, List.zip_cons_cons, performEach, Progress.afterAll,
        Task.runIn_bind]
      rw [step_runIn g hmatches (rule, state) s]
      rcases hdeed : (perform g (rule, state) (deedFor earlier (rule, state))).runIn s with
        ⟨result, mid⟩
      cases result with
      | error e => rfl
      | ok u => exact ih (hmatches.after (rule, state)) mid

/-! ### What is reported -/

/-- Whether a target is to be made with an action. -/
def Rule.invokes (rule : Rule) : Bool := rule.action != .copy

/-- The report grows by the targets of each kind, in order, and by the actions that run. -/
theorem Progress.afterAll_report (progress : Progress) (earlier known : List Entry) :
    (progress.afterAll earlier known).report =
      { fresh := progress.report.fresh ++
          (known.filter fun e => !e.2.isStale).map (·.1.target)
        rebuilt := progress.report.rebuilt ++
          (known.filter fun e => e.2.isStale && e.1.invokes).map (·.1.target)
        copied := progress.report.copied ++
          (known.filter fun e => e.2.isStale && !e.1.invokes).map (·.1.target)
        actionsRun := progress.report.actionsRun + (runs earlier known).length } := by
  induction known generalizing progress earlier with
  | nil => simp [Progress.afterAll, runs, deedsAfter]
  | cons entry rest ih =>
      rw [Progress.afterAll, ih, runs_cons]
      obtain ⟨rule, state⟩ := entry
      cases hstale : state.isStale with
      | false => simp [deedFor_fresh hstale, hstale, Progress.after, Deed.action?]
      | true =>
          cases haction : rule.action with
          | copy =>
              simp [deedFor_copy hstale haction, hstale, haction, Progress.after, Deed.action?,
                Rule.invokes]
          | invoke n =>
              by_cases hcovered : ∃ e ∈ earlier, e.needs n
              · simp [deedFor_covered hstale haction hcovered, hstale, haction, Progress.after,
                  Deed.action?, Rule.invokes]
              · simp [deedFor_first hstale haction hcovered, hstale, haction, Progress.after,
                  Deed.action?, Rule.invokes, Nat.add_assoc, Nat.add_comm]

/-! ### The snapshot -/

/-- Whether a rule is stale in a world: under force every rule is, and otherwise one whose target is
not there or is older than its source. -/
def Rule.staleIn (force : Bool) (w : World) (rule : Rule) : Bool :=
  force || !w.pathExists rule.target ||
    match w.modified rule.source, w.modified rule.target with
    | .ok made, .ok kept => decide (kept < made)
    | _, _ => false

/-- What the first look at an entry has to have found. -/
def Entry.Seen (ε : Type) (force : Bool) (w : World) (entry : Entry) : Prop :=
  (if force then .ok .outdated else Freshness.check w entry.1.source entry.1.target) =
    (.ok entry.2 : Except (Failure ε) Freshness)

theorem states_cons (w : World) (force : Bool) (rule : Rule) (rest : List Rule) :
    (states w force (rule :: rest) : Except (Failure ε) (List Freshness)) =
      (if force then .ok .outdated else Freshness.check w rule.source rule.target) >>= fun state =>
        states w force rest >>= fun others => .ok (state :: others) := by
  cases force <;> rfl

theorem states_eq_ok {w : World} {force : Bool} {rules : List Rule} {found : List Freshness}
    (h : states w force rules = (.ok found : Except (Failure ε) (List Freshness))) :
    found.length = rules.length ∧ ∀ entry ∈ rules.zip found, Entry.Seen ε force w entry := by
  induction rules generalizing found with
  | nil =>
      simp only [states, Except.ok.injEq] at h
      subst h
      simp
  | cons rule rest ih =>
      rw [states_cons] at h
      obtain ⟨state, hstate, h⟩ := Task.exists_of_bind_eq_ok h
      obtain ⟨others, hothers, h⟩ := Task.exists_of_bind_eq_ok h
      simp only [Except.ok.injEq] at h
      subst h
      obtain ⟨hlength, hseen⟩ := ih hothers
      refine ⟨by simp [hlength], ?_⟩
      intro entry hentry
      rcases List.mem_cons.1 hentry with rfl | hentry
      · exact hstate
      · exact hseen entry hentry

/-- A check that succeeds found the time of the source, and that of the target if it is there. -/
theorem check_eq_ok {w : World} {source target : Path} {state : Freshness}
    (h : Freshness.check w source target = (.ok state : Except (Failure ε) Freshness)) :
    ∃ made, w.modified source = .ok made ∧
      (w.pathExists target = false ∧ state = .missing ∨
        w.pathExists target = true ∧ ∃ kept, w.modified target = .ok kept ∧
          state = if kept < made then .outdated else .fresh) := by
  rw [Freshness.check] at h
  obtain ⟨made, hmade, h⟩ := Task.exists_of_bind_eq_ok h
  refine ⟨made, Task.mapError_eq_ok_iff.1 hmade, ?_⟩
  cases hexists : w.pathExists target with
  | false =>
      simp only [hexists, Bool.not_false, ↓reduceIte] at h
      exact Or.inl ⟨rfl, (Except.ok.inj h).symm⟩
  | true =>
      simp only [hexists, Bool.not_true, Bool.false_eq_true, ↓reduceIte] at h
      obtain ⟨kept, hkept, h⟩ := Task.exists_of_bind_eq_ok h
      exact Or.inr ⟨rfl, kept, Task.mapError_eq_ok_iff.1 hkept, (Except.ok.inj h).symm⟩

theorem Entry.Seen.isStale {force : Bool} {w : World} {entry : Entry}
    (hseen : entry.Seen ε force w) : entry.2.isStale = entry.1.staleIn force w := by
  obtain ⟨rule, state⟩ := entry
  cases force with
  | true =>
      simp only [Entry.Seen, ↓reduceIte, Except.ok.injEq] at hseen
      subst hseen
      rfl
  | false =>
      simp only [Entry.Seen, Bool.false_eq_true, ↓reduceIte] at hseen
      obtain ⟨made, hmade, ⟨hexists, rfl⟩ | ⟨hexists, kept, hkept, rfl⟩⟩ := check_eq_ok hseen
      · simp [Rule.staleIn, hexists, Freshness.isStale]
      · by_cases hlt : kept < made <;>
          simp [Rule.staleIn, hexists, hmade, hkept, hlt, Freshness.isStale]

/-! ### Whole executions -/

/-- An execution looks at every rule first; then it does the deeds in order. -/
theorem execute_runIn (force : Bool) (g : Graph ε) (s : Session) :
    (execute force g).runIn s =
      match (states s.world force g.rules : Except (Failure ε) (List Freshness)) with
      | .error e => (.error e, s)
      | .ok found =>
          match (performAll g (g.rules.zip found)).runIn s with
          | (.ok _, s') => (.ok (Progress.start.afterAll [] (g.rules.zip found)).report, s')
          | (.error e, s') => (.error e, s') := by
  simp only [execute, Task.runIn_bind, Task.runIn_look, Task.runIn_ofExcept]
  cases (states s.world force g.rules : Except (Failure ε) (List Freshness)) with
  | error e => rfl
  | ok found =>
      simp only [carryOut_runIn g Progress.Matches.start (g.rules.zip found) s, performAll, deeds]
      rcases (performEach g ((g.rules.zip found).zip (deedsAfter [] (g.rules.zip found)))).runIn s
        with ⟨result, s'⟩
      cases result <;> rfl

/-- The number of the action that a rule names, if it is stale. -/
def Rule.staleAction? (force : Bool) (w : World) (rule : Rule) : Option Nat :=
  match rule.staleIn force w, rule.action with
  | true, .invoke n => some n
  | _, _ => none

theorem Rule.staleAction?_eq_some_iff {force : Bool} {w : World} {rule : Rule} {n : Nat} :
    rule.staleAction? force w = some n ↔
      rule.staleIn force w = true ∧ rule.action = .invoke n := by
  cases hstale : rule.staleIn force w <;> cases haction : rule.action <;>
    simp [staleAction?, hstale, haction]

theorem Graph.Built.exists_action {g : Graph ε} (hbuilt : g.Built) {force : Bool} {w : World}
    {n : Nat} (hn : n ∈ g.rules.filterMap (Rule.staleAction? force w)) :
    ∃ action, g.actions[n]? = some action := by
  obtain ⟨rule, hrule, hnamed⟩ := List.mem_filterMap.1 hn
  have hlt := hbuilt.issued hrule (Rule.staleAction?_eq_some_iff.1 hnamed).2
  exact ⟨g.actions[n], List.getElem?_eq_getElem hlt⟩

/-- Entries whose states were all seen in one world. -/
structure Snapshot (ε : Type) (force : Bool) (w : World) (rules : List Rule)
    (known : List Entry) : Prop where
  rules_eq : known.map Prod.fst = rules
  seen : ∀ entry ∈ known, entry.Seen ε force w

theorem Snapshot.of_states {w : World} {force : Bool} {rules : List Rule} {found : List Freshness}
    (h : states w force rules = (.ok found : Except (Failure ε) (List Freshness))) :
    Snapshot ε force w rules (rules.zip found) := by
  obtain ⟨hlength, hseen⟩ := states_eq_ok h
  exact ⟨List.map_fst_zip (Nat.le_of_eq hlength.symm), hseen⟩

namespace Snapshot

variable {force : Bool} {w : World} {rules : List Rule} {known : List Entry}

theorem exists_seen (hsnap : Snapshot ε force w rules known) {rule : Rule} (hrule : rule ∈ rules) :
    ∃ state, (rule, state) ∈ known ∧ Entry.Seen ε force w (rule, state) := by
  rw [← hsnap.rules_eq] at hrule
  obtain ⟨⟨rule, state⟩, hentry, rfl⟩ := List.mem_map.1 hrule
  exact ⟨state, hentry, hsnap.seen (rule, state) hentry⟩

/-- A filter on entries that only asks for staleness and the rule is one on rules. -/
theorem filter_targets (hsnap : Snapshot ε force w rules known) (keep : Bool → Rule → Bool) :
    (known.filter fun e => keep e.2.isStale e.1).map (·.1.target) =
      (rules.filter fun r => keep (r.staleIn force w) r).map (·.target) := by
  have hfilter : (known.filter fun e => keep e.2.isStale e.1) =
      known.filter fun e => keep (e.1.staleIn force w) e.1 := by
    apply List.filter_congr
    intro entry hentry
    rw [(hsnap.seen entry hentry).isStale]
  rw [hfilter, ← hsnap.rules_eq, List.filter_map, List.map_map]
  rfl

theorem exists_needs_iff (hsnap : Snapshot ε force w rules known) {n : Nat} :
    (∃ e ∈ known, e.needs n) ↔ n ∈ rules.filterMap (Rule.staleAction? force w) := by
  rw [← hsnap.rules_eq, List.filterMap_map, List.mem_filterMap]
  constructor
  · rintro ⟨e, he, hstale, haction⟩
    refine ⟨e, he, Rule.staleAction?_eq_some_iff.2 ⟨?_, haction⟩⟩
    rw [← (hsnap.seen e he).isStale, hstale]
  · rintro ⟨e, he, haction⟩
    obtain ⟨hstale, haction⟩ := Rule.staleAction?_eq_some_iff.1 haction
    exact ⟨e, he, (hsnap.seen e he).isStale.trans hstale, haction⟩

theorem length_runs (hsnap : Snapshot ε force w rules known) :
    (runs [] known).length = (rules.filterMap (Rule.staleAction? force w)).toFinset.card := by
  rw [← List.toFinset_card_of_nodup (runs_nodup [] known)]
  congr 1
  ext n
  rw [List.mem_toFinset, List.mem_toFinset, mem_runs_iff, hsnap.exists_needs_iff]
  simp

theorem getElem?_needs_iff (hsnap : Snapshot ε force w rules known) {i n : Nat} :
    (∃ e, known[i]? = some e ∧ e.needs n) ↔
      rules[i]?.bind (Rule.staleAction? force w) = some n := by
  rw [← hsnap.rules_eq, List.getElem?_map]
  cases hentry : known[i]? with
  | none => simp
  | some e =>
      have hstale := (hsnap.seen e (List.mem_of_getElem? hentry)).isStale
      simp only [Option.map_some, Option.bind_some, Rule.staleAction?_eq_some_iff, ← hstale,
        Option.some.injEq, exists_eq_left', Entry.needs]

/-- An action runs at the first stale rule that names it. -/
theorem deeds_eq_run_iff (hsnap : Snapshot ε force w rules known) {i n : Nat} :
    (deeds known)[i]? = some (.run n) ↔
      rules[i]?.bind (Rule.staleAction? force w) = some n ∧
        ∀ j < i, rules[j]?.bind (Rule.staleAction? force w) ≠ some n := by
  simp only [deeds, deedsAfter_getElem?, List.nil_append, Option.map_eq_some_iff,
    deedFor_eq_run_iff, ne_eq, ← hsnap.getElem?_needs_iff]
  constructor
  · rintro ⟨e, he, hneeds, hfirst⟩
    refine ⟨⟨e, he, hneeds⟩, ?_⟩
    rintro j hj ⟨e', he', hneeds'⟩
    have hmem : e' ∈ known.take i := by
      apply List.mem_of_getElem? (i := j)
      rw [List.getElem?_take_of_lt hj, he']
    exact hfirst e' hmem hneeds'
  · rintro ⟨⟨e, he, hneeds⟩, hfirst⟩
    refine ⟨e, he, hneeds, ?_⟩
    intro e' hmem hneeds'
    obtain ⟨j, hj⟩ := List.mem_iff_getElem?.1 hmem
    have hlt : j < i := by
      obtain ⟨hlen, _⟩ := List.getElem?_eq_some_iff.1 hj
      simp only [List.length_take] at hlen
      omega
    rw [List.getElem?_take_of_lt hlt] at hj
    exact hfirst j hlt ⟨e', hj, hneeds'⟩

theorem deeds_eq_copy_iff (hsnap : Snapshot ε force w rules known) {i : Nat} :
    (deeds known)[i]? = some .copy ↔
      ∃ rule, rules[i]? = some rule ∧ rule.staleIn force w = true ∧ rule.action = .copy := by
  simp only [deeds, deedsAfter_getElem?, List.nil_append, Option.map_eq_some_iff,
    ← hsnap.rules_eq, List.getElem?_map]
  constructor
  · rintro ⟨e, he, hdeed⟩
    obtain ⟨hstale, haction⟩ := deedFor_eq_copy_iff.1 hdeed
    have hseen := (hsnap.seen e (List.mem_of_getElem? he)).isStale
    exact ⟨e.1, ⟨e, he, rfl⟩, hseen ▸ hstale, haction⟩
  · rintro ⟨_, ⟨e, he, rfl⟩, hstale, haction⟩
    have hseen := (hsnap.seen e (List.mem_of_getElem? he)).isStale
    exact ⟨e, he, deedFor_eq_copy_iff.2 ⟨hseen ▸ hstale, haction⟩⟩

end Snapshot

/-- Every target falls under one of the three kinds. -/
theorem perm_kinds (stale : Rule → Bool) (rules : List Rule) :
    ((rules.filter fun r => !stale r).map (·.target) ++
        (rules.filter fun r => stale r && r.invokes).map (·.target) ++
        (rules.filter fun r => stale r && !r.invokes).map (·.target)).Perm
      (rules.map (·.target)) := by
  have hsplit := List.filter_append_perm (fun r => stale r) rules
  have hkinds := List.filter_append_perm (fun r => r.invokes) (rules.filter fun r => stale r)
  simp only [List.filter_filter] at hkinds
  rw [List.append_assoc, ← List.map_append, ← List.map_append]
  apply List.Perm.map
  have hswap := (hkinds.append_right (rules.filter fun r => !stale r)).trans hsplit
  refine List.perm_append_comm.trans ?_
  simpa [Bool.and_comm] using hswap

/-- A successful execution looked at every rule and did all deeds. -/
theorem exists_snapshot_of_execute {g : Graph ε} {force : Bool} {s s' : Session} {report : Report}
    (h : (execute force g).runIn s = (.ok report, s')) :
    ∃ known, Snapshot ε force s.world g.rules known ∧
      (performAll g known).runIn s = (.ok (), s') ∧
        report = (Progress.start.afterAll [] known).report := by
  rw [execute_runIn] at h
  cases hstates : (states s.world force g.rules : Except (Failure ε) (List Freshness)) with
  | error e => simp [hstates] at h
  | ok found =>
      simp only [hstates] at h
      rcases hall : (performAll g (g.rules.zip found)).runIn s with ⟨result, left⟩
      rw [hall] at h
      cases result with
      | error e => simp at h
      | ok u =>
          cases h
          exact ⟨_, Snapshot.of_states hstates, hall, rfl⟩

/-- What an execution reports when it succeeds: the targets by their kinds, in order. -/
theorem report_eq_of_execute {g : Graph ε} {force : Bool} {s s' : Session} {report : Report}
    (h : (execute force g).runIn s = (.ok report, s')) :
    report = {
      fresh := (g.rules.filter fun r => !r.staleIn force s.world).map (·.target)
      rebuilt := (g.rules.filter fun r => r.staleIn force s.world && r.invokes).map (·.target)
      copied := (g.rules.filter fun r => r.staleIn force s.world && !r.invokes).map (·.target)
      actionsRun := (g.rules.filterMap (Rule.staleAction? force s.world)).toFinset.card } := by
  obtain ⟨known, hsnap, -, rfl⟩ := exists_snapshot_of_execute h
  rw [Progress.afterAll_report, hsnap.filter_targets fun b _ => !b,
    hsnap.filter_targets fun b r => b && r.invokes,
    hsnap.filter_targets fun b r => b && !r.invokes, hsnap.length_runs]
  simp [Progress.start]

/-- A world with two sources and one target that is newer than its source. -/
def mixedSession : Session :=
  ⟨⟨[(["a"], .file ByteArray.empty 5 false), (["b"], .file ByteArray.empty 5 false),
      (["y"], .file ByteArray.empty 9 false)], [], 10⟩, []⟩

end ClojureBuild.Rules
