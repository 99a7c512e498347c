import ClojureBuild.Proofs.Rules.Reference
/-!
What a failed execution leaves behind.

An execution fails in one of two ways.  Either a target cannot be checked, before anything is done;
or the deeds are done in order up to the first one that fails.  Main statement: an execution fails
with an error, leaving a session, exactly in these two cases, and the cases say which error it is
and what the session holds.
-/

namespace ClojureBuild.Rules

variable {ε : Type}

/-! ### The first check that fails -/

/-- The check of a rule fails, and those of the rules in front of it do not. -/
structure FirstUnchecked (w : World) (rules : List Rule) (i : Nat) (e : Failure ε) : Prop where
  fails : ∃ rule, rules[i]? = some rule ∧ Freshness.check w rule.source rule.target = .error e
  before : ∀ j < i, ∀ rule, rules[j]? = some rule →
    ∃ state, Freshness.check w rule.source rule.target = (.ok state : Except (Failure ε) Freshness)

theorem firstUnchecked_zero_iff {w : World} {rule : Rule} {rest : List Rule} {e : Failure ε} :
    FirstUnchecked w (rule :: rest) 0 e ↔
      Freshness.check w rule.source rule.target = .error e := by
  constructor
  · rintro ⟨⟨found, hfound, hfails⟩, -⟩
    obtain rfl := Option.some.inj hfound
    exact hfails
  · intro hfails
    exact ⟨⟨rule, rfl, hfails⟩, fun j hj => absurd hj (Nat.not_lt_zero j)⟩

theorem firstUnchecked_succ_iff {w : World} {rule : Rule} {rest : List Rule} {i : Nat}
    {e : Failure ε} :
    FirstUnchecked w (rule :: rest) (i + 1) e ↔
      (∃ state, Freshness.check w rule.source rule.target =
        (.ok state : Except (Failure ε) Freshness)) ∧ FirstUnchecked w rest i e := by
  constructor
  · rintro ⟨hfails, hbefore⟩
    refine ⟨hbefore 0 (Nat.succ_pos i) rule rfl, ⟨hfails, fun j hj => ?_⟩⟩
    exact hbefore (j + 1) (Nat.succ_lt_succ hj)
  · rintro ⟨hrule, ⟨hfails, hbefore⟩⟩
    refine ⟨hfails, fun j hj => ?_⟩
    cases j with
    | zero =>
        intro found hfound
        obtain rfl := Option.some.inj hfound
        exact hrule
    | succ j => exact hbefore j (Nat.lt_of_succ_lt_succ hj)

theorem states_force (w : World) (rules : List Rule) :
    (states w true rules : Except (Failure ε) (List Freshness)) =
      .ok (rules.map fun _ => .outdated) := by
  induction rules with
  | nil => rfl
  | cons rule rest ih =>
      rw [states_cons, ih]
      rfl

/-- The checks fail with the error of the first that does. -/
theorem states_eq_error_iff {w : World} {rules : List Rule} {e : Failure ε} :
    states w false rules = .error e ↔ ∃ i, FirstUnchecked w rules i e := by
  induction rules with
  | nil =>
      constructor
      · intro h
        exact absurd h (by simp [states])
      · rintro ⟨i, ⟨rule, hrule, -⟩, -⟩
        exact absurd hrule (by simp)
  | cons rule rest ih =>
      rw [states_cons]
      simp only [Bool.false_eq_true, ↓reduceIte]
      cases hcheck : (Freshness.check w rule.source rule.target :
        Except (Failure ε) Freshness) with
      | error cause =>
          change (.error cause : Except (Failure ε) (List Freshness)) = .error e ↔ _
          rw [Except.error.injEq]
          constructor
          · rintro rfl
            exact ⟨0, firstUnchecked_zero_iff.2 hcheck⟩
          · rintro ⟨i, hi⟩
            cases i with
            | zero => exact Except.error.inj (hcheck.symm.trans (firstUnchecked_zero_iff.1 hi))
            | succ i =>
                obtain ⟨state, hstate⟩ := (firstUnchecked_succ_iff.1 hi).1
                rw [hcheck] at hstate
                exact absurd hstate (by simp)
      | ok state =>
          have hrest : ((.ok state >>= fun state => states w false rest >>= fun others =>
              .ok (state :: others)) : Except (Failure ε) (List Freshness)) = .error e ↔
              states w false rest = .error e := by
            cases states w false rest <;> simp [bind, Except.bind]
          rw [hrest, ih]
          constructor
          · rintro ⟨i, hi⟩
            exact ⟨i + 1, firstUnchecked_succ_iff.2 ⟨⟨state, hcheck⟩, hi⟩⟩
          · rintro ⟨i, hi⟩
            cases i with
            | zero =>
                have hfails := firstUnchecked_zero_iff.1 hi
                rw [hcheck] at hfails
                exact absurd hfails (by simp)
            | succ i => exact ⟨i, (firstUnchecked_succ_iff.1 hi).2⟩

/-- A check fails only when the time of the source is not found: a target is looked at again only
where it was just seen. -/
theorem exists_check {w : World} {source : Path} {made : Int} (h : w.modified source = .ok made)
    (target : Path) :
    ∃ state, Freshness.check w source target = (.ok state : Except (Failure ε) Freshness) := by
  rw [Freshness.check, h]
  cases hexists : w.pathExists target with
  | false => exact ⟨.missing, rfl⟩
  | true =>
      obtain ⟨kept, hkept⟩ : ∃ kept, w.modified target = .ok kept := by
        rw [World.pathExists] at hexists
        rw [World.modified]
        cases hstat : w.stat target with
        | error cause => simp [hstat] at hexists
        | ok found => exact ⟨_, rfl⟩
      rw [hkept]
      exact ⟨_, rfl⟩

/-- The checks succeed exactly when the time of every source is found. -/
theorem exists_states_iff {w : World} {rules : List Rule} :
    (∃ found, states w false rules = (.ok found : Except (Failure ε) (List Freshness))) ↔
      ∀ rule ∈ rules, ∃ made, w.modified rule.source = .ok made := by
  constructor
  · rintro ⟨found, hfound⟩ rule hrule
    obtain ⟨state, -, hseen⟩ := (Snapshot.of_states hfound).exists_seen hrule
    obtain ⟨made, hmade, -⟩ := check_eq_ok hseen
    exact ⟨made, hmade⟩
  · intro h
    cases hstates : (states w false rules : Except (Failure ε) (List Freshness)) with
    | ok found => exact ⟨found, rfl⟩
    | error e =>
        obtain ⟨i, ⟨rule, hrule, hfails⟩, -⟩ := states_eq_error_iff.1 hstates
        obtain ⟨made, hmade⟩ := h rule (List.mem_of_getElem? hrule)
        obtain ⟨state, hstate⟩ := exists_check (ε := ε) hmade rule.target
        rw [hfails] at hstate
        exact absurd hstate (by simp)

/-- Entries that were seen in a world are what the checks find there. -/
theorem Snapshot.states_eq {force : Bool} {w : World} {rules : List Rule} {known : List Entry}
    (hsnap : Snapshot ε force w rules known) :
    (states w force rules : Except (Failure ε) (List Freshness)) = .ok (known.map Prod.snd) := by
  obtain ⟨rfl, hseen⟩ := hsnap
  induction known with
  | nil => rfl
  | cons entry rest ih =>
      have hentry := hseen entry List.mem_cons_self
      have hrest := ih fun other hother => hseen other (List.mem_cons_of_mem entry hother)
      rw [List.map_cons, states_cons, hentry, hrest]
      rfl

/-! ### The first deed that fails -/

variable {g : Graph ε}

/-- Deeds end badly where one fails behind others that were done. -/
theorem performEach_eq_error_iff {todo : List (Entry × Deed)} {s s' : Session} {e : Failure ε} :
    (performEach g todo).runIn s = (.error e, s') ↔
      ∃ k entry deed mid, todo[k]? = some (entry, deed) ∧
        (performEach g (todo.take k)).runIn s = (.ok (), mid) ∧
        (perform g entry deed).runIn mid = (.error e, s') := by
  induction todo generalizing s with
  | nil => simp [performEach]
  | cons first rest ih =>
      obtain ⟨entry, deed⟩ := first
      rw [performEach, Task.runIn_bind]
      rcases hfirst : (perform g entry deed).runIn s with ⟨result, mid⟩
      cases result with
      | error cause =>
          constructor
          · intro h
            exact ⟨0, entry, deed, s, rfl, rfl, hfirst.trans h⟩
          · rintro ⟨k, entry', deed', mid', hk, hdone, hfails⟩
            cases k with
            | zero =>
                obtain ⟨rfl, rfl⟩ := Prod.mk.inj (Option.some.inj hk)
                obtain ⟨-, rfl⟩ := Prod.mk.inj hdone
                exact hfirst.symm.trans hfails
            | succ k =>
                rw [List.take_succ_cons, performEach, Task.runIn_bind, hfirst] at hdone
                exact absurd (Prod.mk.inj hdone).1 (by simp)
      | ok u =>
          refine ih.trans ⟨?_, ?_⟩
          · rintro ⟨k, entry', deed', mid', hk, hdone, hfails⟩
            refine ⟨k + 1, entry', deed', mid', hk, ?_, hfails⟩
            rw [List.take_succ_cons, performEach, Task.runIn_bind, hfirst]
            exact hdone
          · rintro ⟨k, entry', deed', mid', hk, hdone, hfails⟩
            cases k with
            | zero =>
                obtain ⟨rfl, rfl⟩ := Prod.mk.inj (Option.some.inj hk)
                obtain ⟨-, rfl⟩ := Prod.mk.inj hdone
                rw [hfirst] at hfails
                exact absurd (Prod.mk.inj hfails).1 (by simp)
            | succ k =>
                rw [List.take_succ_cons, performEach, Task.runIn_bind, hfirst] at hdone
                exact ⟨k, entry', deed', mid', hk, hdone, hfails⟩

/-- A change that fails gives the reason in the words of the task. -/
theorem exists_of_change_eq_error {act : World → World × Except OsError Unit}
    {refusal : OsError → Failure ε} {s s' : Session} {e : Failure ε}
    (h : (Task.change act refusal).runIn s = (.error e, s')) : ∃ cause, e = refusal cause := by
  rw [Task.runIn_change, Prod.mk.injEq] at h
  cases hresult : (act s.world).2 with
  | ok u => simp [hresult] at h
  | error cause =>
      rw [hresult] at h
      exact ⟨cause, (Except.error.inj h.1).symm⟩

/-- A copy fails with an error about its target or the directory of that. -/
theorem copyFile_eq_error {source target : Path} {s s' : Session} {e : Failure ε}
    (h : (copyFile source target).runIn s = (.error e, s')) :
    ∃ path cause, e = .io path cause ∧ (path = target ∨ target.parent? = some path) := by
  rw [copyFile] at h
  cases hparent : target.parent? with
  | none =>
      simp only [hparent] at h
      obtain ⟨cause, rfl⟩ := exists_of_change_eq_error h
      exact ⟨target, cause, rfl, Or.inl rfl⟩
  | some parent =>
      simp only [hparent, Task.runIn_bind] at h
      rcases hmade : (Task.change (·.makeDirs parent) (Failure.io parent) :
        Task (Failure ε) Unit).runIn s with ⟨result, mid⟩
      rw [hmade] at h
      cases result with
      | ok u =>
          obtain ⟨cause, rfl⟩ := exists_of_change_eq_error h
          exact ⟨target, cause, rfl, Or.inl rfl⟩
      | error made =>
          obtain ⟨herror, -⟩ := Prod.mk.inj h
          obtain ⟨cause, hcause⟩ := exists_of_change_eq_error hmade
          exact ⟨parent, cause, (Except.error.inj herror).symm.trans hcause, Or.inr rfl⟩

/-- How a deed fails: the error it ends with, and what is left of it.  An action fails with its
label and its own error; a copy with an error of the system. -/
def Breaks (g : Graph ε) (entry : Entry) (mid s' : Session) (e : Failure ε) : Deed → Prop
  | .run n => entry.1.action = .invoke n ∧ ∃ action cause begun, g.actions[n]? = some action ∧
      begun.world = mid.world ∧ action.task.runIn begun = (.error cause, s') ∧
      e = .actionFailed action.label cause
  | .copy => entry.1.action = .copy ∧ ∃ path cause begun, begun.world = mid.world ∧
      (copyFile entry.1.source entry.1.target).runIn begun = (.error e, s') ∧
      e = .io path cause ∧ (path = entry.1.target ∨ entry.1.target.parent? = some path)
  | .pass | .cover => False

/-- A deed that fails is an action or a copy. -/
theorem breaks_of_perform {earlier : List Entry} {entry : Entry} {mid s' : Session} {e : Failure ε}
    (h : (perform g entry (deedFor earlier entry)).runIn mid = (.error e, s')) :
    Breaks g entry mid s' e (deedFor earlier entry) := by
  cases hdeed : deedFor earlier entry with
  | pass | cover =>
      rw [hdeed, perform, Task.runIn_log] at h
      exact absurd (Prod.mk.inj h).1 (by simp)
  | run n =>
      refine ⟨(deedFor_eq_run_iff.1 hdeed).1.2, ?_⟩
      rw [hdeed] at h
      cases haction : g.actions[n]? with
      | none =>
          simp only [perform, haction, Task.runIn_pure, Prod.mk.injEq, reduceCtorEq,
            false_and] at h
      | some action =>
          obtain ⟨begun, hbegun, hrun⟩ := exists_perform_run haction entry mid
          rw [hrun, Task.runIn_mapError] at h
          obtain ⟨hresult, hleft⟩ := Prod.mk.inj h
          rcases hran : action.task.runIn begun with ⟨result, left⟩
          rw [hran] at hresult hleft
          cases result with
          | ok u => simp at hresult
          | error cause =>
              obtain rfl := Except.error.inj hresult
              obtain rfl := hleft
              exact ⟨action, cause, begun, rfl, hbegun, hran, rfl⟩
  | copy =>
      refine ⟨(deedFor_eq_copy_iff.1 hdeed).2, ?_⟩
      obtain ⟨begun, hbegun, hrun⟩ := exists_perform_copy g entry mid
      rw [hdeed, hrun] at h
      obtain ⟨path, cause, rfl, hpath⟩ := copyFile_eq_error h
      exact ⟨path, cause, begun, hbegun, h, rfl, hpath⟩

/-- What is done about an entry keeps the world, or is an action of the graph, or is its copy. -/
theorem perform_cases {entry : Entry} {deed : Deed} {s s' : Session}
    {result : Except (Failure ε) Unit} (h : (perform g entry deed).runIn s = (result, s')) :
    s'.world = s.world ∨
      (∃ action ∈ g.actions, ∃ begun ended, begun.world = s.world ∧
        action.task.runIn begun = (ended, s') ∧
          result = ended.mapError (Failure.actionFailed action.label)) ∨
      deed = .copy ∧ ∃ begun : Session, begun.world = s.world ∧
        (copyFile entry.1.source entry.1.target).runIn begun = (result, s') := by
  cases deed with
  | pass | cover =>
      cases h
      exact Or.inl rfl
  | run n =>
      cases haction : g.actions[n]? with
      | none =>
          simp only [perform, haction] at h
          cases h
          exact Or.inl rfl
      | some action =>
          obtain ⟨begun, hbegun, hrun⟩ := exists_perform_run haction entry s
          rw [hrun, Task.runIn_mapError, Prod.mk.injEq] at h
          exact Or.inr (Or.inl ⟨action, List.mem_of_getElem? haction, begun, _, hbegun,
            Prod.ext rfl h.2, h.1.symm⟩)
  | copy =>
      obtain ⟨begun, hbegun, hrun⟩ := exists_perform_copy g entry s
      exact Or.inr (Or.inr ⟨rfl, begun, hbegun, hrun ▸ h⟩)

theorem performEach_leads {R : Session → Session → Prop} [IsPreorder Session R]
    (todo : List (Entry × Deed)) (hperform : ∀ one ∈ todo, Task.Leads R (perform g one.1 one.2)) :
    Task.Leads R (performEach g todo) := by
  induction todo with
  | nil => exact .pure ()
  | cons one rest ih =>
      refine .bind (hperform one List.mem_cons_self) fun _ => ?_
      exact ih fun other hother => hperform other (List.mem_cons_of_mem one hother)

theorem perform_pass_moves (entry : Entry) : Task.Moves (· = ·) (perform g entry .pass) :=
  fun _ => rfl

/-- What is noted about a rule whose target is up to date. -/
def Rule.upToDate (rule : Rule) : Event :=
  .log .rules .debug "up to date" [("output", rule.target.display)]

/-- Passing over targets only notes. -/
theorem performEach_pass {todo : List (Entry × Deed)} (hpass : ∀ one ∈ todo, one.2 = .pass)
    (s : Session) : (performEach g todo).runIn s =
      (.ok (), { s with journal := s.journal ++ todo.map (·.1.1.upToDate) }) := by
  induction todo generalizing s with
  | nil => rw [List.map_nil, List.append_nil]; rfl
  | cons one rest ih =>
      obtain ⟨entry, deed⟩ := one
      obtain rfl : deed = .pass := hpass _ List.mem_cons_self
      rw [performEach, Task.runIn_bind, perform, Task.runIn_log]
      simp only [ih fun other hother => hpass other (List.mem_cons_of_mem _ hother),
        List.map_cons, List.append_assoc, List.singleton_append]
      rfl

/-! ### Failed executions -/

/-- What it means that an execution failed at one rule.  The rules in front of it were dealt with
in order, the deed of this one failed, and nothing came after it. -/
structure FailsAt (force : Bool) (g : Graph ε) (s s' : Session) (e : Failure ε)
    (known : List Entry) (k : Nat) (entry : Entry) (mid : Session) : Prop where
  snapshot : Snapshot ε force s.world g.rules known
  rule : known[k]? = some entry
  stale : entry.1.staleIn force s.world = true
  /-- Everything in front of the rule was done. -/
  done : (performEach g ((known.zip (deeds known)).take k)).runIn s = (.ok (), mid)
  /-- The session that is left is the one in which the deed of the rule failed. -/
  failed : ∃ deed, (deeds known)[k]? = some deed ∧
    (perform g entry deed).runIn mid = (.error e, s') ∧ Breaks g entry mid s' e deed
  /-- Rules that are not stale add nothing to the world. -/
  idle : ∀ (i : Nat) other deed, (known.zip (deeds known))[i]? = some (other, deed) →
    other.1.staleIn force s.world = false → Task.Moves (· = ·) (perform g other deed)
  /-- An action runs exactly at the first stale rule that names it. -/
  first : ∀ i n : Nat, (deeds known)[i]? = some (Deed.run n) ↔
    g.rules[i]?.bind (Rule.staleAction? force s.world) = some n ∧
      ∀ j < i, g.rules[j]?.bind (Rule.staleAction? force s.world) ≠ some n
  copies : ∀ i : Nat, (deeds known)[i]? = some Deed.copy ↔
    ∃ rule, g.rules[i]? = some rule ∧ rule.staleIn force s.world = true ∧ rule.action = .copy
  /-- Every action that a stale rule names is there. -/
  issued : ∀ n ∈ g.rules.filterMap (Rule.staleAction? force s.world),
    ∃ action, g.actions[n]? = some action
  /-- No action ran twice, the one that failed included. -/
  once : (((deeds known).take (k + 1)).filterMap Deed.action?).Nodup

section

variable {force : Bool} {s s' mid : Session} {e : Failure ε} {known : List Entry}

/-- Deeds that end badly in a snapshot are an execution that failed at one rule. -/
theorem exists_failsAt (hbuilt : g.Built) (hsnap : Snapshot ε force s.world g.rules known)
    (h : (performAll g known).runIn s = (.error e, s')) :
    ∃ k entry mid, FailsAt force g s s' e known k entry mid := by
  obtain ⟨k, entry, deed, mid, hk, hdone, hfailed⟩ := performEach_eq_error_iff.1 h
  obtain ⟨hrule, hdeed⟩ := List.getElem?_zip_eq_some.1 hk
  have hchosen : deedFor (known.take k) entry = deed := by
    have h := hdeed
    rw [deeds, deedsAfter_getElem?, hrule] at h
    exact Option.some.inj h
  have hbreaks : Breaks g entry mid s' e deed := by
    rw [← hchosen] at hfailed ⊢
    exact breaks_of_perform hfailed
  have hseen : ∀ other ∈ known, other.2.isStale = other.1.staleIn force s.world :=
    fun other hother => (hsnap.seen other hother).isStale
  have hstale : entry.2.isStale = true := by
    cases deed with
    | pass | cover => exact hbreaks.elim
    | run n => exact (deedFor_eq_run_iff.1 hchosen).1.1
    | copy => exact (deedFor_eq_copy_iff.1 hchosen).1
  refine ⟨k, entry, mid, {
    snapshot := hsnap
    rule := hrule
    stale := (hseen entry (List.mem_of_getElem? hrule)).symm.trans hstale
    done := hdone
    failed := ⟨deed, hdeed, hfailed, hbreaks⟩
    idle := ?_
    first := fun i n => hsnap.deeds_eq_run_iff
    copies := fun i => hsnap.deeds_eq_copy_iff
    issued := fun n hn => hbuilt.exists_action hn
    once := ?_ }⟩
  · intro i other deed' hother hfresh
    obtain ⟨hentry, hdeed'⟩ := List.getElem?_zip_eq_some.1 hother
    have hpass : deed' = .pass := by
      rw [deeds, deedsAfter_getElem?, hentry] at hdeed'
      rw [← hseen other (List.mem_of_getElem? hentry)] at hfresh
      exact (Option.some.inj hdeed').symm.trans (deedFor_fresh hfresh)
    rw [hpass]
    exact perform_pass_moves other
  · exact (runs_nodup [] known).sublist ((List.take_sublist _ _).filterMap _)

theorem FailsAt.performAll {k : Nat} {entry : Entry}
    (h : FailsAt force g s s' e known k entry mid) :
    (Rules.performAll g known).runIn s = (.error e, s') := by
  obtain ⟨deed, hdeed, hfailed, -⟩ := h.failed
  exact performEach_eq_error_iff.2
    ⟨k, entry, deed, mid, List.getElem?_zip_eq_some.2 ⟨h.rule, hdeed⟩, h.done, hfailed⟩

end

theorem execute_session {force : Bool} {s : Session} {found : List Freshness}
    (hfound : states s.world force g.rules = (.ok found : Except (Failure ε) (List Freshness))) :
    ((execute force g).runIn s).2 = ((performAll g (g.rules.zip found)).runIn s).2 := by
  rw [execute_runIn, hfound]
  simp only
  rcases (performAll g (g.rules.zip found)).runIn s with ⟨result, s'⟩
  cases result <;> rfl

/-- An execution leads where the deeds about its rules do; it copies for rules that copy alone. -/
theorem execute_leads {R : Session → Session → Prop} [IsPreorder Session R] (force : Bool)
    (hperform : ∀ (entry : Entry) (deed : Deed), entry.1 ∈ g.rules →
      (deed = .copy → entry.1.action = .copy) → Task.Leads R (perform g entry deed)) :
    Task.Leads R (execute force g) := by
  intro s
  cases hstates : (states s.world force g.rules : Except (Failure ε) (List Freshness)) with
  | error e =>
      rw [execute_runIn, hstates]
      exact Std.Refl.refl s
  | ok found =>
      rw [execute_session hstates]
      refine performEach_leads _ (fun one hone => ?_) s
      obtain ⟨hentry, front, hdeed⟩ := exists_of_mem_zip_deedsAfter hone
      refine hperform one.1 one.2 (List.of_mem_zip hentry).1 fun hcopy => ?_
      exact (deedFor_eq_copy_iff.1 (hdeed.symm.trans hcopy)).2

/-- An execution of rules that were all seen does their deeds. -/
theorem execute_runIn_of_snapshot {force : Bool} {s : Session} {known : List Entry}
    (hsnap : Snapshot ε force s.world g.rules known) :
    (execute force g).runIn s =
      match (performAll g known).runIn s with
      | (.ok _, s') => (.ok (Progress.start.afterAll [] known).report, s')
      | (.error e, s') => (.error e, s') := by
  have hzip : g.rules.zip (known.map Prod.snd) = known := by
    rw [← hsnap.rules_eq]
    exact (List.zip_of_prod rfl rfl).symm
  rw [execute_runIn, hsnap.states_eq]
  rcases hdone : (performAll g known).runIn s with ⟨result, left⟩
  cases result <;> simp only [hzip, hdone]

theorem execute_eq_error_of_snapshot {force : Bool} {s s' : Session} {e : Failure ε}
    {known : List Entry} (hsnap : Snapshot ε force s.world g.rules known) :
    (execute force g).runIn s = (.error e, s') ↔ (performAll g known).runIn s = (.error e, s') := by
  rw [execute_runIn_of_snapshot hsnap]
  rcases (performAll g known).runIn s with ⟨result, left⟩
  cases result <;> simp

/-- An execution fails in one of two ways: a target cannot be checked and nothing is done, or what
is to be done about the rules in order fails at one of them. -/
theorem execute_eq_error_iff {g : Graph ε} (hbuilt : g.Built) {force : Bool} {s s' : Session}
    {e : Failure ε} :
    (execute force g).runIn s = (.error e, s') ↔
      (force = false ∧ s' = s ∧ ∃ i, FirstUnchecked s.world g.rules i e) ∨
        ∃ known k entry mid, FailsAt force g s s' e known k entry mid := by
  constructor
  · intro h
    cases hstates : (states s.world force g.rules : Except (Failure ε) (List Freshness)) with
    | error cause =>
        left
        rw [execute_runIn, hstates] at h
        obtain ⟨herror, hsame⟩ := Prod.mk.inj h
        obtain rfl := Except.error.inj herror
        have hforce : force = false := by
          cases force with
          | false => rfl
          | true =>
              rw [states_force] at hstates
              exact absurd hstates (by simp)
        subst hforce
        exact ⟨rfl, hsame.symm, states_eq_error_iff.1 hstates⟩
    | ok found =>
        right
        have hsnap := Snapshot.of_states hstates
        exact ⟨_, exists_failsAt hbuilt hsnap ((execute_eq_error_of_snapshot hsnap).1 h)⟩
  · rintro (⟨rfl, rfl, hunchecked⟩ | ⟨known, k, entry, mid, hfails⟩)
    · rw [execute_runIn, states_eq_error_iff.2 hunchecked]
    · exact (execute_eq_error_of_snapshot hfails.snapshot).2 hfails.performAll

/-- A graph whose third rule fails, after a write of its own and behind a run and a copy. -/
def brokenGraph : Graph Unit :=
  let write (name : String) (result : Except OsError Unit) : Task Unit Unit := Task.change
    (fun w => (w.put [name] (.file ByteArray.empty w.clock false), result)) (fun _ => ())
  let made := (Graph.empty.addAction ⟨"write", write "x" (.ok ())⟩).1
  let broken := (made.addAction ⟨"stop", write "half" (.error .notFound)⟩).1
  (((broken.depend ⟨"/x"⟩ ⟨"/a"⟩ 0).copy ⟨"/a"⟩ ⟨"/z"⟩).depend ⟨"/w"⟩ ⟨"/b"⟩ 1).copy
    ⟨"/b"⟩ ⟨"/v"⟩

theorem execute_eq_error_iff_broken :
    ∃ known k entry mid, FailsAt false brokenGraph mixedSession
      ((execute false brokenGraph).runIn mixedSession).2 (.actionFailed "stop" ())
      known k entry mid := by
  have hbuilt : brokenGraph.Built :=
    .copy _ _ (.depend _ _ (.copy _ _ (.depend _ _ (.addAction _ (.addAction _ .empty))
      (by decide))) (by decide))
  have herror : ((execute false brokenGraph).runIn mixedSession).1 =
      .error (.actionFailed "stop" ()) := rfl
  have hmoved : (((execute false brokenGraph).runIn mixedSession).2.world.node? ["half"]).isSome =
      true := rfl
  refine ((execute_eq_error_iff hbuilt).1 (Prod.ext herror rfl)).resolve_left ?_
  rintro ⟨-, hsame, -⟩
  have hleft : ((execute false brokenGraph).runIn mixedSession).2 = mixedSession := hsame
  rw [hleft] at hmoved
  exact absurd hmoved (by decide)

end ClojureBuild.Rules
