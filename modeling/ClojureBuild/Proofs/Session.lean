import ClojureBuild.Session
import Mathlib.Order.Defs.Unbundled
/-!
Laws of tasks.  Running a task is a function from a session to a result and the session it leaves;
each law says what one way of building tasks does to that function.
-/

namespace ClojureBuild.Task

variable {ε ε' α β : Type}

@[simp] theorem runIn_pure (a : α) (s : Session) :
    (pure a : Task ε α).runIn s = (.ok a, s) := rfl

theorem runIn_bind (task : Task ε α) (next : α → Task ε β) (s : Session) :
    (task >>= next).runIn s =
      match task.runIn s with
      | (.ok a, s') => (next a).runIn s'
      | (.error e, s') => (.error e, s') := by
  simp only [runIn, ExceptT.run, bind, ExceptT.bind, ExceptT.mk, StateT.run, StateT.bind]
  rcases task s with ⟨result, s'⟩
  cases result <;> rfl

@[simp] theorem runIn_ofFun (f : Session → Except ε α × Session) (s : Session) :
    (ofFun f).runIn s = f s := rfl

@[simp] theorem runIn_note (events : List Event) (s : Session) :
    (note events : Task ε Unit).runIn s =
      (.ok (), { s with journal := s.journal ++ events }) := rfl

@[simp] theorem runIn_log (area : LogArea) (level : LogLevel) (message : String)
    (fields : List (String × String)) (s : Session) :
    (log area level message fields : Task ε Unit).runIn s =
      (.ok (), { s with journal := s.journal ++ [.log area level message fields] }) := rfl

@[simp] theorem runIn_look (view : World → α) (s : Session) :
    (look view : Task ε α).runIn s = (.ok (view s.world), s) := rfl

@[simp] theorem runIn_ofExcept (result : Except ε α) (s : Session) :
    (ofExcept result).runIn s = (result, s) := rfl

@[simp] theorem runIn_change (act : World → World × Except OsError Unit) (refusal : OsError → ε)
    (s : Session) :
    (change act refusal).runIn s =
      ((act s.world).2.mapError refusal, { s with world := (act s.world).1 }) := rfl

@[simp] theorem runIn_mapError (f : ε → ε') (task : Task ε α) (s : Session) :
    (task.mapError f).runIn s = ((task.runIn s).1.mapError f, (task.runIn s).2) := rfl

@[simp] theorem runIn_attempt (task : Task ε α) (s : Session) :
    (task.attempt : Task ε' (Except ε α)).runIn s =
      (.ok (task.runIn s).1, (task.runIn s).2) := rfl

@[simp] theorem mapError_ok (f : ε → ε') (a : α) : (Except.ok a).mapError f = .ok a := rfl

@[simp] theorem mapError_error (f : ε → ε') (e : ε) :
    (Except.error e : Except ε α).mapError f = .error (f e) := rfl

theorem exists_of_isOk {result : Except ε α} (h : result.isOk = true) : ∃ a, result = .ok a := by
  cases result with
  | ok a => exact ⟨a, rfl⟩
  | error e => exact absurd h Bool.false_ne_true

theorem mapError_eq_ok_iff {f : ε → ε'} {result : Except ε α} {a : α} :
    result.mapError f = .ok a ↔ result = .ok a := by
  cases result <;> simp

theorem runIn_mapError_eq_ok_iff {f : ε → ε'} {task : Task ε α} {s s' : Session} {a : α} :
    (task.mapError f).runIn s = (.ok a, s') ↔ task.runIn s = (.ok a, s') := by
  rw [runIn_mapError, Prod.mk.injEq, mapError_eq_ok_iff, Prod.ext_iff]

theorem ok_bind (a : α) (next : α → Except ε β) : (Except.ok a >>= next) = next a := rfl

theorem error_bind (e : ε) (next : α → Except ε β) :
    ((.error e : Except ε α) >>= next) = .error e := rfl

theorem exists_of_bind_eq_ok {first : Except ε α} {next : α → Except ε β} {b : β}
    (h : (first >>= next) = .ok b) : ∃ a, first = .ok a ∧ next a = .ok b := by
  cases first with
  | error e => simp [bind, Except.bind] at h
  | ok a => exact ⟨a, rfl, h⟩

/-- A sequence that ends well is made of two parts that end well. -/
theorem runIn_bind_eq_ok {task : Task ε α} {next : α → Task ε β} {s s' : Session} {b : β}
    (h : (task >>= next).runIn s = (.ok b, s')) :
    ∃ a mid, task.runIn s = (.ok a, mid) ∧ (next a).runIn mid = (.ok b, s') := by
  rw [runIn_bind] at h
  rcases htask : task.runIn s with ⟨result, mid⟩
  rw [htask] at h
  cases result with
  | ok a => exact ⟨a, mid, rfl, h⟩
  | error e => simp at h

theorem exists_of_note_if {c : Prop} [Decidable c] {events : List Event}
    {next : Unit → Task ε β} {s s' : Session} {b : β}
    (h : (if c then Task.note events >>= next else next ()).runIn s = (.ok b, s')) :
    ∃ mid, (next ()).runIn mid = (.ok b, s') := by
  split at h
  · obtain ⟨⟨⟩, mid, -, hnext⟩ := runIn_bind_eq_ok h
    exact ⟨mid, hnext⟩
  · exact ⟨s, h⟩

/-! ### What a task does to the session, however it ends -/

/-- Whatever the task's result, the sessions before and after it are related. -/
def Leads (R : Session → Session → Prop) (task : Task ε α) : Prop :=
  ∀ s, R s (task.runIn s).2

section Leads

variable {R : Session → Session → Prop}

theorem Leads.note {events : List Event}
    (h : ∀ s : Session, R s { s with journal := s.journal ++ events }) :
    Leads R (Task.note events : Task ε Unit) := h

theorem Leads.change {act : World → World × Except OsError Unit} (refusal : OsError → ε)
    (h : ∀ s : Session, R s { s with world := (act s.world).1 }) :
    Leads R (Task.change act refusal) := h

theorem Leads.mapError {task : Task ε α} (f : ε → ε') (h : Leads R task) :
    Leads R (task.mapError f) := h

theorem Leads.ite {c : Prop} [Decidable c] {task other : Task ε α} (htask : Leads R task)
    (hother : Leads R other) : Leads R (if c then task else other) := by
  split
  · exact htask
  · exact hother

theorem Leads.look_bind {view : World → α} {next : α → Task ε β}
    (hnext : ∀ w, Leads R (next (view w))) : Leads R (Task.look view >>= next) := by
  intro s
  rw [runIn_bind]
  exact hnext s.world s

variable [IsPreorder Session R]

theorem Leads.pure (a : α) : Leads R (Pure.pure a : Task ε α) :=
  fun s => Std.Refl.refl s

theorem Leads.look (view : World → α) : Leads R (Task.look view : Task ε α) :=
  fun s => Std.Refl.refl s

theorem Leads.ofExcept (result : Except ε α) : Leads R (Task.ofExcept result) :=
  fun s => Std.Refl.refl s

/-- A sequence leads where its parts lead, also when it stops early. -/
theorem Leads.bind {task : Task ε α} {next : α → Task ε β} (htask : Leads R task)
    (hnext : ∀ a, Leads R (next a)) : Leads R (task >>= next) := by
  intro s
  have hfirst := htask s
  rw [runIn_bind]
  rcases hrun : task.runIn s with ⟨result, mid⟩
  rw [hrun] at hfirst
  cases result with
  | ok a => exact Trans.trans hfirst (hnext a mid)
  | error e => exact hfirst

theorem Leads.note_if {c : Prop} [Decidable c] {events : List Event} {next : Unit → Task ε β}
    (h : ∀ s : Session, R s { s with journal := s.journal ++ events }) (hnext : Leads R (next ())) :
    Leads R (if c then Task.note events >>= next else next ()) := by
  split
  · exact .bind (.note h) fun _ => hnext
  · exact hnext

end Leads

/-- Whatever the task's result, the worlds before and after it are related. -/
def Moves (R : World → World → Prop) (task : Task ε α) : Prop :=
  ∀ s, R s.world (task.runIn s).2.world

theorem moves_iff_leads {R : World → World → Prop} {task : Task ε α} :
    Moves R task ↔ Leads (InvImage R Session.world) task := Iff.rfl

section Moves

variable {R : World → World → Prop}

instance [IsPreorder World R] : IsPreorder Session (InvImage R Session.world) where
  refl s := Std.Refl.refl s.world
  trans _ _ _ hfirst hnext := Trans.trans hfirst hnext

theorem Moves.change {act : World → World × Except OsError Unit} (refusal : OsError → ε)
    (h : ∀ w, R w (act w).1) : Moves R (Task.change act refusal) :=
  fun s => h s.world

theorem Moves.mapError {task : Task ε α} (f : ε → ε') (h : Moves R task) :
    Moves R (task.mapError f) := h

variable [IsPreorder World R]

theorem Moves.pure (a : α) : Moves R (Pure.pure a : Task ε α) :=
  fun s => Std.Refl.refl s.world

theorem Moves.log (area : LogArea) (level : LogLevel) (message : String)
    (fields : List (String × String)) :
    Moves R (Task.log area level message fields : Task ε Unit) :=
  fun s => Std.Refl.refl s.world

theorem Moves.bind {task : Task ε α} {next : α → Task ε β} (htask : Moves R task)
    (hnext : ∀ a, Moves R (next a)) : Moves R (task >>= next) :=
  moves_iff_leads.2 (.bind htask hnext)

end Moves

/-- Whenever the task ends well, the worlds before and after it are related. -/
def Yields (R : World → World → Prop) (task : Task ε α) : Prop :=
  ∀ s a s', task.runIn s = (.ok a, s') → R s.world s'.world

section Yields

variable {R : World → World → Prop}

theorem Moves.yields {task : Task ε α} (h : Moves R task) : Yields R task := by
  intro s a s' hrun
  have hmoves := h s
  rwa [hrun] at hmoves

theorem Yields.mono {R' : World → World → Prop} {task : Task ε α} (h : Yields R task)
    (hle : ∀ w w', R w w' → R' w w') : Yields R' task :=
  fun s a s' hrun => hle _ _ (h s a s' hrun)

end Yields

/-! ### How a task fails -/

/-- Every error that the task ends with is of some kind. -/
def Raises (P : ε → Prop) (task : Task ε α) : Prop :=
  ∀ s e s', task.runIn s = (.error e, s') → P e

section Raises

variable {P : ε → Prop}

theorem Raises.pure (a : α) : Raises P (Pure.pure a : Task ε α) := by
  intro s e s' h
  exact absurd (Prod.mk.inj h).1 (by simp)

theorem Raises.look (view : World → α) : Raises P (Task.look view : Task ε α) := by
  intro s e s' h
  exact absurd (Prod.mk.inj h).1 (by simp)

theorem Raises.note (events : List Event) : Raises P (Task.note events : Task ε Unit) := by
  intro s e s' h
  exact absurd (Prod.mk.inj h).1 (by simp)

theorem Raises.ofExcept {result : Except ε α} (h : ∀ e, result = .error e → P e) :
    Raises P (Task.ofExcept result) :=
  fun _ e _ hrun => h e (Prod.mk.inj hrun).1

theorem Raises.change {act : World → World × Except OsError Unit} {refusal : OsError → ε}
    (h : ∀ cause, P (refusal cause)) : Raises P (Task.change act refusal) := by
  intro s e s' hrun
  rw [runIn_change, Prod.mk.injEq] at hrun
  cases hresult : (act s.world).2 with
  | ok done => simp [hresult] at hrun
  | error cause =>
      rw [hresult, mapError_error, Except.error.injEq] at hrun
      exact hrun.1 ▸ h cause

theorem Raises.mapError {Q : ε' → Prop} {f : ε → ε'} {task : Task ε α} (htask : Raises P task)
    (h : ∀ e, P e → Q (f e)) : Raises Q (task.mapError f) := by
  intro s e s' hrun
  rw [runIn_mapError, Prod.mk.injEq] at hrun
  rcases htaskrun : task.runIn s with ⟨result, mid⟩
  rw [htaskrun] at hrun
  cases result with
  | ok a => simp at hrun
  | error cause =>
      rw [mapError_error, Except.error.injEq] at hrun
      exact hrun.1 ▸ h cause (htask s cause mid htaskrun)

theorem Raises.ite {c : Prop} [Decidable c] {task other : Task ε α} (htask : Raises P task)
    (hother : Raises P other) : Raises P (if c then task else other) := by
  split
  · exact htask
  · exact hother

/-- A sequence fails as one of its parts does. -/
theorem Raises.bind {task : Task ε α} {next : α → Task ε β} (htask : Raises P task)
    (hnext : ∀ a, Raises P (next a)) : Raises P (task >>= next) := by
  intro s e s' hrun
  rw [runIn_bind] at hrun
  rcases hfirst : task.runIn s with ⟨result, mid⟩
  rw [hfirst] at hrun
  cases result with
  | ok a => exact hnext a mid e s' hrun
  | error cause =>
      rw [Prod.mk.injEq, Except.error.injEq] at hrun
      exact hrun.1 ▸ htask s cause mid hfirst

end Raises

end ClojureBuild.Task
