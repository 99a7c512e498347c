import ClojureBuild.Proofs.Session
import ClojureBuild.Toolchain
/-!
Tasks that go together.

Two tasks go together when, begun in one world, they end in one world, both with related values or
both with an error.  Their journals and the words of their errors may differ.  An invariant of the
worlds that the tasks come to is carried along, so that a step has to agree only where it holds.
-/

namespace ClojureBuild

variable {ε ε' α α' β β' : Type}

/-- Two results are both values, related ones, or both errors. -/
inductive Meets (V : α → α' → Prop) : Except ε α → Except ε' α' → Prop
  | ok {a : α} {a' : α'} : V a a' → Meets V (.ok a) (.ok a')
  | error (e : ε) (e' : ε') : Meets V (.error e) (.error e')

namespace Meets

variable {V : α → α' → Prop} {W : β → β' → Prop} {result : Except ε α} {result' : Except ε' α'}

theorem refl (result : Except ε α) : Meets Eq result result := by
  cases result with
  | ok a => exact .ok rfl
  | error e => exact .error e e

theorem of_isOk (h : result.isOk = result'.isOk) : Meets (fun _ _ => True) result result' := by
  cases result <;> cases result' <;> first | exact .ok trivial | exact .error _ _ | cases h

theorem bind {next : α → Except ε β} {next' : α' → Except ε' β'} (h : Meets V result result')
    (hnext : ∀ a a', V a a' → Meets W (next a) (next' a')) :
    Meets W (result >>= next) (result' >>= next') := by
  cases h with
  | ok hvalues => exact hnext _ _ hvalues
  | error e e' => exact .error e e'

theorem mapError {δ δ' : Type} {f : ε → δ} {f' : ε' → δ'} (h : Meets V result result') :
    Meets V (result.mapError f) (result'.mapError f') := by
  cases h with
  | ok hvalues => exact .ok hvalues
  | error e e' => exact .error _ _

end Meets

namespace Task

variable {I : World → Prop} {V : α → α' → Prop} {W : β → β' → Prop}

/-- Begun in one world of the invariant, the tasks end in one world of it, and with results that
meet. -/
def Together (I : World → Prop) (V : α → α' → Prop) (task : Task ε α) (other : Task ε' α') :
    Prop :=
  ∀ s s' : Session, s.world = s'.world → I s.world →
    Meets V (task.runIn s).1 (other.runIn s').1 ∧
      (task.runIn s).2.world = (other.runIn s').2.world ∧ I (task.runIn s).2.world

namespace Together

variable {task : Task ε α} {other : Task ε' α'}

theorem pure {a : α} {a' : α'} (h : V a a') :
    Together I V (Pure.pure a : Task ε α) (Pure.pure a' : Task ε' α') :=
  fun _ _ hworld hin => ⟨.ok h, hworld, hin⟩

theorem note (events events' : List Event) :
    Together I (fun _ _ => True) (Task.note events : Task ε Unit)
      (Task.note events' : Task ε' Unit) :=
  fun _ _ hworld hin => ⟨.ok trivial, hworld, hin⟩

theorem ofExcept {result : Except ε α} {result' : Except ε' α'} (h : Meets V result result') :
    Together I V (Task.ofExcept result) (Task.ofExcept result') :=
  fun _ _ hworld hin => ⟨h, hworld, hin⟩

theorem look {view : World → α} {view' : World → α'} (h : ∀ w, I w → V (view w) (view' w)) :
    Together I V (Task.look view : Task ε α) (Task.look view' : Task ε' α') := by
  intro s s' hworld hin
  refine ⟨.ok ?_, hworld, hin⟩
  rw [← hworld]
  exact h s.world hin

theorem change {act act' : World → World × Except OsError Unit} (refusal : OsError → ε)
    (refusal' : OsError → ε')
    (h : ∀ w, I w → (act w).1 = (act' w).1 ∧ (act w).2.isOk = (act' w).2.isOk ∧ I (act w).1) :
    Together I (fun _ _ => True) (Task.change act refusal) (Task.change act' refusal') := by
  intro s s' hworld hin
  obtain ⟨hsame, hok, hleft⟩ := h s.world hin
  simp only [runIn_change, ← hworld]
  exact ⟨(Meets.of_isOk hok).mapError, hsame, hleft⟩

theorem mapError {δ δ' : Type} {f : ε → δ} {f' : ε' → δ'} (h : Together I V task other) :
    Together I V (task.mapError f) (other.mapError f') := by
  intro s s' hworld hin
  obtain ⟨hmeets, hsame, hleft⟩ := h s s' hworld hin
  exact ⟨hmeets.mapError, hsame, hleft⟩

/-- Sequences go together where their parts do, also when they stop early. -/
theorem bind {next : α → Task ε β} {next' : α' → Task ε' β'} (h : Together I V task other)
    (hnext : ∀ a a', V a a' → Together I W (next a) (next' a')) :
    Together I W (task >>= next) (other >>= next') := by
  intro s s' hworld hin
  obtain ⟨hmeets, hsame, hleft⟩ := h s s' hworld hin
  rw [runIn_bind, runIn_bind]
  rcases hrun : task.runIn s with ⟨result, mid⟩
  rcases hrun' : other.runIn s' with ⟨result', mid'⟩
  rw [hrun, hrun'] at hmeets hsame
  rw [hrun] at hleft
  cases hmeets with
  | ok hvalues => exact hnext _ _ hvalues mid mid' hsame hleft
  | error e e' => exact ⟨.error e e', hsame, hleft⟩

theorem ite {c : Prop} [Decidable c] {task' : Task ε α} {other' : Task ε' α'}
    (h : Together I V task other) (h' : Together I V task' other') :
    Together I V (if c then task else task') (if c then other else other') := by
  by_cases hc : c
  · rwa [if_pos hc, if_pos hc]
  · rwa [if_neg hc, if_neg hc]

theorem note_bind {next : Unit → Task ε β} {next' : Unit → Task ε' β'} (events events' : List Event)
    (h : Together I W (next ()) (next' ())) :
    Together I W (Task.note events >>= next) (Task.note events' >>= next') :=
  (note events events').bind fun _ _ _ => h

end Together

end Task

/-- What a program does depends on the world, and not on what happened before. -/
def Runner.Blind (run : Runner) : Prop :=
  ∀ i, Task.Together (fun _ => True) (fun _ _ => True) (run i) (run i)

end ClojureBuild
