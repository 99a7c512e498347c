import ClojureBuild.Compile
import ClojureBuild.Proofs.Session
/-!
What a journal tells of a build.

Of all that is noted, two kinds of events mark a step of a build: a program that is run, and a file
that is copied.  Looking for units, registering rules and scanning for files note neither.
-/

namespace ClojureBuild

/-- A step of a build, as the journal tells it. -/
inductive Mark where
  | ran (invocation : Invocation)
  | copied (source target : String)
deriving DecidableEq, Repr

/-- The step that an event tells of. -/
def Event.mark? : Event → Option Mark
  | .invoked invocation => some (.ran invocation)
  | .log .rules .debug "copying" [(_, source), (_, target)] => some (.copied source target)
  | _ => none

/-- The steps that a journal tells of, in order. -/
def Session.marks (s : Session) : List Mark := s.journal.filterMap Event.mark?

/-- No event tells of a step. -/
def Quiet (events : List Event) : Prop := ∀ event ∈ events, event.mark? = none

theorem Event.mark?_log {area : LogArea} (h : area ≠ .rules) (level : LogLevel) (message : String)
    (fields : List (String × String)) : (Event.log area level message fields).mark? = none := by
  unfold mark?
  split
  next hlog => exact absurd hlog (by simp)
  next hlog => exact absurd (Event.log.inj hlog).1 h
  · rfl

theorem quiet_log {area : LogArea} (h : area ≠ .rules) (level : LogLevel) (message : String)
    (fields : List (String × String)) : Quiet [.log area level message fields] := by
  intro event hevent
  obtain rfl := List.mem_singleton.1 hevent
  exact Event.mark?_log h level message fields

theorem Quiet.append {events more : List Event} (h : Quiet events) (hmore : Quiet more) :
    Quiet (events ++ more) := by
  intro event hevent
  rcases List.mem_append.1 hevent with hin | hin
  · exact h event hin
  · exact hmore event hin

theorem Quiet.filterMap_eq_nil {events : List Event} (h : Quiet events) :
    events.filterMap Event.mark? = [] :=
  List.filterMap_eq_nil_iff.2 h

/-! ### What is noted while planning -/

theorem Sighting.mark?_of_event {sighting : Sighting} {event : Event}
    (h : sighting.event? = some event) : event.mark? = none := by
  cases sighting with
  | begun cwd =>
      cases h
      exact Event.mark?_log (by decide) _ _ _
  | hidden p =>
      cases h
      exact Event.mark?_log (by decide) _ _ _
  | file p => exact absurd h (by simp [event?, complaint?])
  | unreadable p cause =>
      cases h
      exact Event.mark?_log (by decide) _ _ _
  | loop p ancestor =>
      cases h
      exact Event.mark?_log (by decide) _ _ _

theorem quiet_sightings (met : List Sighting) : Quiet (met.filterMap Sighting.event?) := by
  intro event hevent
  obtain ⟨sighting, -, hsighting⟩ := List.mem_filterMap.1 hevent
  exact Sighting.mark?_of_event hsighting

theorem quiet_discoverEvents (w : World) (roots : List Path) : Quiet (discoverEvents w roots) := by
  intro event hevent
  obtain ⟨root, -, hroot⟩ := List.mem_flatMap.1 hevent
  obtain ⟨discovery, -, hdiscovery⟩ := List.mem_filterMap.1 hroot
  cases discovery with
  | unit u => exact absurd hdiscovery (by simp [Discovery.event?])
  | nameless file =>
      cases hdiscovery
      exact Event.mark?_log (by decide) _ _ _
  | aside sighting => exact Sighting.mark?_of_event hdiscovery

theorem Survey.quiet_events (survey : Survey) (target : Path) : Quiet (survey.events target) := by
  intro event hevent
  obtain ⟨⟨unit, found⟩, -, rfl⟩ := List.mem_map.1 hevent
  cases found <;> exact Event.mark?_log (by decide) _ _ _

theorem Mirror.quiet_events (mirror : Mirror) : Quiet mirror.events := by
  intro event hevent
  obtain ⟨step, -, hstep⟩ := List.mem_filterMap.1 hevent
  cases step with
  | copy c =>
      cases hstep
      exact Event.mark?_log (by decide) _ _ _
  | aside sighting => exact Sighting.mark?_of_event hstep

theorem quiet_rendered (text : String) : Quiet [Classpath.rendered text] :=
  quiet_log (by decide) _ _ _

/-! ### What is noted while scanning -/

theorem Scan.quiet_ofSources (w : World) (ext : String) (listed : Path → Bool)
    (sources : List Path) : Quiet (Scan.ofSources w ext listed sources).events := by
  intro event hevent
  obtain ⟨scan, hscan, hin⟩ := List.mem_flatMap.1 hevent
  obtain ⟨source, -, rfl⟩ := List.mem_map.1 hscan
  unfold Scan.ofSource at hin
  split at hin
  · exact quiet_sightings _ event hin
  · split at hin <;> exact absurd hin (by simp)

theorem MixedMode.quiet_detectEvents (w : World) (sources : List Path) (languages : List Language) :
    Quiet (MixedMode.detectEvents w sources languages) := by
  induction languages with
  | nil =>
      intro event hevent
      exact absurd hevent (by simp [detectEvents])
  | cons language rest ih =>
      have hscan := Scan.quiet_ofSources w language.extension (fun _ => true) sources
      unfold detectEvents
      simp only
      split
      · exact hscan.append ih
      · exact hscan

/-! ### Relations between sessions -/

/-- Between two sessions nothing was done but steps of some kind. -/
def Marked (P : Mark → Prop) (s s' : Session) : Prop :=
  ∃ marks, (∀ mark ∈ marks, P mark) ∧ s'.marks = s.marks ++ marks

instance (P : Mark → Prop) : IsPreorder Session (Marked P) where
  refl s := ⟨[], by simp, by simp⟩
  trans s mid s' := by
    rintro ⟨first, hfirst, hmid⟩ ⟨next, hnext, hs'⟩
    refine ⟨first ++ next, fun mark hmark => ?_, by rw [hs', hmid, List.append_assoc]⟩
    rcases List.mem_append.1 hmark with hin | hin
    · exact hfirst mark hin
    · exact hnext mark hin

theorem marks_note {events : List Event} (h : Quiet events) (s : Session) :
    ({ s with journal := s.journal ++ events } : Session).marks = s.marks := by
  simp only [Session.marks, List.filterMap_append, h.filterMap_eq_nil, List.append_nil]

/-- A relation between sessions that allows quiet notes. -/
structure Noting (R : Session → Session → Prop) : Prop extends IsPreorder Session R where
  note : ∀ (s : Session) {events : List Event}, Quiet events →
    R s { s with journal := s.journal ++ events }

/-- From one session to another there is nothing that the world shows or the journal marks. -/
structure Noted (s s' : Session) : Prop where
  world : s'.world = s.world
  marks : s'.marks = s.marks

instance : IsPreorder Session Noted where
  refl _ := ⟨rfl, rfl⟩
  trans _ _ _ hfirst hnext :=
    ⟨hnext.world.trans hfirst.world, hnext.marks.trans hfirst.marks⟩

theorem noting_noted : Noting Noted where
  refl := Std.Refl.refl
  trans _ _ _ := Trans.trans
  note s _ hquiet := ⟨rfl, marks_note hquiet s⟩

/-- A relation between sessions that allows what a build does beside running programs and copying
files: quiet notes, and making directories. -/
structure Routine (R : Session → Session → Prop) : Prop extends Noting R where
  makeDirs : ∀ (s : Session) (p : Path), R s { s with world := (s.world.makeDirs p).1 }

theorem marked_routine (P : Mark → Prop) : Routine (Marked P) where
  refl := Std.Refl.refl
  trans _ _ _ := Trans.trans
  note s _ hquiet := ⟨[], by simp, by rw [marks_note hquiet, List.append_nil]⟩
  makeDirs s _ := ⟨[], by simp, by rw [List.append_nil]; rfl⟩

theorem noting_of_world {R : World → World → Prop} [IsPreorder World R] :
    Noting (InvImage R Session.world) where
  refl := Std.Refl.refl
  trans _ _ _ := Trans.trans
  note s _ _ := Std.Refl.refl s.world

theorem routine_of_world {R : World → World → Prop} [IsPreorder World R]
    (hmake : ∀ w p, R w (w.makeDirs p).1) : Routine (InvImage R Session.world) where
  toNoting := noting_of_world
  makeDirs s p := hmake s.world p

end ClojureBuild
