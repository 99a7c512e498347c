import ClojureBuild.Proofs.Rules.InStep
import ClojureBuild.Proofs.Rules.Settled
/-!
A second execution finds nothing to do.

An execution that succeeds, forced or not, leaves every target no older than its source, and the
next one reports them all as fresh.  What carries this is that no step of the first execution gives
a source a new time.  A copy does that not only to its target: it also touches the directory that
the target, or a directory made for it, lies in.
-/

namespace ClojureBuild.Rules

open World

variable {ε : Type}

/-- The directories that the target of a rule, and each directory on the way of its path, lie in.
One of them gets a new entry when the target, or what is missing above it, is made. -/
def Rule.holders (cwd : Location) (r : Rule) : List Location :=
  (r.target :: r.target.madeFor.filter (·.text ≠ "")).map fun q => (q.placeFrom cwd).tail

/-- No copy gives a source a new time: its target is none, and lies in none. -/
def Graph.SparesSources (cwd : Location) (g : Graph ε) : Prop :=
  ∀ r ∈ g.copies, ∀ r' ∈ g.rules, r.place cwd ≠ r'.origin cwd ∧ r'.origin cwd ∉ r.holders cwd

/-- Files as the rules of a graph need them: the current directory stands, nothing is a link, and no
target of a copy is a device. -/
structure Graph.Sound (cwd : Location) (g : Graph ε) (w : World) : Prop where
  noDevice : ∀ r ∈ g.copies, ∀ t, w.node? (r.place cwd) ≠ some (.device t)
  linkFree : w.LinkFree
  cwd : w.cwd = cwd
  standing : w.Standing

/-- Between two worlds no source was modified or deleted, no target was deleted or got an earlier
time, and the clock did not run backwards. -/
structure Graph.Respects (cwd : Location) (g : Graph ε) (w w' : World) : Prop where
  sound : g.Sound cwd w'
  clock : w.clock ≤ w'.clock
  sources : ∀ r ∈ g.rules, ∀ made, w.modified r.source = .ok made →
    w'.modified r.source = .ok made
  targets : ∀ r ∈ g.rules, ∀ made ≤ w.clock, w.Holds r.target made → w'.Holds r.target made

/-- What the actions of a graph do when they succeed: they respect its sources and targets, and
write the targets of the rules that name them. -/
structure Graph.Diligent (cwd : Location) (g : Graph ε) : Prop where
  respects : ∀ action ∈ g.actions, ∀ before after, g.Sound cwd before.world →
    action.task.runIn before = (.ok (), after) → g.Respects cwd before.world after.world
  writes : ∀ r ∈ g.rules, ∀ n action, r.action = .invoke n → g.actions[n]? = some action →
    Writes (g.Sound cwd) r.target action.task

variable {cwd : Location} {g : Graph ε} {w w' : World}

theorem Graph.Sound.not_leadsToDevice (hsound : g.Sound cwd w) {r : Rule} (hr : r ∈ g.copies) :
    ¬ w.LeadsToDevice r.target := by
  rintro ⟨loc, t, hstat⟩
  have hnode := (node?_placeFrom_of_stat (LinkFree.unlinked hsound.linkFree r.target) hstat).2
  rw [hsound.cwd] at hnode
  exact hsound.noDevice r hr t hnode

theorem Graph.sound_iff :
    g.Sound cwd w ↔ (∀ r ∈ g.copies, (w.node? (r.place cwd)).all (!·.isDevice) = true) ∧
      w.LinkFree ∧ w.cwd = cwd ∧ ∀ loc ∈ w.cwd.tails, w.isDirAt loc = true := by
  have hdevice : ∀ loc, (w.node? loc).all (!·.isDevice) = true ↔
      ∀ t, w.node? loc ≠ some (.device t) := by
    intro loc
    cases w.node? loc with
    | none => simp
    | some node => cases node <;> simp [Node.isDevice]
  simp only [hdevice, List.mem_tails]
  exact ⟨fun h => ⟨h.noDevice, h.linkFree, h.cwd, h.standing⟩,
    fun h => ⟨h.1, h.2.1, h.2.2.1, h.2.2.2⟩⟩

instance : Decidable (g.Sound cwd w) := decidable_of_iff _ Graph.sound_iff.symm

/-! ### Steps that only gain -/

theorem Graph.Sound.renewed (hsound : g.Sound cwd w) (h : Renewed w w') : g.Sound cwd w' where
  cwd := h.cwd.trans hsound.cwd
  standing := h.standing hsound.standing
  linkFree := h.linkFree hsound.linkFree
  noDevice r hr t hdevice := hsound.noDevice r hr t (h.special hdevice rfl rfl)

/-- A step that only gains and leaves the places of the sources alone respects the graph. -/
theorem Graph.Respects.of_renewed (hsound : g.Sound cwd w) (h : Renewed w w')
    (hleaves : ∀ r ∈ g.rules, Leaves cwd (r.origin cwd) w w') : g.Respects cwd w w' where
  sound := hsound.renewed h
  clock := h.clock.ge
  sources r hr made hmade := by
    have hleft := hleaves r hr
    rw [Rule.origin, ← hsound.cwd] at hleft
    exact hleft.modified hsound.linkFree hmade
  targets r _ made hpast hholds := h.holds hpast hholds

/-- A copy leaves the place of a source alone. -/
theorem copyFile_leavesSource (hspares : g.SparesSources cwd) {r r' : Rule} (hr : r ∈ g.copies)
    (hr' : r' ∈ g.rules) : Task.Moves (Leaves cwd (r'.origin cwd))
      (copyFile r.source r.target : Task (Failure ε) Unit) := by
  obtain ⟨hne, hholders⟩ := hspares r hr r' hr'
  have htail : ∀ q ∈ r.target :: r.target.madeFor.filter (·.text ≠ ""),
      (q.placeFrom cwd).tail ≠ r'.origin cwd := by
    intro q hq hsame
    exact hholders (hsame ▸ List.mem_map_of_mem hq)
  refine copyFile_moves (fun parent hparent w => makeDirs_leaves (fun q hq hnonempty => ?_) w)
    fun w => copyFile_leaves hne (htail _ List.mem_cons_self) w
  refine htail q (List.mem_cons_of_mem _ (List.mem_filter.2 ⟨?_, decide_eq_true hnonempty⟩))
  rw [Path.madeFor, hparent]
  exact hq

theorem copyFile_renews (source target : Path) :
    Task.Moves Renewed (copyFile source target : Task (Failure ε) Unit) :=
  copyFile_moves (fun parent _ w => makeDirs_renewed w parent)
    fun w => copyFile_renewed w source target

theorem copyFile_respects (hspares : g.SparesSources cwd) {r : Rule} (hr : r ∈ g.copies)
    (s : Session) (hsound : g.Sound cwd s.world) : g.Respects cwd s.world
      ((copyFile r.source r.target : Task (Failure ε) Unit).runIn s).2.world :=
  .of_renewed hsound (copyFile_renews r.source r.target s) fun _ hr' =>
    copyFile_leavesSource hspares hr hr' s

/-! ### A whole execution -/

/-- The files are sound, and the sources have the times that they had at the start. -/
def Graph.Unmoved (cwd : Location) (g : Graph ε) (start w : World) : Prop :=
  g.Sound cwd w ∧ ∀ r ∈ g.rules, ∀ made, start.modified r.source = .ok made →
    w.modified r.source = .ok made

/-- A step that respects sound files spares the targets, and the sources stay unmoved. -/
theorem sparesWithin_of_respects (start : World)
    (h : g.Sound cwd w → g.Respects cwd w w') :
    SparesWithin (g.Unmoved cwd start) g.Targets w w' where
  stays hunmoved := by
    have hstep := h hunmoved.1
    exact ⟨hstep.sound, fun r hr made hmade => hstep.sources r hr made (hunmoved.2 r hr made hmade)⟩
  clock hunmoved := (h hunmoved.1).clock
  holds hunmoved p made hp hpast hholds := by
    obtain ⟨r, hr, rfl⟩ := hp
    exact (h hunmoved.1).targets r hr made hpast hholds

/-- Diligent actions and copies that spare the sources keep them unmoved for the whole execution. -/
theorem Graph.Diligent.steady (hbuilt : g.Built) (hdiligent : g.Diligent cwd)
    (hspares : g.SparesSources cwd) (start : World) : g.Steady (g.Unmoved cwd start) where
  actions action haction before _ after hran :=
    sparesWithin_of_respects start fun hsound =>
      hdiligent.respects action haction before after hsound hran
  copies r hr hcopy before _ after hran := by
    refine sparesWithin_of_respects start fun hsound => ?_
    have hstep := copyFile_respects hspares (Graph.mem_copies_iff.2 ⟨hr, hcopy⟩) before hsound
    rwa [hran] at hstep
  made r hr n hinvoke := by
    have hissued := hbuilt.issued hr hinvoke
    refine ⟨_, List.getElem?_eq_getElem hissued, fun before after hbefore hran => ?_⟩
    exact hdiligent.writes r hr n _ hinvoke (List.getElem?_eq_getElem hissued) before after
      hbefore.1 hran
  copied r hr hcopy _ _ hunmoved := holds_of_copyFile hunmoved.1.standing fun hrenewed =>
    (hunmoved.1.renewed hrenewed).not_leadsToDevice (Graph.mem_copies_iff.2 ⟨hr, hcopy⟩)

variable {force : Bool} {s s' : Session} {report : Report}

/-- Behind an execution that succeeds the next one does nothing: whatever the actions are, none is
run, nothing is copied, the files stay, and all targets are reported as fresh in their order. -/
theorem execute_settled (hbuilt : g.Built) (hdiligent : g.Diligent cwd)
    (hspares : g.SparesSources cwd) (hsound : g.Sound cwd s.world)
    (hsources : ∀ r ∈ g.rules, ∃ made, s.world.modified r.source = .ok made ∧
      made ≤ s.world.clock)
    (hrun : (execute force g).runIn s = (.ok report, s')) (actions : List (Action ε)) :
    (execute false { g with actions := actions }).runIn s' =
      (.ok ⟨g.rules.map (·.target), [], [], 0⟩,
        { s' with journal := s'.journal ++ g.rules.map Rule.upToDate }) := by
  have hsteady := hdiligent.steady hbuilt hspares s.world
  have hstart : g.Unmoved cwd s.world s.world := ⟨hsound, fun _ _ _ => id⟩
  have hend := (hsteady.execute hrun).stays hstart
  refine execute_of_fresh fun r hr => ?_
  obtain ⟨made, hmade, hpast⟩ := hsources r hr
  exact (check_eq_fresh_iff (hend.2 r hr made hmade)).2
    (hsteady.holds_of_execute hstart hrun hr hmade hpast)

/-! ### Graphs with one action -/

/-- An action that writes an empty file, unless a device is there. -/
def touch (p : Path) : Action Unit where
  label := "touch"
  task := Task.change (fun w =>
    match w.stat p with
    | .ok (_, .device _) => (w, .error .notARegularFile)
    | _ =>
        match w.writeFile p ByteArray.empty with
        | .ok w' => (w', .ok ())
        | .error cause => (w, .error cause)) fun _ => ()

theorem writeFile_of_touch {p : Path} (h : (touch p).task.runIn s = (.ok (), s')) :
    ¬ s.world.LeadsToDevice p ∧ s.world.writeFile p ByteArray.empty = .ok s'.world := by
  rw [touch, Task.runIn_change, Prod.mk.injEq, Task.mapError_eq_ok_iff] at h
  obtain ⟨hresult, rfl⟩ := h
  split at hresult
  · exact absurd hresult (by simp)
  next hstat =>
      refine ⟨fun ⟨loc, t, hdevice⟩ => hstat loc t hdevice, ?_⟩
      split at hresult
      next hwritten => simpa using hwritten
      · exact absurd hresult (by simp)

/-- An action that touches one path is diligent, if all rules with an action make that path, and
touching it changes no source. -/
theorem touch_diligent {g : Graph Unit} {p : Path} (hactions : g.actions = [touch p])
    (htargets : ∀ r ∈ g.rules, r.action ≠ .copy → r.target = p)
    (hsources : ∀ r ∈ g.rules,
      p.placeFrom cwd ≠ r.origin cwd ∧ (p.placeFrom cwd).tail ≠ r.origin cwd) :
    g.Diligent cwd where
  respects action haction before after hsound hran := by
    rw [hactions, List.mem_singleton] at haction
    subst haction
    have hwritten := (writeFile_of_touch hran).2
    exact .of_renewed hsound (writeFile_renewed hwritten) fun r hr =>
      writeFile_leaves (hsources r hr).1 (hsources r hr).2 hwritten
  writes r hr n action hinvoke haction before after hsound hran := by
    have hin := List.mem_of_getElem? haction
    rw [hactions, List.mem_singleton] at hin
    subst hin
    obtain ⟨hdevice, hwritten⟩ := writeFile_of_touch hran
    rw [htargets r hr (by simp [hinvoke])]
    exact holds_writeFile hsound.standing hdevice hwritten

theorem exists_modified_of_times {g : Graph Unit}
    (h : ∀ r ∈ g.rules, (w.modified r.source).toOption.any (· ≤ w.clock) = true) :
    ∀ r ∈ g.rules, ∃ made, w.modified r.source = .ok made ∧ made ≤ w.clock := by
  intro r hr
  have htime := h r hr
  cases hmade : w.modified r.source with
  | error cause => simp [hmade, Except.toOption] at htime
  | ok made => exact ⟨made, rfl, by simpa [hmade, Except.toOption] using htime⟩

/-- A rule is made by an action in front of a copy and again behind it. -/
def touchGraph : Graph Unit :=
  (((Graph.empty.addAction (touch ⟨"/t"⟩)).1.depend ⟨"/t"⟩ ⟨"/s"⟩ 0).copy
    ⟨"/s"⟩ ⟨"/o/x"⟩).depend ⟨"/t"⟩ ⟨"/d"⟩ 0

def touchSession : Session :=
  ⟨⟨[(["s"], .file ⟨#[1]⟩ 5 false), (["d"], .dir 3), (["t"], .file ⟨#[]⟩ 12 false)], [], 10⟩, []⟩

theorem execute_settled_touch :
    ((execute true touchGraph).runIn touchSession).1 =
        .ok ⟨[], [⟨"/t"⟩, ⟨"/t"⟩], [⟨"/o/x"⟩], 1⟩ ∧
      ((execute false touchGraph).runIn ((execute true touchGraph).runIn touchSession).2).1 =
        .ok ⟨[⟨"/t"⟩, ⟨"/o/x"⟩, ⟨"/t"⟩], [], [], 0⟩ := by
  have hfirst : ((execute true touchGraph).runIn touchSession).1 =
      .ok ⟨[], [⟨"/t"⟩, ⟨"/t"⟩], [⟨"/o/x"⟩], 1⟩ := by decide +kernel
  refine ⟨hfirst, ?_⟩
  have hbuilt : touchGraph.Built :=
    .depend _ _ (.copy _ _ (.depend _ _ (.addAction _ .empty) (by decide))) (by decide)
  have hdiligent : touchGraph.Diligent [] :=
    touch_diligent rfl (by decide) (by decide)
  have hspares : touchGraph.SparesSources [] := by
    unfold Graph.SparesSources
    decide
  rcases hrun : (execute true touchGraph).runIn touchSession with ⟨result, left⟩
  rw [hrun] at hfirst
  obtain rfl : result = .ok _ := hfirst
  exact congrArg Prod.fst (execute_settled hbuilt hdiligent hspares (by decide)
    (exists_modified_of_times (by decide)) hrun touchGraph.actions)

/-- An action depends on a directory, and a copy behind it goes into that directory. -/
def holderGraph : Graph Unit :=
  ((Graph.empty.addAction (touch ⟨"/t"⟩)).1.depend ⟨"/t"⟩ ⟨"/d"⟩ 0).copy ⟨"/s"⟩ ⟨"/d/x"⟩

def holderSession : Session :=
  ⟨⟨[(["s"], .file ⟨#[1]⟩ 5 false), (["d"], .dir 3), (["t"], .file ⟨#[]⟩ 4 false)], [], 10⟩, []⟩

/-- A copy goes to a device. -/
def deviceGraph : Graph Unit :=
  (Graph.empty.addAction (touch ⟨"/t"⟩)).1.copy ⟨"/s"⟩ ⟨"/null"⟩

def deviceSession : Session :=
  ⟨⟨[(["s"], .file ⟨#[1]⟩ 5 false), (["null"], .device 0)], [], 10⟩, []⟩

/-- It is not enough that no target is a source: a copy into a directory that is a source makes the
target of that source old, and a copy to a device is never done. -/
theorem not_settled_of_apart :
    (holderGraph.Built ∧ holderGraph.Diligent [] ∧
      (∀ r ∈ holderGraph.rules, ∀ r' ∈ holderGraph.rules, r.place [] ≠ r'.origin []) ∧
      holderGraph.Sound [] holderSession.world ∧
      (∀ r ∈ holderGraph.rules, ∃ made, holderSession.world.modified r.source = .ok made ∧
        made ≤ holderSession.world.clock) ∧
      ((execute false holderGraph).runIn holderSession).1 =
        .ok ⟨[⟨"/t"⟩], [], [⟨"/d/x"⟩], 0⟩ ∧
      ((execute false holderGraph).runIn ((execute false holderGraph).runIn holderSession).2).1 =
        .ok ⟨[⟨"/d/x"⟩], [⟨"/t"⟩], [], 1⟩) ∧
    deviceGraph.Built ∧ deviceGraph.Diligent [] ∧ deviceGraph.SparesSources [] ∧
      deviceSession.world.Standing ∧ deviceSession.world.LinkFree ∧
      (∀ r ∈ deviceGraph.rules, ∃ made, deviceSession.world.modified r.source = .ok made ∧
        made ≤ deviceSession.world.clock) ∧
      ((execute false deviceGraph).runIn deviceSession).1 = .ok ⟨[], [], [⟨"/null"⟩], 0⟩ ∧
      ((execute false deviceGraph).runIn ((execute false deviceGraph).runIn deviceSession).2).1 =
        .ok ⟨[], [], [⟨"/null"⟩], 0⟩ := by
  refine ⟨⟨.copy _ _ (.depend _ _ (.addAction _ .empty) (by decide)),
    touch_diligent rfl (by decide) (by decide), by decide, by decide,
    exists_modified_of_times (by decide), by decide +kernel, by decide +kernel⟩,
    .copy _ _ (.addAction _ .empty), touch_diligent rfl (by decide) (by decide), ?_, ?_, by decide,
    exists_modified_of_times (by decide), by decide +kernel, by decide +kernel⟩
  · unfold Graph.SparesSources
    decide
  · intro loc hloc
    rw [List.suffix_nil.1 hloc]
    rfl

end ClojureBuild.Rules
