import ClojureBuild.Proofs.Journal
import ClojureBuild.Proofs.World.Links
/-!
Laws of planning.

A survey succeeds when no requested unit has its source below two roots, a mirroring when no two
copies go to one place.  What each then holds is said without its loop.
-/

namespace ClojureBuild

/-- At most one element passes a test when no two do. -/
theorem length_filter_le_one_iff {α : Type} (p : α → Bool) (xs : List α) :
    (xs.filter p).length ≤ 1 ↔ xs.Pairwise fun a b => ¬ (p a = true ∧ p b = true) := by
  induction xs with
  | nil => simp
  | cons x rest ih =>
      by_cases hx : p x = true
      · rw [List.filter_cons_of_pos hx, List.length_cons, List.pairwise_cons, ← ih]
        have hnone : (rest.filter p).length + 1 ≤ 1 ↔ ∀ b ∈ rest, ¬ p b = true := by
          rw [← List.filter_eq_nil_iff, ← List.length_eq_zero_iff]
          omega
        rw [hnone]
        constructor
        · intro h
          refine ⟨fun b hb hboth => h b hb hboth.2, ?_⟩
          rw [List.filter_eq_nil_iff.2 h]
          exact Nat.zero_le 1
        · rintro ⟨h, -⟩ b hb hpass
          exact h b hb ⟨hx, hpass⟩
      · rw [List.filter_cons_of_neg hx, List.pairwise_cons, ← ih]
        simp [hx]

/-! ### Source files below a root -/

/-- A Clojure file lies below a root. -/
def World.ClojureBelow (w : World) (root : Path) (names : List String) : Prop :=
  w.FileBelow root names ∧ hasExtension UnitId.sourceExtension (root.descend names) = true

/-- The names of all entries below a root that have the extension of a Clojure file. -/
def World.clojureNames (w : World) (root : Path) : List (List String) :=
  match w.stat root with
  | .ok (loc, _) =>
      ((w.entriesBelow loc).map (·.1.reverse)).filter fun names =>
        hasExtension UnitId.sourceExtension (root.descend names)
  | .error _ => []

theorem World.ClojureBelow.mem_clojureNames {w : World} {root : Path} {names : List String}
    (h : w.ClojureBelow root names) : names ∈ w.clojureNames root := by
  obtain ⟨hbelow, hext⟩ := h
  obtain ⟨-, loc, t, hroot, -⟩ := id hbelow
  obtain ⟨entry, hentry, hnames⟩ := List.mem_map.1 (hbelow.mem_entriesBelow hroot)
  rw [clojureNames, hroot]
  refine List.mem_filter.2 ⟨List.mem_map.2 ⟨entry, hentry, ?_⟩, hext⟩
  rw [hnames, List.reverse_reverse]

theorem hasExtension_of_unitOf {root p : Path} {unit : UnitId} (h : unitOf root p = some unit) :
    hasExtension UnitId.sourceExtension p = true := by
  rw [unitOf] at h
  split at h
  next hext => exact hext
  next => exact absurd h (by simp)

theorem unitOf_self (root : Path) : unitOf root root = none := by
  have hnames : (⟨""⟩ : Path).dropExtension.components = [] := by decide
  rw [unitOf, Path.below?_self]
  simp [hnames]

theorem exists_of_unitOf {w : World} (hfree : w.LinkFree) (htree : w.IsTree) {all : Bool}
    {root p : Path} (hwalk : World.Walkable root) {unit : UnitId}
    (hp : p ∈ w.filesUnder all root) (hunit : unitOf root p = some unit) :
    ∃ names, w.ClojureBelow root names ∧ World.Opens root names ∧ root.descend names = p := by
  rcases (World.mem_filesUnder hfree htree hwalk).1 hp with ⟨-, rfl⟩ |
    ⟨names, hbelow, hopens, -, rfl⟩
  · rw [unitOf_self] at hunit
    exact absurd hunit (by simp)
  · exact ⟨names, ⟨hbelow, hasExtension_of_unitOf hunit⟩, hopens, rfl⟩

theorem exists_descend_of_unitOf {w : World} (htree : w.IsTree) {all : Bool} {root p : Path}
    {unit : UnitId} (hp : p ∈ w.filesUnder all root) (hunit : unitOf root p = some unit) :
    ∃ names, names ≠ [] ∧ (∀ name ∈ names, Path.IsName name) ∧ p = root.descend names := by
  obtain ⟨names, hnames, rfl⟩ := World.exists_descend_of_mem_filesUnder htree.named hp
  refine ⟨names, ?_, hnames, rfl⟩
  rintro rfl
  rw [Path.descend_nil, unitOf_self] at hunit
  exact absurd hunit (by simp)

/-! ### The survey -/

/-- A unit at the root that holds it. -/
def LocatedUnit.at (unit : UnitId) (root : Path) : LocatedUnit :=
  ⟨unit, root, unit.sourceFile root⟩

@[simp] theorem LocatedUnit.source_at (unit : UnitId) (root : Path) :
    (LocatedUnit.at unit root).source = unit.sourceFile root := by
  rw [LocatedUnit.at]

theorem locate_eq_ok {w : World} {roots : List Path} {unit : UnitId}
    (h : (holders w unit roots).length ≤ 1) :
    locate w roots unit = .ok ((holders w unit roots).head?.map (LocatedUnit.at unit)) := by
  rw [locate]
  cases hholders : holders w unit roots with
  | nil => rfl
  | cons root others =>
      cases others with
      | nil => rfl
      | cons root' more => simp [hholders] at h

theorem locate_eq_error {w : World} {roots : List Path} {unit : UnitId}
    (h : ¬ (holders w unit roots).length ≤ 1) :
    locate w roots unit = .error (.duplicateNamespace unit) := by
  rw [locate]
  cases hholders : holders w unit roots with
  | nil => simp [hholders] at h
  | cons root others =>
      cases others with
      | nil => simp [hholders] at h
      | cons root' more => rfl

namespace Survey

variable {w : World} {roots : List Path} {units : List UnitId}

/-- A survey succeeds when no unit has its source below two roots. -/
theorem failure_eq_none_iff :
    (ofUnits w roots units).failure = none ↔ ∀ u ∈ units, (holders w u roots).length ≤ 1 := by
  induction units with
  | nil => simp [ofUnits]
  | cons unit rest ih =>
      by_cases hone : (holders w unit roots).length ≤ 1
      · rw [ofUnits, locate_eq_ok hone]
        simpa [hone] using ih
      · rw [ofUnits, locate_eq_error hone]
        simp [hone]

/-- What a successful survey finds, in the order of the request. -/
theorem located_eq (h : (ofUnits w roots units).failure = none) :
    (ofUnits w roots units).located =
      units.filterMap fun u => (holders w u roots).head?.map (LocatedUnit.at u) := by
  induction units with
  | nil => rfl
  | cons unit rest ih =>
      have hall := failure_eq_none_iff.1 h
      have hone := hall unit List.mem_cons_self
      have hrest := ih (failure_eq_none_iff.2 fun u hu => hall u (List.mem_cons_of_mem unit hu))
      rw [List.filterMap_cons, ← hrest, ofUnits, locate_eq_ok hone, located, List.filterMap_cons]
      rfl

/-- A successful survey finds each unit at every root that holds it. -/
theorem mem_located_iff (h : (ofUnits w roots units).failure = none) {x : LocatedUnit} :
    x ∈ (ofUnits w roots units).located ↔
      ∃ u ∈ units, ∃ root ∈ roots, w.isFile (u.sourceFile root) = true ∧ x = .at u root := by
  rw [located_eq h, List.mem_filterMap]
  constructor
  · rintro ⟨u, hu, hx⟩
    obtain ⟨root, hroot, rfl⟩ := Option.map_eq_some_iff.1 hx
    obtain ⟨hmem, hfile⟩ := List.mem_filter.1 (List.mem_of_mem_head? hroot)
    exact ⟨u, hu, root, hmem, hfile, rfl⟩
  · rintro ⟨u, hu, root, hroot, hfile, rfl⟩
    have hmem : root ∈ holders w u roots := List.mem_filter.2 ⟨hroot, hfile⟩
    have hone := failure_eq_none_iff.1 h u hu
    refine ⟨u, hu, ?_⟩
    cases hholders : holders w u roots with
    | nil => simp [hholders] at hmem
    | cons first others =>
        have hothers : others = [] := by
          rw [hholders, List.length_cons] at hone
          exact List.length_eq_zero_iff.1 (by omega)
        rw [hholders, hothers, List.mem_singleton] at hmem
        rw [hmem]
        rfl

@[simp] theorem target_ruleFor (target : Path) (action : Nat) (u : LocatedUnit) :
    (ruleFor target action u).target = u.id.initArtifact target := by
  rw [ruleFor]

theorem ruleFor_at (target : Path) (action : Nat) (unit : UnitId) (root : Path) :
    ruleFor target action (.at unit root) =
      ⟨unit.initArtifact target, unit.sourceFile root, .invoke action⟩ := by
  rw [ruleFor, LocatedUnit.at]

theorem result_eq_ok {s : Survey} {found : List LocatedUnit} (h : s.result = .ok found) :
    s.failure = none := by
  rw [result] at h
  split at h
  · exact absurd h (by simp)
  next hnone => exact hnone

end Survey

/-! ### The mirroring -/

/-- A file asks for a copy when it names a unit that is not done. -/
theorem ofFile?_eq_some_iff {done : List UnitId} {target root p : Path} {c : MirrorCopy} :
    MirrorCopy.ofFile? done target root p = some c ↔
      ∃ u relative, unitOf root p = some u ∧ u ∉ done ∧ Path.below? root p = some relative ∧
        c = ⟨u, p, target.join relative⟩ := by
  rw [MirrorCopy.ofFile?]
  cases hunit : unitOf root p with
  | none => simp
  | some u =>
      by_cases hmem : u ∈ done
      · simp [hmem]
      · cases hbelow : Path.below? root p with
        | none => simp
        | some relative => simp [hmem, eq_comm]

namespace Mirror

variable {w : World} {done : List UnitId} {target : Path} {roots : List Path}

/-- The copies that the files below a root ask for. -/
def askedBelow (w : World) (done : List UnitId) (target root : Path) : List MirrorCopy :=
  (w.filesUnder true root).filterMap (MirrorCopy.ofFile? done target root)

/-- The copies below a root are those of the Clojure files there that a walk gets to and whose units
are not done. -/
theorem mem_askedBelow_iff (hfree : w.LinkFree) (htree : w.IsTree) {root : Path}
    (hwalk : World.Walkable root) {c : MirrorCopy} :
    c ∈ askedBelow w done target root ↔
      ∃ names u, w.ClojureBelow root names ∧ World.Opens root names ∧
        unitOf root (root.descend names) = some u ∧ u ∉ done ∧
          c = ⟨u, root.descend names, target.descend names⟩ := by
  have hplace : ∀ names, w.ClojureBelow root names →
      Path.below? root (root.descend names) = some (Path.ofPieces names) ∧
        target.join (Path.ofPieces names) = target.descend names := by
    intro names hbelow
    have hnames : ∀ name ∈ names, Path.IsName name :=
      fun name hname => (hbelow.1.names htree name hname).toIsName
    exact ⟨Path.below?_descend root hnames hbelow.1.1, Path.join_ofPieces target hbelow.1.1 hnames⟩
  rw [askedBelow, List.mem_filterMap]
  constructor
  · rintro ⟨p, hp, hc⟩
    obtain ⟨u, relative, hunit, hmem, hrelative, rfl⟩ := ofFile?_eq_some_iff.1 hc
    obtain ⟨names, hbelow, hopens, rfl⟩ := exists_of_unitOf hfree htree hwalk hp hunit
    obtain ⟨hfound, htarget⟩ := hplace names hbelow
    rw [hfound] at hrelative
    obtain rfl := Option.some.inj hrelative
    exact ⟨names, u, hbelow, hopens, hunit, hmem, by rw [htarget]⟩
  · rintro ⟨names, u, hbelow, hopens, hunit, hmem, rfl⟩
    obtain ⟨hfound, htarget⟩ := hplace names hbelow
    refine ⟨root.descend names, ?_, ?_⟩
    · exact (World.mem_filesUnder hfree htree hwalk).2
        (Or.inr ⟨names, hbelow.1, hopens, Or.inl rfl, rfl⟩)
    · exact ofFile?_eq_some_iff.2 ⟨u, _, hunit, hmem, hfound, by rw [htarget]⟩

theorem filterMap_copy?_cons (c : MirrorCopy) (steps : List MirrorStep) :
    (MirrorStep.copy c :: steps).filterMap MirrorStep.copy? =
      c :: steps.filterMap MirrorStep.copy? := rfl

theorem filterMap_copy?_allSteps :
    (allSteps w done target roots).filterMap MirrorStep.copy? =
      roots.flatMap (askedBelow w done target) := by
  rw [allSteps, List.filterMap_flatMap]
  refine congrArg (List.flatMap · roots) (funext fun root => ?_)
  rw [askedBelow, World.filesUnder, List.filterMap_filterMap, List.filterMap_filterMap]
  refine congrArg (List.filterMap · _) (funext fun sighting => ?_)
  cases sighting with
  | file p =>
      cases hcopy : MirrorCopy.ofFile? done target root p <;>
        simp [MirrorStep.ofSighting, Sighting.file?, hcopy, MirrorStep.copy?]
  | begun cwd => rfl
  | hidden p => rfl
  | unreadable p cause => rfl
  | loop p ancestor => rfl

/-- Two copies that go to different places. -/
def Apart (c c' : MirrorCopy) : Prop := c.target.same c'.target = false

/-- A copy goes down from the target by the names that lead from the root to its source. -/
theorem exists_descend_of_ofFile? (htree : w.IsTree) {root p : Path}
    (hp : p ∈ w.filesUnder true root) {c : MirrorCopy}
    (hc : MirrorCopy.ofFile? done target root p = some c) :
    ∃ names, (∀ name ∈ names, Path.IsName name) ∧ p = root.descend names ∧
      c.target = target.descend names := by
  obtain ⟨u, relative, hunit, -, hbelow, rfl⟩ := ofFile?_eq_some_iff.1 hc
  obtain ⟨names, hne, hnames, rfl⟩ := exists_descend_of_unitOf htree hp hunit
  rw [Path.below?_descend root hnames hne] at hbelow
  obtain rfl := Option.some.inj hbelow
  exact ⟨names, hnames, rfl, Path.join_ofPieces target hne hnames⟩

/-- The files below one root ask for copies to different places. -/
theorem pairwise_askedBelow (htree : w.IsTree) (root : Path) :
    (askedBelow w done target root).Pairwise Apart := by
  rw [askedBelow, List.pairwise_filterMap]
  refine (World.nodup_filesUnder htree true root).imp_of_mem fun hp hp' hne c hc c' hc' => ?_
  obtain ⟨names, hnames, rfl, htarget⟩ := exists_descend_of_ofFile? htree hp hc
  obtain ⟨names', hnames', rfl, htarget'⟩ := exists_descend_of_ofFile? htree hp' hc'
  rw [Apart, Bool.eq_false_iff, htarget, htarget', ne_eq,
    Path.descend_same_iff target hnames hnames']
  rintro rfl
  exact hne rfl

theorem takeSteps_taken {claimed : List Path} {c : MirrorCopy} (rest : List MirrorStep)
    (htaken : claimed.any (·.same c.target) = true) :
    takeSteps claimed (.copy c :: rest) = ⟨[], some c.unit⟩ := by
  rw [takeSteps, if_pos htaken]

theorem takeSteps_free {claimed : List Path} {c : MirrorCopy} (rest : List MirrorStep)
    (hfree : ¬ claimed.any (·.same c.target) = true) :
    takeSteps claimed (.copy c :: rest) =
      { takeSteps (c.target :: claimed) rest with
        steps := .copy c :: (takeSteps (c.target :: claimed) rest).steps } := by
  rw [takeSteps, if_neg hfree]

/-- Without a duplicate all steps are taken. -/
theorem steps_takeSteps {claimed : List Path} {steps : List MirrorStep}
    (h : (takeSteps claimed steps).duplicate = none) :
    (takeSteps claimed steps).steps = steps := by
  induction steps generalizing claimed with
  | nil => rfl
  | cons step rest ih =>
      cases step with
      | aside s => exact congrArg (MirrorStep.aside s :: ·) (ih h)
      | copy c =>
          by_cases htaken : claimed.any (·.same c.target) = true
          · rw [takeSteps_taken rest htaken] at h
            exact absurd h (by simp)
          · rw [takeSteps_free rest htaken] at h ⊢
            exact congrArg (MirrorStep.copy c :: ·) (ih h)

/-- No duplicate is met when no copy goes to a place that is claimed or to that of another copy. -/
theorem duplicate_takeSteps_iff {claimed : List Path} {steps : List MirrorStep} :
    (takeSteps claimed steps).duplicate = none ↔
      (steps.filterMap MirrorStep.copy?).Pairwise Apart ∧
        ∀ p ∈ claimed, ∀ c ∈ steps.filterMap MirrorStep.copy?, p.same c.target = false := by
  induction steps generalizing claimed with
  | nil => simp [takeSteps]
  | cons step rest ih =>
      cases step with
      | aside s => exact ih
      | copy c =>
          rw [filterMap_copy?_cons, List.pairwise_cons]
          by_cases htaken : claimed.any (·.same c.target) = true
          · obtain ⟨p, hp, hsame⟩ := List.any_eq_true.1 htaken
            rw [takeSteps_taken rest htaken]
            simp only [reduceCtorEq, false_iff, not_and]
            intro _ hclear
            have hapart := hclear p hp c List.mem_cons_self
            rw [hsame] at hapart
            exact absurd hapart (by simp)
          · have hfree : ∀ p ∈ claimed, p.same c.target = false := by simpa using htaken
            rw [takeSteps_free rest htaken]
            refine ih.trans ⟨?_, ?_⟩
            · rintro ⟨hrest, hclear⟩
              refine ⟨⟨hclear c.target List.mem_cons_self, hrest⟩, fun p hp d hd => ?_⟩
              rcases List.mem_cons.1 hd with rfl | hd
              · exact hfree p hp
              · exact hclear p (List.mem_cons_of_mem _ hp) d hd
            · rintro ⟨⟨hfirst, hrest⟩, hclear⟩
              refine ⟨hrest, fun p hp d hd => ?_⟩
              rcases List.mem_cons.1 hp with rfl | hp
              · exact hfirst d hd
              · exact hclear p hp d (List.mem_cons_of_mem _ hd)

theorem duplicate_eq_none_iff :
    (ofRoots w done target roots).duplicate = none ↔
      (roots.flatMap (askedBelow w done target)).Pairwise Apart := by
  rw [ofRoots, duplicate_takeSteps_iff, filterMap_copy?_allSteps]
  simp

theorem copies_eq (h : (ofRoots w done target roots).duplicate = none) :
    (ofRoots w done target roots).copies = roots.flatMap (askedBelow w done target) := by
  have hsteps : (ofRoots w done target roots).steps = allSteps w done target roots :=
    steps_takeSteps h
  rw [copies, hsteps, filterMap_copy?_allSteps]

theorem result_eq_ok {m : Mirror} {count : Nat} (h : m.result = .ok count) :
    m.duplicate = none := by
  rw [result] at h
  split at h
  · exact absurd h (by simp)
  next hnone => exact hnone

end Mirror

/-! ### What planning registers -/

/-- The rules that planning registers. -/
def plannedRules (w : World) (roots : List Path) (libs : List UnitId) (target : Path)
    (action : Nat) : List Rules.Rule :=
  (Survey.ofUnits w roots libs).rules target action ++ (Mirror.ofRoots w libs target roots).rules

/-- Neither the survey nor the mirroring meets a duplicate. -/
def PlanSucceeds (w : World) (roots : List Path) (libs : List UnitId) (target : Path) : Prop :=
  (∃ found, (Survey.ofUnits w roots libs).result = .ok found) ∧
    ∃ count, (Mirror.ofRoots w libs target roots).result = .ok count

theorem planSucceeds_iff {w : World} {roots : List Path} {libs : List UnitId} {target : Path} :
    PlanSucceeds w roots libs target ↔
      (Survey.ofUnits w roots libs).failure = none ∧
        (Mirror.ofRoots w libs target roots).duplicate = none := by
  constructor
  · rintro ⟨⟨found, hfound⟩, ⟨count, hcount⟩⟩
    exact ⟨Survey.result_eq_ok hfound, Mirror.result_eq_ok hcount⟩
  · rintro ⟨hsurvey, hmirror⟩
    exact ⟨⟨_, by rw [Survey.result, hsurvey]⟩, ⟨_, by rw [Mirror.result, hmirror]⟩⟩

/-- The rules of a successful planning: one for each source file of a requested unit, and one for
each Clojure file that a walk gets to and whose unit is not requested. -/
theorem mem_plannedRules_iff {w : World} {roots : List Path} {libs : List UnitId} {target : Path}
    (hfree : w.LinkFree) (htree : w.IsTree) (hwalk : ∀ root ∈ roots, World.Walkable root)
    (hplan : PlanSucceeds w roots libs target) {action : Nat} {rule : Rules.Rule} :
    rule ∈ plannedRules w roots libs target action ↔
      (∃ root ∈ roots, ∃ u ∈ libs, w.isFile (u.sourceFile root) = true ∧
        rule = ⟨u.initArtifact target, u.sourceFile root, .invoke action⟩) ∨
      (∃ root ∈ roots, ∃ names u, w.ClojureBelow root names ∧ World.Opens root names ∧
        unitOf root (root.descend names) = some u ∧ u ∉ libs ∧
          rule = ⟨target.descend names, root.descend names, .copy⟩) := by
  obtain ⟨hsurvey, hmirror⟩ := planSucceeds_iff.1 hplan
  rw [plannedRules, List.mem_append, Survey.rules, Mirror.rules, List.mem_map, List.mem_map,
    Mirror.copies_eq hmirror]
  constructor
  · rintro (⟨found, hfound, rfl⟩ | ⟨c, hc, rfl⟩)
    · obtain ⟨u, hu, root, hroot, hfile, rfl⟩ := (Survey.mem_located_iff hsurvey).1 hfound
      exact Or.inl ⟨root, hroot, u, hu, hfile, Survey.ruleFor_at target action u root⟩
    · obtain ⟨root, hroot, hasked⟩ := List.mem_flatMap.1 hc
      obtain ⟨names, u, hbelow, hopens, hunit, hmem, rfl⟩ :=
        (Mirror.mem_askedBelow_iff hfree htree (hwalk root hroot)).1 hasked
      exact Or.inr ⟨root, hroot, names, u, hbelow, hopens, hunit, hmem, rfl⟩
  · rintro (⟨root, hroot, u, hu, hfile, rfl⟩ |
      ⟨root, hroot, names, u, hbelow, hopens, hunit, hmem, rfl⟩)
    · exact Or.inl ⟨.at u root, (Survey.mem_located_iff hsurvey).2 ⟨u, hu, root, hroot, hfile, rfl⟩,
        Survey.ruleFor_at target action u root⟩
    · exact Or.inr ⟨_, List.mem_flatMap.2 ⟨root, hroot,
        (Mirror.mem_askedBelow_iff hfree htree (hwalk root hroot)).2
          ⟨names, u, hbelow, hopens, hunit, hmem, rfl⟩⟩, rfl⟩

/-! ### The plan of a compilation -/

theorem text_ne_of_mem_sourceRoots {w : World} {sources : List Path} {root : Path}
    (hroot : root ∈ sourceRoots w sources) : root.text ≠ "" := by
  obtain ⟨loc, node, hstat, -⟩ := World.isDir_eq_true_iff.1 (List.mem_filter.1 hroot).2
  exact (World.askable_of_stat hstat).nonempty

theorem walkable_of_mem_sourceRoots {w : World} {sources : List Path} {root : Path}
    (hroot : root ∈ sourceRoots w sources) (hplace : root.same ⟨"-"⟩ = false) :
    World.Walkable root :=
  ⟨text_ne_of_mem_sourceRoots hroot, hplace⟩

/-- What a plan holds: a survey and a mirroring of the roots, both without a duplicate. -/
structure Planned (w : World) (o : CompileOptions) (request : CompileRequest)
    (plan : CompilePlan) : Prop where
  libs : plan.libs = CompilePlan.chooseLibs w o (sourceRoots w request.sources)
  survey : plan.survey = Survey.ofUnits w (sourceRoots w request.sources) plan.libs
  mirror : plan.mirror =
    Mirror.ofRoots w plan.libs plan.target (sourceRoots w request.sources)
  located : plan.survey.failure = none
  mirrored : plan.mirror.duplicate = none

theorem Planned.succeeds {w : World} {o : CompileOptions} {request : CompileRequest}
    {plan : CompilePlan} (hplan : Planned w o request plan) :
    PlanSucceeds w (sourceRoots w request.sources) plan.libs plan.target :=
  planSucceeds_iff.2 ⟨hplan.survey ▸ hplan.located, hplan.mirror ▸ hplan.mirrored⟩

theorem Planned.rules_eq {w : World} {o : CompileOptions} {request : CompileRequest}
    {plan : CompilePlan} (hplan : Planned w o request plan) :
    plan.rules = plannedRules w (sourceRoots w request.sources) plan.libs plan.target 0 := by
  rw [CompilePlan.rules, hplan.survey, hplan.mirror, plannedRules]

/-- The located units stand in the order of the compile list. -/
theorem Planned.located_sublist {w : World} {o : CompileOptions} {request : CompileRequest}
    {plan : CompilePlan} (hplan : Planned w o request plan) :
    (plan.survey.located.map (·.id)).Sublist plan.libs := by
  have hfailure := hplan.located
  rw [hplan.survey] at hfailure ⊢
  rw [Survey.located_eq hfailure, List.map_filterMap]
  have hkept : ∀ units : List UnitId, (units.filterMap fun u =>
      ((holders w u (sourceRoots w request.sources)).head?.map (LocatedUnit.at u)).map
        (·.id)).Sublist units := by
    intro units
    induction units with
    | nil => exact List.Sublist.slnil
    | cons u rest ih =>
        cases hroot : (holders w u (sourceRoots w request.sources)).head? with
        | none => simpa [hroot] using ih.cons u
        | some root => simpa [hroot, LocatedUnit.at] using ih.cons_cons u
  exact hkept plan.libs

/-- Planning only notes, and quietly, whether it succeeds or fails. -/
theorem planCompile_leads {R : Session → Session → Prop} (hR : Noting R) (t : Toolchain)
    (o : CompileOptions) (request : CompileRequest) :
    Task.Leads R (planCompile t o request) := by
  have := hR.toIsPreorder
  have hlog := fun s level message fields =>
    hR.note s (quiet_log (by decide : LogArea.compiler ≠ .rules) level message fields)
  unfold planCompile
  refine .bind (.look id) fun w => ?_
  refine .bind (.ofExcept _) fun target => ?_
  refine .bind (.note fun s => hlog s _ _ _) fun _ => ?_
  refine .bind (.note fun s => hlog s _ _ _) fun _ => ?_
  refine .note_if (fun s => hR.note s (quiet_discoverEvents w _)) ?_
  refine .bind (.note fun s => hlog s _ _ _) fun _ => ?_
  refine .bind (.ofExcept _) fun classpath => ?_
  refine .bind (.note fun s => hR.note s (quiet_rendered _)) fun _ => ?_
  refine .bind (.note fun s => hR.note s (Survey.quiet_events _ target)) fun _ => ?_
  refine .bind (.ofExcept _) fun _ => ?_
  refine .bind (.note fun s => hR.note s (Mirror.quiet_events _)) fun _ => ?_
  exact .bind (.ofExcept _) fun _ => .pure _

theorem planCompile_moves (t : Toolchain) (o : CompileOptions) (request : CompileRequest) :
    Task.Moves (· = ·) (planCompile t o request) :=
  planCompile_leads noting_of_world t o request

/-- Planning leaves the world as it is and marks no step, whether it succeeds or fails. -/
theorem planCompile_untouched {t : Toolchain} {o : CompileOptions} {request : CompileRequest}
    {s s' : Session} {result : Except BuildError CompilePlan}
    (h : (planCompile t o request).runIn s = (result, s')) :
    s'.world = s.world ∧ s'.marks = s.marks := by
  have hworld := planCompile_moves t o request s
  have hmarked := planCompile_leads (marked_routine fun _ => False).toNoting t o request s
  rw [h] at hworld hmarked
  obtain ⟨marks, hnone, hmarks⟩ := hmarked
  rw [List.eq_nil_iff_forall_not_mem.2 hnone, List.append_nil] at hmarks
  exact ⟨hworld.symm, hmarks⟩

/-- The plan that planning gives when it succeeds. -/
theorem eq_of_planCompile {t : Toolchain} {o : CompileOptions} {request : CompileRequest}
    {s s' : Session} {plan : CompilePlan}
    (h : (planCompile t o request).runIn s = (.ok plan, s')) :
    Planned s.world o request plan ∧
      absolutePath s.world request.target = .ok plan.target ∧
      plan.invocation = compileInvocation t.java (Classpath.render plan.classpath plan.target)
        plan.target plan.libs := by
  unfold planCompile at h
  obtain ⟨w, s₁, hlook, h⟩ := Task.runIn_bind_eq_ok h
  obtain ⟨rfl, rfl⟩ := hlook
  obtain ⟨target, s₂, htarget, h⟩ := Task.runIn_bind_eq_ok h
  obtain ⟨⟨⟩, s₃, -, h⟩ := Task.runIn_bind_eq_ok h
  obtain ⟨⟨⟩, s₄, -, h⟩ := Task.runIn_bind_eq_ok h
  obtain ⟨s₅, h⟩ := Task.exists_of_note_if h
  obtain ⟨⟨⟩, s₆, -, h⟩ := Task.runIn_bind_eq_ok h
  obtain ⟨classpath, s₇, -, h⟩ := Task.runIn_bind_eq_ok h
  obtain ⟨⟨⟩, s₈, -, h⟩ := Task.runIn_bind_eq_ok h
  obtain ⟨⟨⟩, s₉, -, h⟩ := Task.runIn_bind_eq_ok h
  obtain ⟨found, s₁₀, hsurvey, h⟩ := Task.runIn_bind_eq_ok h
  obtain ⟨⟨⟩, s₁₁, -, h⟩ := Task.runIn_bind_eq_ok h
  obtain ⟨count, s₁₂, hmirror, h⟩ := Task.runIn_bind_eq_ok h
  rw [Task.runIn_ofExcept, Prod.mk.injEq] at htarget hsurvey hmirror
  cases h
  exact ⟨⟨rfl, rfl, rfl, Survey.result_eq_ok hsurvey.1, Mirror.result_eq_ok hmirror.1⟩, htarget.1,
    rfl⟩

theorem exists_absolutePath (w : World) {p : Path} (h : p.text ≠ "") :
    ∃ q, absolutePath w p = .ok q := by
  obtain ⟨q, hq⟩ := Path.exists_absolute? w.cwdPath h
  exact ⟨q, by rw [absolutePath, hq]⟩

/-- A classpath of paths can be made absolute when none of them is empty. -/
theorem exists_resolve (w : World) (repository : Path) {paths : List Path}
    (h : ∀ p ∈ paths, p.text ≠ "") :
    ∃ found, Classpath.resolve w repository (paths.map .path) = .ok found := by
  induction paths with
  | nil => exact ⟨[], rfl⟩
  | cons p rest ih =>
      obtain ⟨q, hq⟩ := exists_absolutePath w (h p List.mem_cons_self)
      obtain ⟨found, hfound⟩ := ih fun other hother => h other (List.mem_cons_of_mem p hother)
      refine ⟨q :: found, ?_⟩
      rw [List.map_cons, Classpath.resolve, Classpath.resolveEntry, hq, hfound]
      rfl

/-- Planning succeeds when the target and the classpath can be made absolute and neither the survey
nor the mirroring meets a duplicate. -/
theorem exists_planCompile {t : Toolchain} {o : CompileOptions} {request : CompileRequest}
    {s : Session} {target : Path} (htarget : absolutePath s.world request.target = .ok target)
    {classpath : List Path} (hclasspath : t.classpath s.world
      (CompilePlan.entries request (sourceRoots s.world request.sources)) = .ok classpath)
    (hplan : PlanSucceeds s.world (sourceRoots s.world request.sources)
      (CompilePlan.chooseLibs s.world o (sourceRoots s.world request.sources)) target) :
    ∃ plan planned, (planCompile t o request).runIn s = (.ok plan, planned) ∧
      plan.target = target := by
  obtain ⟨⟨found, hfound⟩, ⟨count, hcount⟩⟩ := hplan
  unfold planCompile
  simp only [Task.runIn_bind, Task.runIn_look, Task.runIn_ofExcept, Task.runIn_log, htarget, id]
  split <;> simp only [Task.runIn_bind, Task.runIn_log, Task.runIn_ofExcept, Task.runIn_note,
    Task.runIn_pure, hclasspath, hfound, hcount] <;> exact ⟨_, _, rfl, rfl⟩

theorem planned_of_runIn {t : Toolchain} {o : CompileOptions} {request : CompileRequest}
    {s s' : Session} {plan : CompilePlan}
    (h : (planCompile t o request).runIn s = (.ok plan, s')) :
    Planned s.world o request plan :=
  (eq_of_planCompile h).1

end ClojureBuild
