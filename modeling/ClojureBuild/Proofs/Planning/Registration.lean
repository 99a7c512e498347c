import ClojureBuild.Proofs.Planning.Duplicates
import Mathlib.Data.List.TakeWhile
/-!
Registering the requested units.

A unit is located by the number of positions of the roots that hold its source: none, one or more.
Registration takes the units in order and ends at the first that more than one position holds.  Main
statements: registration gives the result of the survey and puts the rules of the survey behind
those of the graph; so it adds one rule for each unit that is found in front of the first duplicate,
and changes nothing else, whether it succeeds or fails.
-/

namespace ClojureBuild

variable {w : World} {roots : List Path} {unit : UnitId}

/-! ### Locating a unit -/

/-- How many positions of the roots hold the source of a unit. -/
def World.holdings (w : World) (roots : List Path) (unit : UnitId) : Nat :=
  roots.countP fun root => w.isFile (unit.sourceFile root)

theorem World.length_holders : (holders w unit roots).length = w.holdings roots unit :=
  List.countP_eq_length_filter.symm

theorem World.holdsTwice_iff_holdings : w.HoldsTwice roots unit ↔ 2 ≤ w.holdings roots unit := by
  rw [holdsTwice_iff, length_holders]
  omega

/-- What locating a unit gives, by the number of positions that hold its source. -/
structure LocatesByCount (w : World) (roots : List Path) (unit : UnitId) : Prop where
  none_iff : locate w roots unit = .ok none ↔ w.holdings roots unit = 0
  /-- With one position, it is the root there and the source below it. -/
  some_iff : ∀ x, locate w roots unit = .ok (some x) ↔
    w.holdings roots unit = 1 ∧ x.root ∈ roots ∧ w.isFile (unit.sourceFile x.root) = true ∧
      x = ⟨unit, x.root, unit.sourceFile x.root⟩
  error_iff : ∀ e, locate w roots unit = .error e ↔
    2 ≤ w.holdings roots unit ∧ e = .duplicateNamespace unit

theorem locatesByCount (w : World) (roots : List Path) (unit : UnitId) :
    LocatesByCount w roots unit := by
  have hcount : (holders w unit roots).length = w.holdings roots unit := World.length_holders
  cases hholders : holders w unit roots with
  | nil =>
      rw [hholders, List.length_nil] at hcount
      have hlocate : locate w roots unit = .ok none := by rw [locate, hholders]
      refine ⟨?_, fun x => ?_, fun e => ?_⟩ <;> simp [hlocate, ← hcount]
  | cons root others =>
      cases others with
      | nil =>
          rw [hholders, List.length_singleton] at hcount
          have hlocate : locate w roots unit = .ok (some (.at unit root)) := by
            rw [locate, hholders]
            rfl
          have hmem : ∀ other, other = root ↔
              other ∈ roots ∧ w.isFile (unit.sourceFile other) = true := by
            intro other
            rw [← List.mem_singleton, ← hholders, holders, List.mem_filter]
          refine ⟨by simp [hlocate, ← hcount], fun x => ?_, by simp [hlocate, ← hcount]⟩
          rw [hlocate, Except.ok.injEq, Option.some.injEq, ← hcount]
          constructor
          · rintro rfl
            obtain ⟨hroot, hfile⟩ := (hmem root).1 rfl
            exact ⟨rfl, hroot, hfile, rfl⟩
          · rintro ⟨-, hroot, hfile, hx⟩
            rw [hx, (hmem x.root).2 ⟨hroot, hfile⟩, LocatedUnit.at]
      | cons other more =>
          rw [hholders, List.length_cons, List.length_cons] at hcount
          have hlocate : locate w roots unit = .error (.duplicateNamespace unit) := by
            rw [locate, hholders]
          refine ⟨?_, fun x => ?_, fun e => ?_⟩
          · rw [hlocate, ← hcount]
            simp
          · rw [hlocate, ← hcount]
            simp
          · rw [hlocate, ← hcount, Except.error.injEq, eq_comm]
            simp

/-! ### Registering units -/

/-- What is found of a unit that is no duplicate. -/
def findUnit? (w : World) (roots : List Path) (unit : UnitId) : Option LocatedUnit :=
  (locate w roots unit).toOption.join

namespace Survey

variable {units : List UnitId}

/-- A survey finds the units in front of the first duplicate. -/
theorem located_eq_takeWhile :
    (ofUnits w roots units).located =
      (units.takeWhile fun u => w.holdings roots u ≤ 1).filterMap (findUnit? w roots) := by
  induction units with
  | nil => rfl
  | cons unit rest ih =>
      by_cases hone : w.holdings roots unit ≤ 1
      · have hlocate := locate_eq_ok (World.length_holders ▸ hone)
        have hfound : findUnit? w roots unit =
            (holders w unit roots).head?.map (LocatedUnit.at unit) := by
          rw [findUnit?, hlocate]
          rfl
        rw [List.takeWhile_cons_of_pos (by simpa using hone), List.filterMap_cons, hfound, ← ih,
          ofUnits, hlocate, located, List.filterMap_cons]
        rfl
      · have hlocate := locate_eq_error (World.length_holders ▸ hone)
        rw [List.takeWhile_cons_of_neg (by simpa using hone), ofUnits, hlocate]
        rfl

theorem result_eq_ok_iff {found : List LocatedUnit} :
    (ofUnits w roots units).result = .ok found ↔
      (∀ u ∈ units, w.holdings roots u ≤ 1) ∧ found = units.filterMap (findUnit? w roots) := by
  have hnone : (ofUnits w roots units).failure = none ↔ ∀ u ∈ units, w.holdings roots u ≤ 1 := by
    simp only [failure_eq_none_iff, World.length_holders]
  have hall : (∀ u ∈ units, w.holdings roots u ≤ 1) →
      units.takeWhile (fun u => w.holdings roots u ≤ 1) = units := by
    intro hone
    rw [List.takeWhile_eq_self_iff]
    simpa using hone
  constructor
  · intro h
    have hclean := result_eq_ok h
    have hone := hnone.1 hclean
    rw [result, hclean, located_eq_takeWhile, hall hone] at h
    exact ⟨hone, (Except.ok.inj h).symm⟩
  · rintro ⟨hone, rfl⟩
    rw [result, hnone.2 hone, located_eq_takeWhile, hall hone]

theorem result_eq_error_iff {e : BuildError} :
    (ofUnits w roots units).result = .error e ↔
      ∃ u, FirstIn (fun u => 2 ≤ w.holdings roots u) units u ∧ e = .duplicateNamespace u := by
  have hfailure : (ofUnits w roots units).result = .error e ↔
      (ofUnits w roots units).failure = some e := by
    rw [result]
    split <;> simp_all
  simp only [hfailure, failure_eq_some_iff, ← World.holdsTwice_iff_holdings]

end Survey

variable {ε : Type}

/-- Registration is the survey, whose rules come behind those of the graph. -/
theorem register_eq (w : World) (roots : List Path) (target : Path) (action : Nat)
    (units : List UnitId) (g : Rules.Graph ε) :
    register w roots target action units g =
      ((Survey.ofUnits w roots units).result,
        g.addRules ((Survey.ofUnits w roots units).rules target action)) := by
  induction units generalizing g with
  | nil => simp [register, Survey.ofUnits, Survey.result, Survey.located, Survey.rules,
      Rules.Graph.addRules]
  | cons unit rest ih =>
      rw [register, Survey.ofUnits]
      cases hlocate : locate w roots unit with
      | error e => simp [Survey.result, Survey.located, Survey.rules, Rules.Graph.addRules]
      | ok found =>
          cases found with
          | none =>
              simp only [ih]
              rfl
          | some x =>
              obtain ⟨-, -, -, hx⟩ := ((locatesByCount w roots unit).some_iff x).1 hlocate
              have hid : x.id = unit := by rw [hx]
              simp only [ih, Rules.Graph.depend, Rules.Graph.addRules, List.append_assoc]
              refine Prod.ext ?_ ?_
              · rw [Survey.result, Survey.result]
                cases (Survey.ofUnits w roots rest).failure <;> rfl
              · rw [← hid]
                rfl

/-- What registration gives and what it leaves of a graph. -/
structure RegistersInOrder (w : World) (roots : List Path) (target : Path) (action : Nat)
    (units : List UnitId) (g : Rules.Graph ε) (result : Except BuildError (List LocatedUnit))
    (g' : Rules.Graph ε) : Prop where
  actions : g'.actions = g.actions
  /-- One rule for each unit that is found in front of the first duplicate. -/
  rules : g'.rules = g.rules ++
    ((units.takeWhile fun u => w.holdings roots u ≤ 1).filterMap (findUnit? w roots)).map fun x =>
      ⟨x.id.initArtifact target, x.source, .invoke action⟩
  ok_iff : ∀ found, result = .ok found ↔
    (∀ u ∈ units, w.holdings roots u ≤ 1) ∧ found = units.filterMap (findUnit? w roots)
  error_iff : ∀ e, result = .error e ↔
    ∃ u, FirstIn (fun u => 2 ≤ w.holdings roots u) units u ∧ e = .duplicateNamespace u

/-- Locating a unit counts the positions that hold its source, and registration adds exactly the
rules of the units found in front of the first duplicate, which is its error. -/
theorem register_in_order (w : World) (roots : List Path) :
    (∀ unit, LocatesByCount w roots unit) ∧
      ∀ (target : Path) (action : Nat) (units : List UnitId) (g : Rules.Graph ε),
        RegistersInOrder w roots target action units g (register w roots target action units g).1
          (register w roots target action units g).2 := by
  refine ⟨locatesByCount w roots, fun target action units g => ?_⟩
  rw [register_eq]
  refine ⟨rfl, ?_, fun found => Survey.result_eq_ok_iff, fun e => Survey.result_eq_error_iff⟩
  rw [← Survey.located_eq_takeWhile]
  rfl

/-- The graph of a plan is what registration makes of the compiler's action, with the copies of the
mirrored sources behind. -/
theorem Planned.graph_eq {o : CompileOptions} {request : CompileRequest} {plan : CompilePlan}
    (hplan : Planned w o request plan) (run : Runner) :
    plan.graph run =
      (register w (sourceRoots w request.sources) plan.target 0 plan.libs
        (Rules.Graph.empty.addAction (compileAction run plan.invocation plan.target)).1).2.addRules
          plan.mirror.rules := by
  rw [register_eq, CompilePlan.graph, CompilePlan.rules, hplan.survey]
  rfl

end ClojureBuild
