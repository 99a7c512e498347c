import ClojureBuild.Rules.Graph
import ClojureBuild.Rules.Freshness
/-!
Carrying out the rules of a graph.

The states of all targets are decided first, because a shared action writes the targets of later
rules, which must still count as rebuilt.  Then the rules are carried out in order.  An action runs
for the first stale rule that names it and covers the others.  The first failure stops everything,
and what was done before stays done.
-/

namespace ClojureBuild.Rules

/-- What one execution did. -/
structure Report where
  /-- Targets that were up to date. -/
  fresh : List Path
  /-- Stale targets of rules with an action. -/
  rebuilt : List Path
  copied : List Path
  actionsRun : Nat
deriving DecidableEq, Repr, Inhabited

/-- Whether nothing was rebuilt or copied. -/
def Report.isNoop (r : Report) : Bool :=
  r.rebuilt.isEmpty && r.copied.isEmpty

/-- The report so far and the numbers of the actions that ran. -/
structure Progress where
  report : Report
  ran : List Nat
deriving DecidableEq, Repr, Inhabited

/-- Nothing was done yet. -/
def Progress.start : Progress := ⟨⟨[], [], [], 0⟩, []⟩

variable {ε : Type}

/-- The states of the targets, in order; the first failure wins.  Under `force` every target is
outdated and no file is looked at. -/
def states (w : World) (force : Bool) : List Rule → Except (Failure ε) (List Freshness)
  | [] => .ok []
  | rule :: rest => do
      let state ← if force then .ok .outdated else Freshness.check w rule.source rule.target
      let others ← states w force rest
      return state :: others

/-- Copies a file, making the target's directory first. -/
def copyFile (source target : Path) : Task (Failure ε) Unit := do
  match target.parent? with
  | some parent => Task.change (·.makeDirs parent) (Failure.io parent)
  | none => pure ()
  Task.change (·.copyFile source target) (Failure.io target)

/-- Runs an action for the rule that needs it first. -/
def runAction (rule : Rule) (state : Freshness) (action : Action ε) : Task (Failure ε) Unit := do
  Task.log .rules .debug "stale, running action"
    [("output", rule.target.display), ("state", state.name), ("action", action.label)]
  action.task.mapError (Failure.actionFailed action.label)

def step (g : Graph ε) (rule : Rule) (state : Freshness) (progress : Progress) :
    Task (Failure ε) Progress := do
  let report := progress.report
  if !state.isStale then
    Task.log .rules .debug "up to date" [("output", rule.target.display)]
    return { progress with report.fresh := report.fresh ++ [rule.target] }
  match rule.action with
  | .invoke n =>
      if n ∈ progress.ran then
        Task.log .rules .debug "covered by earlier run" [("output", rule.target.display)]
        return { progress with report.rebuilt := report.rebuilt ++ [rule.target] }
      else
        match g.actions[n]? with
        | some action => runAction rule state action
        | none => pure ()
        return {
          report := { report with
            rebuilt := report.rebuilt ++ [rule.target]
            actionsRun := report.actionsRun + 1 }
          ran := n :: progress.ran }
  | .copy =>
      Task.log .rules .debug "copying"
        [("input", rule.source.display), ("output", rule.target.display)]
      copyFile rule.source rule.target
      return { progress with report.copied := report.copied ++ [rule.target] }

def carryOut (g : Graph ε) : List (Rule × Freshness) → Progress → Task (Failure ε) Progress
  | [], progress => pure progress
  | (rule, state) :: rest, progress => do
      let progress ← step g rule state progress
      carryOut g rest progress

/-- Brings every stale target of a graph up to date. -/
def execute (force : Bool) (g : Graph ε) : Task (Failure ε) Report := do
  let known ← Task.look (fun w => states w force g.rules)
  let known ← Task.ofExcept known
  let progress ← carryOut g (g.rules.zip known) .start
  return progress.report

end ClojureBuild.Rules
