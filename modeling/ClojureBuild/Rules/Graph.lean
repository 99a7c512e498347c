import ClojureBuild.Session
/-!
Rule graphs: which target depends on which source, and what brings a stale target up to date.

An action is registered once and may serve many rules.  Rules keep the order in which they were
registered, and that is the order in which they are carried out.
-/

namespace ClojureBuild.Rules

/-- What is done about a stale target. -/
inductive RuleAction where
  | invoke (action : Nat)
  /-- Copy the source onto the target. -/
  | copy
deriving DecidableEq, Repr, Inhabited

/-- A target and the source it is made from. -/
structure Rule where
  target : Path
  source : Path
  action : RuleAction
deriving DecidableEq, Repr, Inhabited

/-- Shared work that brings targets up to date. -/
structure Action (ε : Type) where
  label : String
  task : Task ε Unit

/-- Actions and rules, in the order of their registration. -/
structure Graph (ε : Type) where
  actions : List (Action ε)
  rules : List Rule

namespace Graph

variable {ε : Type}

/-- A graph without rules. -/
def empty : Graph ε := ⟨[], []⟩

/-- Adds an action; its number is the count of those before it. -/
def addAction (g : Graph ε) (action : Action ε) : Graph ε × Nat :=
  ({ g with actions := g.actions ++ [action] }, g.actions.length)

def addRules (g : Graph ε) (rules : List Rule) : Graph ε :=
  { g with rules := g.rules ++ rules }

def depend (g : Graph ε) (target source : Path) (action : Nat) : Graph ε :=
  g.addRules [⟨target, source, .invoke action⟩]

def copy (g : Graph ε) (source target : Path) : Graph ε :=
  g.addRules [⟨target, source, .copy⟩]

/-- The first rule that makes a target; paths are compared by components. -/
def ruleFor? (g : Graph ε) (target : Path) : Option Rule :=
  g.rules.find? (fun rule => rule.target.same target)

end Graph

/-- The text of an action in a diagnostic. -/
def RuleAction.debug : RuleAction → String
  | .invoke n => "Invoke(ActionId(" ++ toString n ++ "))"
  | .copy => "Copy"

def Rule.debug (r : Rule) : String :=
  "DependencyRule \x7b target: " ++ Text.quoteOctets r.target.text ++ ", source: " ++
    Text.quoteOctets r.source.text ++ ", action: " ++ r.action.debug ++ " \x7d"

def Graph.debug {ε : Type} (g : Graph ε) : String :=
  "RuleGraph \x7b actions: " ++ Text.bracketed (g.actions.map (Text.quote ·.label)) ++
    ", rules: " ++ Text.bracketed (g.rules.map Rule.debug) ++ " \x7d"

end ClojureBuild.Rules
