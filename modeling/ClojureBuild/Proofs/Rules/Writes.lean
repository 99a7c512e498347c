import ClojureBuild.Proofs.Rules.Reference
import ClojureBuild.Proofs.World.Frame
/-!
What an execution writes into files.

As long as the actions leave some files alone, the copies of an execution are all that can change
them.  Main statement: after an execution such a file holds what the last copy to its place put
there, or else what it held before; this is so whether the execution succeeds or fails.
-/

namespace ClojureBuild.Rules

open World (Keeps)

/-- A place and the bytes that a copy puts there. -/
abbrev Write := Location × ByteArray

/-- The bytes that the last write to a place puts there. -/
def lastWrite? (writes : List Write) (loc : Location) : Option ByteArray :=
  (writes.reverse.find? fun write => decide (write.1 = loc)).map Prod.snd

/-- What the copy of a rule writes, once the directory of the target is made. -/
def Rule.write? (rule : Rule) (w : World) : Option Write :=
  match rule.target.parent? with
  | none => w.copied? rule.source rule.target
  | some parent =>
      match w.makeDirs parent with
      | (w', .ok _) => w'.copied? rule.source rule.target
      | (_, .error _) => none

variable {ε : Type}

/-- The writes of the copies that are carried out, in order. -/
def writesOf (g : Graph ε) : List (Entry × Deed) → Session → List Write
  | [], _ => []
  | (entry, deed) :: rest, s =>
      (if deed = .copy then (entry.1.write? s.world).toList else []) ++
        match (perform g entry deed).runIn s with
        | (.ok _, s') => writesOf g rest s'
        | (.error _, _) => []

/-- The writes of a whole execution. -/
def executeWrites (force : Bool) (g : Graph ε) (s : Session) : List Write :=
  match (states s.world force g.rules : Except (Failure ε) (List Freshness)) with
  | .ok found => writesOf g ((g.rules.zip found).zip (deeds (g.rules.zip found))) s
  | .error _ => []

/-- A write is that of a copy which is carried out. -/
theorem exists_of_mem_writesOf {g : Graph ε} {todo : List (Entry × Deed)} {s : Session}
    {write : Write} (h : write ∈ writesOf g todo s) :
    ∃ entry w, (entry, Deed.copy) ∈ todo ∧ entry.1.write? w = some write := by
  induction todo generalizing s with
  | nil => exact absurd h List.not_mem_nil
  | cons first rest ih =>
      obtain ⟨entry, deed⟩ := first
      rw [writesOf, List.mem_append] at h
      rcases h with hfirst | hrest
      · split at hfirst
        next hcopy =>
            subst hcopy
            exact ⟨entry, s.world, List.mem_cons_self, Option.mem_toList.1 hfirst⟩
        next => exact absurd hfirst List.not_mem_nil
      · split at hrest
        next s' hrun =>
            obtain ⟨other, w, hother, hwrite⟩ := ih hrest
            exact ⟨other, w, List.mem_cons_of_mem _ hother, hwrite⟩
        next => exact absurd hrest List.not_mem_nil

/-- The writes of an execution are those of its copy rules. -/
theorem exists_of_mem_executeWrites {force : Bool} {g : Graph ε} {s : Session} {write : Write}
    (h : write ∈ executeWrites force g s) :
    ∃ rule ∈ g.rules, rule.action = .copy ∧ ∃ w, rule.write? w = some write := by
  rw [executeWrites] at h
  split at h
  next found hfound =>
      obtain ⟨entry, w, hentry, hwrite⟩ := exists_of_mem_writesOf h
      obtain ⟨i, hi⟩ := List.mem_iff_getElem?.1 hentry
      obtain ⟨hknown, hdeed⟩ := List.getElem?_zip_eq_some.1 hi
      have hrule := (List.of_mem_zip (List.mem_of_getElem? hknown)).1
      rw [deeds, deedsAfter_getElem?, hknown, Option.map_some, Option.some.injEq,
        deedFor_eq_copy_iff] at hdeed
      exact ⟨entry.1, hrule, hdeed.2, w, hwrite⟩
  next => exact absurd h List.not_mem_nil

/-! ### The last write -/

theorem lastWrite?_append (writes more : List Write) (loc : Location) :
    lastWrite? (writes ++ more) loc = (lastWrite? more loc).or (lastWrite? writes loc) := by
  unfold lastWrite?
  rw [List.reverse_append, List.find?_append]
  cases more.reverse.find? fun write => decide (write.1 = loc) <;> rfl

theorem getD_lastWrite?_append (writes more : List Write) (loc : Location)
    (content : ByteArray) :
    (lastWrite? (writes ++ more) loc).getD content =
      (lastWrite? more loc).getD ((lastWrite? writes loc).getD content) := by
  rw [lastWrite?_append]
  cases lastWrite? more loc <;> rfl

theorem lastWrite?_toList (write : Option Write) (loc : Location) (content : ByteArray) :
    some ((lastWrite? write.toList loc).getD content) =
      match write with
      | some (place, bytes) => if place = loc then some bytes else some content
      | none => some content := by
  cases write with
  | none => rfl
  | some write =>
      obtain ⟨place, bytes⟩ := write
      by_cases hplace : place = loc
      · simp [lastWrite?, hplace]
      · simp [lastWrite?, hplace]

/-! ### Carrying out the rules -/

/-- The copy of a rule, behind its log line, puts its write into a file and nothing else. -/
theorem contentAt_copyFile {rule : Rule} {s : Session} {loc : Location} {content : ByteArray}
    (h : s.world.contentAt loc = some content) :
    ((copyFile rule.source rule.target : Task (Failure ε) Unit).runIn s).2.world.contentAt loc =
      some ((lastWrite? (rule.write? s.world).toList loc).getD content) := by
  rw [lastWrite?_toList, copyFile, Rule.write?]
  cases hparent : rule.target.parent? with
  | none =>
      simp only [Task.runIn_change]
      exact World.contentAt_copyFile h
  | some parent =>
      have hkeeps : Keeps (fun _ => True) s.world (s.world.makeDirs parent).1 :=
        World.makeDirs_keeps s.world parent
      have hmade := hkeeps loc trivial content h
      simp only [Task.runIn_bind, Task.runIn_change]
      rcases hdirs : s.world.makeDirs parent with ⟨w', result⟩
      rw [hdirs] at hmade
      cases result with
      | error cause => exact hmade
      | ok u => exact World.contentAt_copyFile hmade

/-- The actions of a graph leave the files at some places alone. -/
def Graph.Careful (g : Graph ε) (kept : Location → Prop) : Prop :=
  ∀ action ∈ g.actions, Task.Moves (Keeps kept) action.task

variable {g : Graph ε} {kept : Location → Prop}

/-- Carrying out one rule changes a kept file only by the write of a copy. -/
theorem contentAt_perform (hcareful : g.Careful kept) (entry : Entry) (deed : Deed)
    {s : Session} {loc : Location} (hkept : kept loc) {content : ByteArray}
    (h : s.world.contentAt loc = some content) :
    ((perform g entry deed).runIn s).2.world.contentAt loc =
      some ((lastWrite? (if deed = .copy then (entry.1.write? s.world).toList else [])
        loc).getD content) := by
  cases deed with
  | pass => exact h
  | cover => exact h
  | copy =>
      obtain ⟨begun, hbegun, hrun⟩ := exists_perform_copy g entry s
      rw [← hbegun] at h ⊢
      rw [hrun]
      exact contentAt_copyFile h
  | run n =>
      have hmoves : Task.Moves (Keeps kept) (perform g entry (.run n)) := by
        rw [perform]
        cases haction : g.actions[n]? with
        | none => exact .pure ()
        | some action =>
            have htask := hcareful action (List.mem_of_getElem? haction)
            exact .bind (.log _ _ _ _) fun _ => htask.mapError _
      exact hmoves s loc hkept content h

theorem contentAt_performEach (hcareful : g.Careful kept) (todo : List (Entry × Deed))
    {s : Session} {loc : Location} (hkept : kept loc) {content : ByteArray}
    (h : s.world.contentAt loc = some content) :
    ((performEach g todo).runIn s).2.world.contentAt loc =
      some ((lastWrite? (writesOf g todo s) loc).getD content) := by
  induction todo generalizing s content with
  | nil => exact h
  | cons first rest ih =>
      obtain ⟨entry, deed⟩ := first
      have hfirst := contentAt_perform hcareful entry deed hkept h
      rw [performEach, Task.runIn_bind, writesOf, getD_lastWrite?_append]
      rcases hrun : (perform g entry deed).runIn s with ⟨result, mid⟩
      rw [hrun] at hfirst
      cases result with
      | error e => exact hfirst
      | ok u => exact ih hfirst

/-- After an execution a kept file holds what the last copy to it put there, or what it held. -/
theorem contentAt_execute (hcareful : g.Careful kept) (force : Bool) {s : Session}
    {loc : Location} (hkept : kept loc) {content : ByteArray}
    (h : s.world.contentAt loc = some content) :
    ((execute force g).runIn s).2.world.contentAt loc =
      some ((lastWrite? (executeWrites force g s) loc).getD content) := by
  rw [execute_runIn, executeWrites]
  cases (states s.world force g.rules : Except (Failure ε) (List Freshness)) with
  | error e => exact h
  | ok found =>
      have hall := contentAt_performEach hcareful
        ((g.rules.zip found).zip (deeds (g.rules.zip found))) hkept h
      rw [← performAll] at hall
      rcases hrun : (performAll g (g.rules.zip found)).runIn s with ⟨result, s'⟩
      rw [hrun] at hall
      simp only [hrun]
      cases result with
      | error e => exact hall
      | ok u => exact hall

end ClojureBuild.Rules
