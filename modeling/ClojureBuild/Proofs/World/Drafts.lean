import ClojureBuild.Proofs.Rules.Writes
import ClojureBuild.Proofs.World.Times
/-!
What a series of writes leaves.

A write goes to the place that its path leads to, and as long as nothing is taken away the path
leads there ever after.  So the world at the end of a series tells what became of a file: it holds
the bytes of the last write whose path leads to it now, or else what it held before.
-/

namespace ClojureBuild

/-- A path and the bytes that are to be written to it. -/
abbrev FileDraft := Path × ByteArray

/-- The place that the path of a draft leads to, and the bytes of the draft. -/
def FileDraft.write? (w : World) (draft : FileDraft) : Option Rules.Write :=
  match w.resolve true draft.1 with
  | .ok spot => some (spot.location, draft.2)
  | .error _ => none

namespace World

/-- Between two worlds nothing was taken away, and every file kept its bytes. -/
structure Gains (w w' : World) : Prop where
  renewed : Renewed w w'
  keeps : Keeps (fun _ => True) w w'

instance : IsPreorder World Gains where
  refl w := ⟨Std.Refl.refl w, Keeps.refl w⟩
  trans _ _ _ hfirst hnext :=
    ⟨Trans.trans hfirst.renewed hnext.renewed, hfirst.keeps.trans hnext.keeps⟩

/-- Between two worlds some drafts were written, in order, and apart from that things were only
gained. -/
inductive Written : List FileDraft → World → World → Prop where
  | nothing {w w' : World} (hgains : Gains w w') : Written [] w w'
  | draft {w before after w' : World} {draft : FileDraft} {rest : List FileDraft}
      (hgains : Gains w before) (hwrite : before.writeFile draft.1 draft.2 = .ok after)
      (hrest : Written rest after w') : Written (draft :: rest) w w'

variable {w w' mid : World} {drafts more : List FileDraft}

theorem makeDirs_gains (w : World) (p : Path) : Gains w (w.makeDirs p).1 :=
  ⟨makeDirs_renewed w p, makeDirs_keeps w p⟩

/-- A write to a path that led to nothing changes no file. -/
theorem writeFile_gains {p : Path} {content : ByteArray} (hstanding : w.pathExists p = false)
    (h : w.writeFile p content = .ok w') : Gains w w' := by
  have hrenewed := writeFile_renewed h
  refine ⟨hrenewed, ?_⟩
  obtain ⟨spot, hspot, hstore⟩ := Task.exists_of_bind_eq_ok h
  cases hstore
  cases spot with
  | vacant parent name => exact keeps_create (openForWriting_vacant hspot) _
  | taken loc =>
      rintro place - bytes hbytes
      have hne : (Spot.taken loc).location ≠ place := by
        rintro rfl
        obtain ⟨t, x, hnode⟩ := contentAt_eq_some_iff.1 hbytes
        have hstat := stat_eq_ok.2 ⟨resolve_of_openForWriting hspot, hnode⟩
        rw [pathExists, hstat] at hstanding
        exact absurd hstanding (by simp)
      rw [contentAt_store_of_ne hne, hbytes]

namespace Written

theorem renewed (h : Written drafts w w') : Renewed w w' := by
  induction h with
  | nothing hgains => exact hgains.renewed
  | draft hgains hwrite hrest ih =>
      exact Trans.trans (Trans.trans hgains.renewed (writeFile_renewed hwrite)) ih

theorem of_gains (hgains : Gains w mid) (h : Written drafts mid w') : Written drafts w w' := by
  cases h with
  | nothing hnext => exact .nothing (Trans.trans hgains hnext)
  | draft hnext hwrite hrest => exact .draft (Trans.trans hgains hnext) hwrite hrest

theorem append (hfirst : Written drafts w mid) (hnext : Written more mid w') :
    Written (drafts ++ more) w w' := by
  induction hfirst with
  | nothing hgains => exact of_gains hgains hnext
  | draft hgains hwrite hrest ih => exact .draft hgains hwrite (ih hnext)

end Written

theorem write?_of_resolve {draft : FileDraft} {spot : Spot}
    (h : w.resolve true draft.1 = .ok spot) : draft.write? w = some (spot.location, draft.2) := by
  rw [FileDraft.write?, h]

/-- A path that was written to leads to the place of the write ever after. -/
theorem write?_of_writeFile {draft : FileDraft} {spot : Spot}
    (hspot : w.openForWriting draft.1 = .ok spot)
    (hafter : Renewed (w.store spot draft.2 none) w') :
    draft.write? w' = some (spot.location, draft.2) := by
  have hfilled : ∀ parent name, spot = .vacant parent name →
      ∃ bytes t x, w'.node? (name :: parent) = some (.file bytes t x) := by
    rintro parent name rfl
    have hmade : (w.store (.vacant parent name) draft.2 none).node? (name :: parent) =
        some (.file draft.2 w.clock false) := (node?_create ..).trans (if_pos rfl)
    obtain ⟨node, hnode, hkind⟩ := hafter.node hmade
    obtain ⟨bytes, t, x, rfl⟩ := hkind.of_file
    exact ⟨bytes, t, x, hnode⟩
  have hwhole : Renewed w w' := Trans.trans (store_opened_renewed hspot draft.2 none) hafter
  rw [write?_of_resolve (hwhole.resolve hfilled (resolve_of_openForWriting hspot))]
  rfl

/-- A write puts its bytes into the file at its place, and into no other. -/
theorem contentAt_store {p : Path} {content : ByteArray} {spot : Spot} {loc : Location}
    (hspot : w.openForWriting p = .ok spot) (h : w.contentAt loc = some content)
    (bytes : ByteArray) :
    (w.store spot bytes none).contentAt loc =
      some ((Rules.lastWrite? (some (spot.location, bytes)).toList loc).getD content) := by
  rw [Rules.lastWrite?_toList]
  change _ = if spot.location = loc then some bytes else some content
  by_cases hplace : spot.location = loc
  · rw [if_pos hplace]
    cases spot with
    | taken place =>
        obtain rfl : place = loc := hplace
        exact contentAt_store_self h _ _
    | vacant parent name =>
        obtain ⟨t, x, hnode⟩ := contentAt_eq_some_iff.1 h
        rw [← hplace] at hnode
        exact absurd ((openForWriting_vacant hspot).symm.trans hnode) (by simp)
  · rw [if_neg hplace, contentAt_store_of_ne hplace, h]

/-- A file holds the bytes of the last draft whose path leads to it now, or what it held. -/
theorem Written.contentAt (hwritten : Written drafts w w') {loc : Location} {content : ByteArray}
    (h : w.contentAt loc = some content) :
    w'.contentAt loc =
      some ((Rules.lastWrite? (drafts.filterMap (FileDraft.write? w')) loc).getD content) := by
  induction hwritten generalizing content with
  | nothing hgains => exact hgains.keeps loc trivial content h
  | @draft w before after w' draft rest hgains hwrite hrest ih =>
      obtain ⟨spot, hspot, hstore⟩ := Task.exists_of_bind_eq_ok hwrite
      cases hstore
      have hfirst := contentAt_store hspot (hgains.keeps loc trivial content h) draft.2
      rw [List.filterMap_cons_some (write?_of_writeFile hspot hrest.renewed),
        ← List.singleton_append, Rules.getD_lastWrite?_append]
      exact ih hfirst

/-- No write reaches a place that no draft's path leads to. -/
theorem lastWrite?_eq_none {loc : Location}
    (h : ∀ draft ∈ drafts, ∀ spot, w.resolve true draft.1 = .ok spot → spot.location ≠ loc) :
    Rules.lastWrite? (drafts.filterMap (FileDraft.write? w)) loc = none := by
  rw [Rules.lastWrite?, Option.map_eq_none_iff, List.find?_eq_none]
  intro write hwrite
  obtain ⟨draft, hdraft, hplace⟩ := List.mem_filterMap.1 (List.mem_reverse.1 hwrite)
  rw [FileDraft.write?] at hplace
  cases hresolve : w.resolve true draft.1 with
  | error e => simp [hresolve] at hplace
  | ok spot =>
      rw [hresolve] at hplace
      obtain rfl := Option.some.inj hplace
      simpa using h draft hdraft spot hresolve

end World

namespace Task

open World (Gains Written)

variable {ε α β : Type} {drafts more : List FileDraft}

/-- However a task ends here, it wrote some first ones of the drafts, and all of them if it ended
well. -/
def WritesAt (drafts : List FileDraft) (task : Task ε α) (s : Session) : Prop :=
  ∃ written, written <+: drafts ∧ Written written s.world (task.runIn s).2.world ∧
    ∀ a, (task.runIn s).1 = .ok a → written = drafts

theorem WritesAt.of_gains {task : Task ε α} {s : Session}
    (h : Gains s.world (task.runIn s).2.world) : WritesAt [] task s :=
  ⟨[], List.prefix_rfl, .nothing h, fun _ _ => rfl⟩

/-- What a sequence writes is what its parts write, one after the other. -/
theorem WritesAt.bind {task : Task ε α} {next : α → Task ε β} {s : Session}
    (htask : WritesAt drafts task s)
    (hnext : ∀ a mid, task.runIn s = (.ok a, mid) → WritesAt more (next a) mid) :
    WritesAt (drafts ++ more) (task >>= next) s := by
  obtain ⟨written, hfront, hwritten, hall⟩ := htask
  rw [WritesAt, runIn_bind]
  rcases hrun : task.runIn s with ⟨result, mid⟩
  rw [hrun] at hwritten hall
  cases result with
  | error e =>
      exact ⟨written, hfront.trans (List.prefix_append drafts more), hwritten,
        fun a ha => absurd ha (by simp)⟩
  | ok a =>
      obtain rfl := hall a rfl
      obtain ⟨last, hlast, hrest, hends⟩ := hnext a mid hrun
      exact ⟨written ++ last, (List.prefix_append_right_inj written).2 hlast,
        hwritten.append hrest, fun b hb => by rw [hends b hb]⟩

theorem WritesAt.bind_gains {task : Task ε α} {next : α → Task ε β} {s : Session}
    (htask : Gains s.world (task.runIn s).2.world)
    (hnext : ∀ a mid, task.runIn s = (.ok a, mid) → WritesAt drafts (next a) mid) :
    WritesAt drafts (task >>= next) s :=
  (WritesAt.of_gains htask).bind hnext

end Task

end ClojureBuild
