import ClojureBuild.Proofs.Session
import ClojureBuild.World.Walk
/-!
What changes of the tree do to the bytes of files.

Making directories changes no file.  A copy changes one file at most: the one that its target leads
to, which gets the bytes of the source, or none at all when the two are the same file.
-/

namespace ClojureBuild

/-- The location of a spot. -/
def Spot.location : Spot → Location
  | .taken loc => loc
  | .vacant parent name => name :: parent

namespace World

/-- The bytes of the file at a location. -/
def contentAt (w : World) (loc : Location) : Option ByteArray :=
  match w.node? loc with
  | some (.file content ..) => some content
  | _ => none

/-- The files at some places keep their bytes. -/
def Keeps (kept : Location → Prop) (w w' : World) : Prop :=
  ∀ loc, kept loc → ∀ content, w.contentAt loc = some content → w'.contentAt loc = some content

variable {w w' : World} {kept : Location → Prop}

theorem Keeps.refl (w : World) : Keeps kept w w := fun _ _ _ h => h

theorem Keeps.trans {w'' : World} (hfirst : Keeps kept w w') (hnext : Keeps kept w' w'') :
    Keeps kept w w'' := by
  intro loc hloc content h
  exact hnext loc hloc content (hfirst loc hloc content h)

instance : IsPreorder World (Keeps kept) where
  refl := Keeps.refl
  trans _ _ _ := Keeps.trans

theorem contentAt_eq_some_iff {loc : Location} {content : ByteArray} :
    w.contentAt loc = some content ↔ ∃ t x, w.node? loc = some (.file content t x) := by
  unfold contentAt
  cases hnode : w.node? loc with
  | none => simp
  | some node =>
      cases node with
      | dir t => simp
      | file bytes t x => simp [eq_comm]
      | link target => simp
      | device t => simp

theorem contentAt_congr {loc : Location} (h : w'.node? loc = w.node? loc) :
    w'.contentAt loc = w.contentAt loc := by
  rw [contentAt, contentAt, h]

theorem contentAt_put_of_ne {place loc : Location} (h : place ≠ loc) (node : Node) :
    (w.put place node).contentAt loc = w.contentAt loc := by
  apply contentAt_congr
  rw [node?_put, if_neg h]

theorem contentAt_put_file (place : Location) (content : ByteArray) (t : Int) (x : Bool) :
    (w.put place (.file content t x)).contentAt place = some content := by
  rw [contentAt, node?_put, if_pos rfl]

theorem contentAt_touchDir (place loc : Location) :
    (w.touchDir place).contentAt loc = w.contentAt loc := by
  unfold touchDir
  split
  next t hdir =>
      by_cases hplace : place = loc
      · subst hplace
        rw [contentAt, contentAt, node?_put, if_pos rfl, hdir]
      · exact contentAt_put_of_ne hplace _
  next => rfl

theorem contentAt_create_of_ne {place loc : Location} (h : place ≠ loc) (node : Node) :
    (w.create place node).contentAt loc = w.contentAt loc := by
  rw [create, contentAt_put_of_ne h, contentAt_touchDir]

/-! ### Vacant places -/

theorem traverse_vacant {follow : Bool} {jump : Location → List PathStep → Except OsError Spot}
    (hjump : ∀ loc steps parent name, jump loc steps = .ok (.vacant parent name) →
      w.node? (name :: parent) = none)
    {steps : List PathStep} {loc parent : Location} {name : String}
    (h : w.traverse follow jump loc steps = .ok (.vacant parent name)) :
    w.node? (name :: parent) = none := by
  induction steps generalizing loc with
  | nil => simp [traverse] at h
  | cons step rest ih =>
      cases step with
      | stay => exact @ih loc h
      | up => exact @ih loc.tail h
      | down next =>
          rw [traverse] at h
          split at h
          · exact absurd h (by simp)
          · cases hnode : w.node? (next :: loc) with
            | none =>
                simp only [hnode] at h
                split at h
                · cases h
                  exact hnode
                · exact absurd h (by simp)
            | some node =>
                cases node with
                | dir t =>
                    simp only [hnode] at h
                    exact ih h
                | file content t x =>
                    simp only [hnode] at h
                    split at h <;> exact absurd h (by simp)
                | device t =>
                    simp only [hnode] at h
                    split at h <;> exact absurd h (by simp)
                | link target =>
                    simp only [hnode] at h
                    split at h
                    · exact absurd h (by simp)
                    · exact hjump _ _ _ _ h

theorem resolveFrom_vacant {follow : Bool} {links : Nat} {steps : List PathStep}
    {loc parent : Location} {name : String}
    (h : w.resolveFrom follow links loc steps = .ok (.vacant parent name)) :
    w.node? (name :: parent) = none := by
  induction links generalizing loc steps parent name with
  | zero => exact traverse_vacant (fun _ _ _ _ h => absurd h (by simp)) h
  | succ links ih => exact traverse_vacant (fun _ _ _ _ hjump => ih hjump) h

/-- Nothing stands at a place that a look-up calls vacant. -/
theorem resolve_vacant {follow : Bool} {p : Path} {parent : Location} {name : String}
    (h : w.resolve follow p = .ok (.vacant parent name)) : w.node? (name :: parent) = none := by
  unfold resolve at h
  split at h
  · exact absurd h (by simp)
  · split at h
    · exact absurd h (by simp)
    · split at h
      · exact absurd h (by simp)
      · exact resolveFrom_vacant h

/-! ### Making directories -/

theorem keeps_create {place : Location} (hvacant : w.node? place = none) (node : Node) :
    Keeps kept w (w.create place node) := by
  intro loc _ content h
  have hne : place ≠ loc := by
    rintro rfl
    obtain ⟨t, x, hnode⟩ := contentAt_eq_some_iff.1 h
    rw [hvacant] at hnode
    exact absurd hnode (by simp)
  rw [contentAt_create_of_ne hne, h]

/-- A directory that is made stands at a place that was vacant. -/
theorem exists_of_makeDir {p : Path} (h : w.makeDir p = .ok w') :
    ∃ parent name, w.resolve false (dropTrailingSeparators p) = .ok (.vacant parent name) ∧
      w' = w.create (name :: parent) (.dir w.clock) := by
  unfold makeDir at h
  split at h
  · exact absurd h (by simp)
  · split at h
    · exact absurd h (by simp)
    next parent name hresolve =>
        cases h
        exact ⟨parent, name, hresolve, rfl⟩
    · exact absurd h (by simp)

theorem makeDir_keeps {p : Path} (h : w.makeDir p = .ok w') : Keeps kept w w' := by
  obtain ⟨parent, name, hresolve, rfl⟩ := exists_of_makeDir h
  exact keeps_create (resolve_vacant hresolve) _

/-- Going up makes one directory at most, and leaves directories of the way for later. -/
theorem climb_cases {up missing left : List Path} (h : w.climb up missing = .ok (w', left)) :
    (w' = w ∨ ∃ p ∈ up, w.makeDir p = .ok w') ∧ ∀ p ∈ left, p ∈ up ∨ p ∈ missing := by
  induction up generalizing missing with
  | nil =>
      cases h
      exact ⟨Or.inl rfl, fun p hp => Or.inr hp⟩
  | cons q rest ih =>
      rw [climb] at h
      split at h
      · cases h
        exact ⟨Or.inl rfl, fun p hp => Or.inr hp⟩
      · split at h
        next made hmade =>
            cases h
            exact ⟨Or.inr ⟨q, List.mem_cons_self, hmade⟩, fun p hp => Or.inr hp⟩
        · obtain ⟨hworld, hleft⟩ := ih h
          constructor
          · rcases hworld with hsame | ⟨p, hp, hmade⟩
            · exact Or.inl hsame
            · exact Or.inr ⟨p, List.mem_cons_of_mem q hp, hmade⟩
          · intro p hp
            rcases hleft p hp with hrest | hmissing
            · exact Or.inl (List.mem_cons_of_mem q hrest)
            · rcases List.mem_cons.1 hmissing with rfl | hmissing
              · exact Or.inl List.mem_cons_self
              · exact Or.inr hmissing
        · split at h
          · cases h
            exact ⟨Or.inl rfl, fun p hp => Or.inr hp⟩
          · exact absurd h (by simp)

section

variable {R : World → World → Prop} [IsPreorder World R]

/-- Making directories one after the other does what making each of them does. -/
theorem makeEach_moves {paths : List Path}
    (hmake : ∀ p ∈ paths, ∀ {w w' : World}, w.makeDir p = .ok w' → R w w') (w : World) :
    R w (w.makeEach paths).1 := by
  induction paths generalizing w with
  | nil => exact Std.Refl.refl w
  | cons p rest ih =>
      have hrest := ih fun q hq => hmake q (List.mem_cons_of_mem p hq)
      rw [makeEach]
      split
      next made hmade => exact Trans.trans (hmake p List.mem_cons_self hmade) (hrest made)
      · split
        · exact hrest w
        · exact Std.Refl.refl w

/-- Making a chain of directories does what making those on the chain does. -/
theorem makeDirs_moves {p : Path}
    (hmake : ∀ q ∈ ancestors p, ∀ {w w' : World}, w.makeDir q = .ok w' → R w w') (w : World) :
    R w (w.makeDirs p).1 := by
  rw [makeDirs]
  split
  · exact Std.Refl.refl w
  next made missing hclimb =>
      obtain ⟨hworld, hleft⟩ := climb_cases hclimb
      have hmissing : ∀ q ∈ missing, q ∈ ancestors p := fun q hq =>
        (hleft q hq).resolve_right List.not_mem_nil
      have hlast := makeEach_moves (fun q hq => hmake q (hmissing q hq)) made
      rcases hworld with rfl | ⟨q, hq, hmade⟩
      · exact hlast
      · exact Trans.trans (hmake q hq hmade) hlast

end

theorem makeDirs_keeps (w : World) (p : Path) : Keeps kept w (w.makeDirs p).1 :=
  makeDirs_moves (fun _ _ => makeDir_keeps) w

/-! ### Writing and copying -/

theorem openForWriting_vacant {p : Path} {parent : Location} {name : String}
    (h : w.openForWriting p = .ok (.vacant parent name)) : w.node? (name :: parent) = none := by
  unfold openForWriting at h
  split at h
  · split at h <;> exact absurd h (by simp)
  · split at h
    · exact absurd h (by simp)
    next hresolve =>
        cases h
        exact resolve_vacant hresolve
    · split at h <;> exact absurd h (by simp)

/-- A write to another place leaves a file alone. -/
theorem contentAt_store_of_ne {spot : Spot} {loc : Location} (h : spot.location ≠ loc)
    (content : ByteArray) (x : Option Bool) :
    (w.store spot content x).contentAt loc = w.contentAt loc := by
  cases spot with
  | vacant parent name => exact contentAt_create_of_ne h _
  | taken place =>
      rw [store]
      split
      · exact contentAt_put_of_ne h _
      · rfl

theorem contentAt_store_self {loc : Location} {old : ByteArray}
    (h : w.contentAt loc = some old) (content : ByteArray) (x : Option Bool) :
    (w.store (.taken loc) content x).contentAt loc = some content := by
  obtain ⟨t, mode, hnode⟩ := contentAt_eq_some_iff.1 h
  rw [store, hnode]
  exact contentAt_put_file loc content w.clock _

/-- The place that a copy writes to and the bytes that it puts there.  A file copied onto itself is
emptied before it is read. -/
def copied? (w : World) (source target : Path) : Option (Location × ByteArray) :=
  match w.stat source, w.openForWriting target with
  | .ok (origin, .file content ..), .ok spot =>
      some (spot.location, if origin = spot.location then ByteArray.empty else content)
  | _, _ => none

/-- The source of a copy holds its own bytes once the target is emptied, unless it is the target. -/
theorem contentAt_emptied {origin : Location} {spot : Spot} {bytes : ByteArray}
    (horigin : w.contentAt origin = some bytes) (hvacant : ∀ parent name,
      spot = .vacant parent name → w.node? (name :: parent) = none) :
    (w.store spot ByteArray.empty none).contentAt origin =
      some (if origin = spot.location then ByteArray.empty else bytes) := by
  by_cases hsame : origin = spot.location
  · rw [if_pos hsame]
    cases spot with
    | taken place =>
        obtain rfl : origin = place := hsame
        exact contentAt_store_self horigin _ _
    | vacant parent name =>
        obtain ⟨t, x, hnode⟩ := contentAt_eq_some_iff.1 horigin
        have hnone := hvacant parent name rfl
        rw [hsame] at hnode
        exact absurd (hnone.symm.trans hnode) (by simp)
  · rw [if_neg hsame, contentAt_store_of_ne (Ne.symm hsame), horigin]

/-- A file holds what a copy put into it, or else what it held. -/
theorem contentAt_copyFile {source target : Path} {loc : Location} {content : ByteArray}
    (h : w.contentAt loc = some content) :
    (w.copyFile source target).1.contentAt loc =
      match w.copied? source target with
      | some (place, bytes) => if place = loc then some bytes else some content
      | none => some content := by
  unfold copyFile copied?
  cases hstat : w.stat source with
  | error cause => exact h
  | ok found =>
      obtain ⟨origin, node⟩ := found
      cases node with
      | dir t => exact h
      | link link => exact h
      | device t => exact h
      | file bytes t x =>
          cases hspot : w.openForWriting target with
          | error cause => simpa using h
          | ok spot =>
              have hvacant : ∀ parent name, spot = .vacant parent name →
                  w.node? (name :: parent) = none := by
                rintro parent name rfl
                exact openForWriting_vacant hspot
              obtain ⟨t', x', horigin⟩ := contentAt_eq_some_iff.1 (contentAt_emptied
                (contentAt_eq_some_iff.2 ⟨t, x, node?_of_stat hstat⟩) hvacant)
              simp only [horigin]
              by_cases hplace : spot.location = loc
              · rw [if_pos hplace]
                cases spot with
                | vacant parent name =>
                    obtain ⟨_, _, hnode⟩ := contentAt_eq_some_iff.1 h
                    rw [← hplace] at hnode
                    exact absurd ((hvacant parent name rfl).symm.trans hnode) (by simp)
                | taken place =>
                    obtain rfl : place = loc := hplace
                    exact contentAt_store_self (contentAt_store_self h _ _) _ _
              · rw [if_neg hplace]
                cases spot with
                | vacant parent name =>
                    have hlater : (Spot.taken (name :: parent)).location ≠ loc := hplace
                    rw [contentAt_store_of_ne hlater, contentAt_store_of_ne hplace, h]
                | taken place =>
                    rw [contentAt_store_of_ne hplace, contentAt_store_of_ne hplace, h]

theorem readText_of_stat {p : Path} {loc : Location} {text : String} {t : Int} {x : Bool}
    (h : w.stat p = .ok (loc, .file text.toUTF8 t x)) : w.readText p = .ok text := by
  have hutf8 : String.fromUTF8? text.toUTF8 = some text := by
    rw [String.fromUTF8?]
    exact dif_pos text.isValidUTF8
  have hbytes : w.readFile p = .ok text.toUTF8 := by
    simp [readFile, h, bind, Except.bind]
  rw [readText, hbytes, Task.ok_bind, hutf8]

end World

end ClojureBuild
