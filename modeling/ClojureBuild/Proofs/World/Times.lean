import ClojureBuild.Proofs.World.Places
import Mathlib.Data.List.Infix
/-!
How old a file can be.

Making directories and copying files take nothing away, and what they change gets the time of the
change.  So what a path leads to is found again afterwards, and it has not become older, except that
it may have been changed now.
-/

namespace ClojureBuild

/-- What a node may become at some time without losing its kind. -/
def Node.RenewedAt (now : Int) (node node' : Node) : Prop :=
  node' = node ∨ node.isDir = true ∧ node' = .dir now ∨
    node.isFile = true ∧ ∃ bytes x, node' = .file bytes now x

namespace Node.RenewedAt

variable {now made : Int} {node node' : Node}

theorem modified (h : node.RenewedAt now node') (hnow : made ≤ now)
    (hmade : made ≤ node.modified) : made ≤ node'.modified := by
  rcases h with rfl | ⟨-, rfl⟩ | ⟨-, bytes, x, rfl⟩
  · exact hmade
  · exact hnow
  · exact hnow

theorem of_dir {t : Int} (h : (Node.dir t).RenewedAt now node') : ∃ t', node' = .dir t' := by
  rcases h with rfl | ⟨-, rfl⟩ | ⟨hfile, -⟩
  · exact ⟨t, rfl⟩
  · exact ⟨now, rfl⟩
  · exact absurd hfile (by simp [isFile])

theorem of_file {bytes : ByteArray} {t : Int} {x : Bool}
    (h : (Node.file bytes t x).RenewedAt now node') :
    ∃ bytes' t' x', node' = .file bytes' t' x' := by
  rcases h with rfl | ⟨hdir, -⟩ | ⟨-, bytes', x', rfl⟩
  · exact ⟨bytes, t, x, rfl⟩
  · exact absurd hdir (by simp [isDir])
  · exact ⟨bytes', now, x', rfl⟩

theorem eq (h : node.RenewedAt now node') (hdir : node.isDir = false)
    (hfile : node.isFile = false) : node' = node := by
  rcases h with rfl | ⟨hdir', -⟩ | ⟨hfile', -⟩
  · rfl
  · exact absurd (hdir.symm.trans hdir') (by simp)
  · exact absurd (hfile.symm.trans hfile') (by simp)

theorem trans {mid : Node} (hfirst : node.RenewedAt now mid) (hnext : mid.RenewedAt now node') :
    node.RenewedAt now node' := by
  rcases hfirst with rfl | ⟨hdir, rfl⟩ | ⟨hfile, bytes, x, rfl⟩
  · exact hnext
  · rcases hnext with rfl | ⟨-, rfl⟩ | ⟨hfile, -⟩
    · exact Or.inr (Or.inl ⟨hdir, rfl⟩)
    · exact Or.inr (Or.inl ⟨hdir, rfl⟩)
    · exact absurd hfile (by simp [isFile])
  · rcases hnext with rfl | ⟨hdir, -⟩ | ⟨-, hnext⟩
    · exact Or.inr (Or.inr ⟨hfile, bytes, x, rfl⟩)
    · exact absurd hdir (by simp [isDir])
    · exact Or.inr (Or.inr ⟨hfile, hnext⟩)

end Node.RenewedAt

namespace World

variable {w w' : World}

/-- What a path leads to was changed at a time or later. -/
def Holds (w : World) (p : Path) (made : Int) : Prop :=
  ∃ kept, w.modified p = .ok kept ∧ made ≤ kept

theorem holds_iff {p : Path} {made : Int} :
    w.Holds p made ↔ ∃ loc node, w.stat p = .ok (loc, node) ∧ made ≤ node.modified := by
  constructor
  · rintro ⟨kept, hkept, hmade⟩
    obtain ⟨⟨loc, node⟩, hstat, htime⟩ := Task.exists_of_bind_eq_ok hkept
    obtain rfl : node.modified = kept := Except.ok.inj htime
    exact ⟨loc, node, hstat, hmade⟩
  · rintro ⟨loc, node, hstat, hmade⟩
    exact ⟨node.modified, by rw [World.modified, hstat]; rfl, hmade⟩

theorem Holds.mono {p : Path} {made made' : Int} (h : w.Holds p made') (hle : made ≤ made') :
    w.Holds p made := by
  obtain ⟨kept, hkept, hmade⟩ := h
  exact ⟨kept, hkept, Int.le_trans hle hmade⟩

/-- The current directory stands, and nothing is a device. -/
structure Ordinary (w : World) : Prop where
  standing : w.Standing
  noDevice : ∀ {loc : Location} {node : Node}, w.node? loc = some node → node.isDevice = false

theorem ordinary_iff :
    w.Ordinary ↔ (∀ loc ∈ w.cwd.tails, w.isDirAt loc = true) ∧
      (w.node? []).all (!·.isDevice) = true ∧
        ∀ entry ∈ w.nodes, (w.node? entry.1).all (!·.isDevice) = true := by
  rw [← forall_node_iff]
  simp only [List.mem_tails, Bool.not_eq_true']
  exact ⟨fun h => ⟨h.standing, h.noDevice⟩, fun h => ⟨h.1, h.2⟩⟩

instance (w : World) : Decidable w.Ordinary := decidable_of_iff _ ordinary_iff.symm

/-! ### Worlds that only gain -/

/-- Between two worlds nothing was taken away, and what was changed was changed now. -/
structure Renewed (w w' : World) : Prop where
  cwd : w'.cwd = w.cwd
  clock : w'.clock = w.clock
  node : ∀ {loc : Location} {node : Node}, w.node? loc = some node →
    ∃ node', w'.node? loc = some node' ∧ node.RenewedAt w.clock node'
  /-- No link or device is new. -/
  special : ∀ {loc : Location} {node : Node}, w'.node? loc = some node → node.isDir = false →
    node.isFile = false → w.node? loc = some node

instance : IsPreorder World Renewed where
  refl _ := ⟨rfl, rfl, fun h => ⟨_, h, Or.inl rfl⟩, fun h _ _ => h⟩
  trans w mid w' hfirst hnext := by
    refine ⟨hnext.cwd.trans hfirst.cwd, hnext.clock.trans hfirst.clock, fun h => ?_,
      fun h hdir hfile => hfirst.special (hnext.special h hdir hfile) hdir hfile⟩
    obtain ⟨node', hnode', hrenewed⟩ := hfirst.node h
    obtain ⟨node'', hnode'', hrenewed'⟩ := hnext.node hnode'
    rw [hfirst.clock] at hrenewed'
    exact ⟨node'', hnode'', hrenewed.trans hrenewed'⟩

namespace Renewed

theorem isDirAt (h : Renewed w w') {loc : Location} (hdir : w.isDirAt loc = true) :
    w'.isDirAt loc = true := by
  obtain ⟨t, ht⟩ := isDirAt_iff.1 hdir
  obtain ⟨node', hnode', hrenewed⟩ := h.node ht
  obtain ⟨t', rfl⟩ := hrenewed.of_dir
  exact isDirAt_iff.2 ⟨t', hnode'⟩

theorem standing (h : Renewed w w') (hstanding : w.Standing) : w'.Standing :=
  fun loc hloc => h.isDirAt (hstanding loc (h.cwd ▸ hloc))

theorem linkFree (h : Renewed w w') (hfree : w.LinkFree) : w'.LinkFree := by
  intro loc node hnode
  cases node with
  | link target => exact hfree (h.special hnode rfl rfl)
  | dir t => rfl
  | file bytes t x => rfl
  | device t => rfl

theorem ordinary (h : Renewed w w') (hordinary : w.Ordinary) : w'.Ordinary := by
  refine ⟨h.standing hordinary.standing, fun {loc node} hnode => ?_⟩
  cases node with
  | device t => exact hordinary.noDevice (h.special hnode rfl rfl)
  | dir t => rfl
  | file bytes t x => rfl
  | link target => rfl

/-! ### Looking up again -/

section

variable {spot : Spot}

/-- A look-up that succeeded ends at the same place again, if a file is there now in case the place
was vacant. -/
theorem traverse (h : Renewed w w') {jump jump' : Location → List PathStep → Except OsError Spot}
    (hfilled : ∀ parent name, spot = .vacant parent name →
      ∃ bytes t x, w'.node? (name :: parent) = some (.file bytes t x))
    (hjump : ∀ start steps, jump start steps = .ok spot →
      jump' start steps = .ok (.taken spot.location))
    {steps : List PathStep} {loc : Location} (hfound : w.traverse true jump loc steps = .ok spot) :
    w'.traverse true jump' loc steps = .ok (.taken spot.location) := by
  induction steps generalizing loc with
  | nil =>
      cases hfound
      rfl
  | cons step rest ih =>
      cases step with
      | stay => exact @ih loc hfound
      | up => exact @ih loc.tail hfound
      | down name =>
          rw [World.traverse] at hfound ⊢
          split at hfound
          · exact absurd hfound (by simp)
          next hshort =>
              rw [if_neg hshort]
              cases hnode : w.node? (name :: loc) with
              | none =>
                  simp only [hnode] at hfound
                  split at hfound
                  next hvacant =>
                      cases hfound
                      obtain ⟨bytes, t, x, hfile⟩ := hfilled loc name rfl
                      rw [Bool.and_eq_true] at hvacant
                      rw [hfile]
                      exact if_pos hvacant.1
                  · exact absurd hfound (by simp)
              | some node =>
                  obtain ⟨node', hnode', hrenewed⟩ := h.node hnode
                  rw [hnode] at hfound
                  rw [hnode']
                  cases node with
                  | dir t =>
                      obtain ⟨t', rfl⟩ := hrenewed.of_dir
                      exact ih hfound
                  | file content t x =>
                      obtain ⟨content', t', x', rfl⟩ := hrenewed.of_file
                      simp only at hfound ⊢
                      split at hfound
                      next hlast =>
                          cases hfound
                          exact if_pos hlast
                      · exact absurd hfound (by simp)
                  | device t =>
                      obtain rfl := hrenewed.eq rfl rfl
                      simp only at hfound ⊢
                      split at hfound
                      next hlast =>
                          cases hfound
                          exact if_pos hlast
                      · exact absurd hfound (by simp)
                  | link target =>
                      obtain rfl := hrenewed.eq rfl rfl
                      simp only [Bool.not_true, Bool.and_false, Bool.false_eq_true,
                        ↓reduceIte] at hfound ⊢
                      exact hjump _ _ hfound

theorem resolveFrom (h : Renewed w w')
    (hfilled : ∀ parent name, spot = .vacant parent name →
      ∃ bytes t x, w'.node? (name :: parent) = some (.file bytes t x))
    (links : Nat) {steps : List PathStep} {loc : Location}
    (hfound : w.resolveFrom true links loc steps = .ok spot) :
    w'.resolveFrom true links loc steps = .ok (.taken spot.location) := by
  induction links generalizing loc steps with
  | zero => exact h.traverse hfilled (fun _ _ hjump => absurd hjump (by simp)) hfound
  | succ links ih => exact h.traverse hfilled (fun _ _ hjump => ih hjump) hfound

theorem resolve (h : Renewed w w') {p : Path}
    (hfilled : ∀ parent name, spot = .vacant parent name →
      ∃ bytes t x, w'.node? (name :: parent) = some (.file bytes t x))
    (hfound : w.resolve true p = .ok spot) : w'.resolve true p = .ok (.taken spot.location) := by
  obtain ⟨hask, htraverse⟩ := resolve_eq_ok.1 hfound
  refine resolve_eq_ok.2 ⟨hask, ?_⟩
  rw [h.cwd]
  exact h.resolveFrom hfilled linkLimit htraverse

end

theorem holds (h : Renewed w w') {p : Path} {made : Int} (hnow : made ≤ w.clock)
    (hholds : w.Holds p made) : w'.Holds p made := by
  obtain ⟨loc, node, hstat, hmade⟩ := holds_iff.1 hholds
  obtain ⟨hresolve, hnode⟩ := stat_eq_ok.1 hstat
  obtain ⟨node', hnode', hrenewed⟩ := h.node hnode
  have hagain := h.resolve (fun _ _ hvacant => absurd hvacant (by simp)) hresolve
  exact holds_iff.2 ⟨loc, node', stat_eq_ok.2 ⟨hagain, hnode'⟩, hrenewed.modified hnow hmade⟩

theorem unlinked (h : Renewed w w') {p : Path} (hclear : w.Unlinked p) : w'.Unlinked p := by
  intro front hfront link hlink
  rw [h.cwd] at hlink
  exact hclear front hfront link (h.special hlink rfl rfl)

end Renewed

/-! ### Making and writing -/

theorem clock_touchDir (loc : Location) : (w.touchDir loc).clock = w.clock := by
  rw [touchDir]
  split <;> rfl

theorem create_renewed {place : Location} {node : Node} (hvacant : w.node? place = none)
    (hkind : node.isDir = true ∨ node.isFile = true) : Renewed w (w.create place node) := by
  refine ⟨cwd_touchDir _, clock_touchDir _, fun {loc old} h => ?_,
    fun {loc new} h hnewDir hnewFile => ?_⟩
  · have hne : place ≠ loc := by
      rintro rfl
      exact absurd (hvacant.symm.trans h) (by simp)
    rw [node?_create_elsewhere hne]
    split
    next htouched =>
        obtain ⟨rfl, hdir⟩ := htouched
        rw [World.isDirAt, h] at hdir
        exact ⟨_, rfl, Or.inr (Or.inl ⟨hdir, rfl⟩)⟩
    · exact ⟨old, h, Or.inl rfl⟩
  · by_cases hsame : place = loc
    · rw [← hsame, node?_create, if_pos rfl] at h
      obtain rfl := Option.some.inj h
      exact absurd hkind (by simp [hnewDir, hnewFile])
    · rw [node?_create_elsewhere hsame] at h
      split at h
      · obtain rfl := Option.some.inj h
        exact absurd hnewDir (by simp [Node.isDir])
      · exact h

theorem makeDir_renewed {p : Path} (h : w.makeDir p = .ok w') : Renewed w w' := by
  obtain ⟨parent, name, hresolve, rfl⟩ := exists_of_makeDir h
  exact create_renewed (resolve_vacant hresolve) (Or.inl rfl)

theorem makeDirs_renewed (w : World) (p : Path) : Renewed w (w.makeDirs p).1 :=
  makeDirs_moves (fun _ _ => makeDir_renewed) w

theorem store_renewed {spot : Spot} (hvacant : ∀ parent name, spot = .vacant parent name →
    w.node? (name :: parent) = none) (content : ByteArray) (x : Option Bool) :
    Renewed w (w.store spot content x) := by
  cases spot with
  | vacant parent name => exact create_renewed (hvacant parent name rfl) (Or.inr rfl)
  | taken loc =>
      rw [store]
      split
      next old t mode hnode =>
          refine ⟨rfl, rfl, fun {other node} h => ?_, fun {other node} h _ hfile => ?_⟩
          · rw [node?_put]
            split
            next hsame =>
                subst hsame
                rw [hnode] at h
                obtain rfl := Option.some.inj h
                exact ⟨_, rfl, Or.inr (Or.inr ⟨rfl, content, _, rfl⟩)⟩
            · exact ⟨node, h, Or.inl rfl⟩
          · rw [node?_put] at h
            split at h
            · obtain rfl := Option.some.inj h
              exact absurd hfile (by simp [Node.isFile])
            · exact h
      · exact Std.Refl.refl w

/-- A path leads to a device. -/
def LeadsToDevice (w : World) (p : Path) : Prop := ∃ loc t, w.stat p = .ok (loc, .device t)

theorem Ordinary.not_leadsToDevice (hordinary : w.Ordinary) (p : Path) : ¬ w.LeadsToDevice p := by
  rintro ⟨loc, t, hstat⟩
  exact absurd (hordinary.noDevice (stat_eq_ok.1 hstat).2) (by simp [Node.isDevice])

/-- What is opened for writing and stands already is a file, if it is no device. -/
theorem exists_file_of_openForWriting {p : Path} {loc : Location} (hstanding : w.Standing)
    (hdevice : ¬ w.LeadsToDevice p) (h : w.openForWriting p = .ok (.taken loc)) :
    ∃ bytes t x, w.node? loc = some (.file bytes t x) := by
  have hdir := isDirAt_of_openForWriting h
  have hresolve := resolve_of_openForWriting h
  obtain ⟨node, hnode, hlink⟩ := exists_of_resolve hstanding hresolve
  cases node with
  | dir t => exact absurd (isDirAt_iff.2 ⟨t, hnode⟩) (by simp [hdir])
  | file bytes t x => exact ⟨bytes, t, x, hnode⟩
  | link target => exact absurd (hlink rfl) (by simp [Node.isLink])
  | device t => exact absurd ⟨loc, t, stat_eq_ok.2 ⟨hresolve, hnode⟩⟩ hdevice

theorem node?_store_taken {loc : Location} {bytes : ByteArray} {t : Int} {mode : Bool}
    (h : w.node? loc = some (.file bytes t mode)) (content : ByteArray) (x : Option Bool) :
    (w.store (.taken loc) content x).node? loc =
      some (.file content w.clock (x.getD mode)) := by
  rw [store, h]
  exact (node?_put ..).trans (if_pos rfl)

theorem node?_store {p : Path} {spot : Spot} (hstanding : w.Standing)
    (hdevice : ¬ w.LeadsToDevice p) (hspot : w.openForWriting p = .ok spot) (content : ByteArray)
    (x : Option Bool) :
    ∃ mode, (w.store spot content x).node? spot.location =
      some (.file content w.clock mode) := by
  cases spot with
  | vacant parent name => exact ⟨_, (node?_create ..).trans (if_pos rfl)⟩
  | taken loc =>
      obtain ⟨bytes, t, mode, hfile⟩ := exists_file_of_openForWriting hstanding hdevice hspot
      exact ⟨_, node?_store_taken hfile content x⟩

theorem clock_store (spot : Spot) (content : ByteArray) (x : Option Bool) :
    (w.store spot content x).clock = w.clock := by
  cases spot with
  | vacant parent name => exact clock_touchDir _
  | taken loc =>
      rw [store]
      split <;> rfl

theorem Renewed.stat_opened (h : Renewed w w') {p : Path} {spot : Spot}
    (hspot : w.openForWriting p = .ok spot) {bytes : ByteArray} {t : Int} {x : Bool}
    (hfile : w'.node? spot.location = some (.file bytes t x)) :
    w'.stat p = .ok (spot.location, .file bytes t x) := by
  have hfilled : ∀ parent name, spot = .vacant parent name →
      ∃ bytes t x, w'.node? (name :: parent) = some (.file bytes t x) := by
    rintro parent name rfl
    exact ⟨bytes, t, x, hfile⟩
  exact stat_eq_ok.2 ⟨h.resolve hfilled (resolve_of_openForWriting hspot), hfile⟩

theorem Renewed.holds_opened (h : Renewed w w') {p : Path} {spot : Spot}
    (hspot : w.openForWriting p = .ok spot) {bytes : ByteArray} {t : Int} {x : Bool}
    (hfile : w'.node? spot.location = some (.file bytes t x)) : w'.Holds p t :=
  holds_iff.2 ⟨_, _, h.stat_opened hspot hfile, Int.le_refl t⟩

theorem store_opened_renewed {p : Path} {spot : Spot} (hspot : w.openForWriting p = .ok spot)
    (content : ByteArray) (x : Option Bool) : Renewed w (w.store spot content x) := by
  refine store_renewed ?_ content x
  rintro parent name rfl
  exact openForWriting_vacant hspot

theorem writeFile_renewed {p : Path} {content : ByteArray} (h : w.writeFile p content = .ok w') :
    Renewed w w' := by
  obtain ⟨spot, hspot, hstore⟩ := Task.exists_of_bind_eq_ok h
  cases hstore
  exact store_opened_renewed hspot content none

/-- The world that a copy leaves is the one it found, or one that was written to twice. -/
theorem copyFile_cases {source target : Path} :
    ((w.copyFile source target).1 = w ∧ ∃ cause, (w.copyFile source target).2 = .error cause) ∨
      ∃ spot content x, w.openForWriting target = .ok spot ∧
        w.copyFile source target =
          ((w.store spot ByteArray.empty none).store (.taken spot.location) content (some x),
            .ok ()) := by
  unfold copyFile
  cases hstat : w.stat source with
  | error cause => exact Or.inl ⟨rfl, cause, rfl⟩
  | ok found =>
      obtain ⟨origin, node⟩ := found
      cases node with
      | dir t => exact Or.inl ⟨rfl, _, rfl⟩
      | link link => exact Or.inl ⟨rfl, _, rfl⟩
      | device t => exact Or.inl ⟨rfl, _, rfl⟩
      | file bytes t x =>
          cases hspot : w.openForWriting target with
          | error cause => exact Or.inl ⟨rfl, cause, rfl⟩
          | ok spot => cases spot <;> exact Or.inr ⟨_, _, x, rfl, rfl⟩

theorem copyFile_renewed (w : World) (source target : Path) :
    Renewed w (w.copyFile source target).1 := by
  rcases copyFile_cases with ⟨hsame, -⟩ | ⟨spot, content, x, hspot, hcopied⟩
  · rw [hsame]
    exact Std.Refl.refl w
  · have htaken : ∀ parent name, Spot.taken spot.location = .vacant parent name →
        (w.store spot ByteArray.empty none).node? (name :: parent) = none :=
      fun _ _ hvacant => absurd hvacant (by simp)
    rw [hcopied]
    exact Trans.trans (store_opened_renewed hspot ByteArray.empty none)
      (store_renewed htaken content (some x))

theorem holds_writeFile {p : Path} {content : ByteArray} (hstanding : w.Standing)
    (hdevice : ¬ w.LeadsToDevice p) (h : w.writeFile p content = .ok w') :
    w'.Holds p w.clock := by
  have hrenewed := writeFile_renewed h
  obtain ⟨spot, hspot, hstore⟩ := Task.exists_of_bind_eq_ok h
  cases hstore
  obtain ⟨mode, hfile⟩ := node?_store hstanding hdevice hspot content none
  exact hrenewed.holds_opened hspot hfile

/-- A file that was written is found again, with what was written to it, for as long as nothing is
taken away and its place keeps its bytes. -/
theorem exists_stat_of_writeFile {w₁ : World} {p : Path} {content : ByteArray}
    (hstanding : w.Standing) (hclear : w.Unlinked p) (hdevice : ¬ w.LeadsToDevice p)
    (hwrite : w.writeFile p content = .ok w₁) (hrenewed : Renewed w₁ w')
    (hkeeps : Keeps (· = p.placeFrom w.cwd) w₁ w') :
    ∃ loc t x, w'.stat p = .ok (loc, .file content t x) := by
  have hwhole : Renewed w w' := Trans.trans (writeFile_renewed hwrite) hrenewed
  obtain ⟨spot, hspot, hstore⟩ := Task.exists_of_bind_eq_ok hwrite
  cases hstore
  have hplace := location_of_resolve hclear (resolve_of_openForWriting hspot)
  obtain ⟨mode, hfile⟩ := node?_store hstanding hdevice hspot content none
  obtain ⟨t, x, hnode⟩ := contentAt_eq_some_iff.1
    (hkeeps _ hplace content (contentAt_eq_some_iff.2 ⟨_, _, hfile⟩))
  exact ⟨_, t, x, hwhole.stat_opened hspot hnode⟩

/-- The target of a copy has the time of the copy, if it is no device. -/
theorem holds_copyFile {source target : Path} (hstanding : w.Standing)
    (hdevice : ¬ w.LeadsToDevice target) (h : (w.copyFile source target).2 = .ok ()) :
    (w.copyFile source target).1.Holds target w.clock := by
  rcases copyFile_cases with ⟨-, cause, hfails⟩ | ⟨spot, content, x, hspot, hcopied⟩
  · exact absurd (hfails.symm.trans h) (by simp)
  · obtain ⟨mode, hfile⟩ := node?_store hstanding hdevice hspot ByteArray.empty none
    have hagain := node?_store_taken hfile content (some x)
    rw [clock_store] at hagain
    have hrenewed := copyFile_renewed w source target
    rw [hcopied] at hrenewed ⊢
    exact hrenewed.holds_opened hspot hagain

/-! ### Places that are left alone -/

theorem node?_create_of_ne {place loc : Location} (hne : place ≠ loc) (htail : place.tail ≠ loc)
    (node : Node) : (w.create place node).node? loc = w.node? loc := by
  rw [node?_create_elsewhere hne, if_neg fun h => htail h.1]

theorem node?_store_of_ne {spot : Spot} {loc : Location} (hne : spot.location ≠ loc)
    (htail : spot.location.tail ≠ loc) (content : ByteArray) (x : Option Bool) :
    (w.store spot content x).node? loc = w.node? loc := by
  cases spot with
  | vacant parent name => exact node?_create_of_ne hne htail _
  | taken place =>
      rw [store]
      split
      · exact (node?_put ..).trans (if_neg hne)
      · rfl

/-- Between two worlds things were only gained, and what stands at a place, seen from a directory,
was left alone unless links are about. -/
structure Leaves (cwd loc : Location) (w w' : World) : Prop where
  renewed : Renewed w w'
  node : w.LinkFree → w.cwd = cwd → ∀ {node : Node}, w.node? loc = some node →
    w'.node? loc = some node

section

variable {cwd loc : Location}

instance : IsPreorder World (Leaves cwd loc) where
  refl w := ⟨Std.Refl.refl w, fun _ _ _ => id⟩
  trans w mid w' hfirst hnext := by
    refine ⟨Trans.trans hfirst.renewed hnext.renewed, fun hfree hcwd _ hnode => ?_⟩
    exact hnext.node (hfirst.renewed.linkFree hfree) (hfirst.renewed.cwd.trans hcwd)
      (hfirst.node hfree hcwd hnode)

theorem nonempty_of_makeDir {p : Path} (h : w.makeDir p = .ok w') : p.text ≠ "" := by
  intro hempty
  obtain rfl : p = ⟨""⟩ := congrArg Path.mk hempty
  exact absurd h nofun

theorem makeDir_leaves {p : Path} (htail : (p.placeFrom cwd).tail ≠ loc)
    (h : w.makeDir p = .ok w') : Leaves cwd loc w w' := by
  refine ⟨makeDir_renewed h, fun hfree hcwd node hnode => ?_⟩
  obtain ⟨hvacant, rfl⟩ := eq_create_of_makeDir (hfree.unlinked p) h
  rw [hcwd] at hvacant ⊢
  have hne : p.placeFrom cwd ≠ loc := by
    rintro rfl
    exact absurd (hvacant.symm.trans hnode) (by simp)
  rw [node?_create_of_ne hne htail, hnode]

theorem makeDirs_leaves {p : Path}
    (htail : ∀ q ∈ ancestors p, q.text ≠ "" → (q.placeFrom cwd).tail ≠ loc) (w : World) :
    Leaves cwd loc w (w.makeDirs p).1 :=
  makeDirs_moves (fun q hq _ _ h => makeDir_leaves (htail q hq (nonempty_of_makeDir h)) h) w

theorem writeFile_leaves {p : Path} {content : ByteArray} (hne : p.placeFrom cwd ≠ loc)
    (htail : (p.placeFrom cwd).tail ≠ loc) (h : w.writeFile p content = .ok w') :
    Leaves cwd loc w w' := by
  refine ⟨writeFile_renewed h, fun hfree hcwd node hnode => ?_⟩
  obtain ⟨spot, hspot, hstore⟩ := Task.exists_of_bind_eq_ok h
  cases hstore
  have hlocation := location_of_resolve (hfree.unlinked p) (resolve_of_openForWriting hspot)
  rw [hcwd] at hlocation
  rw [← hlocation] at hne htail
  rw [node?_store_of_ne hne htail, hnode]

/-- A copy touches its target and the directory that it is in. -/
theorem copyFile_leaves {source target : Path} (hne : target.placeFrom cwd ≠ loc)
    (htail : (target.placeFrom cwd).tail ≠ loc) (w : World) :
    Leaves cwd loc w (w.copyFile source target).1 := by
  refine ⟨copyFile_renewed w source target, fun hfree hcwd node hnode => ?_⟩
  rcases copyFile_cases with ⟨hsame, -⟩ | ⟨spot, content, x, hspot, hcopied⟩
  · rw [hsame, hnode]
  · have hlocation := location_of_resolve (hfree.unlinked target) (resolve_of_openForWriting hspot)
    rw [hcwd] at hlocation
    rw [← hlocation] at hne htail
    have hagain : (Spot.taken spot.location).location ≠ loc := hne
    rw [hcopied, node?_store_of_ne hagain htail, node?_store_of_ne hne htail, hnode]

end

/-- What a path leads to keeps its time if its place is left alone. -/
theorem Leaves.modified {p : Path} {made : Int} (h : Leaves w.cwd (p.placeFrom w.cwd) w w')
    (hfree : w.LinkFree) (hmade : w.modified p = .ok made) : w'.modified p = .ok made := by
  obtain ⟨⟨loc, node⟩, hstat, htime⟩ := Task.exists_of_bind_eq_ok hmade
  obtain rfl : node.modified = made := Except.ok.inj htime
  obtain ⟨rfl, hnode⟩ := node?_placeFrom_of_stat (hfree.unlinked p) hstat
  have hagain := h.renewed.resolve (fun _ _ hvacant => absurd hvacant (by simp))
    (stat_eq_ok.1 hstat).1
  rw [World.modified, stat_eq_ok.2 ⟨hagain, h.node hfree rfl hnode⟩]
  rfl

/-! ### Steps that spare what is held -/

/-- Between two worlds time may have passed, and what some paths lead to was not taken away or put
back to an earlier time. -/
structure Spares (kept : Path → Prop) (w w' : World) : Prop where
  ordinary : w.Ordinary → w'.Ordinary
  clock : w.clock ≤ w'.clock
  holds : ∀ {p : Path} {made : Int}, kept p → made ≤ w.clock → w.Holds p made → w'.Holds p made

instance (kept : Path → Prop) : IsPreorder World (Spares kept) where
  refl w := ⟨id, Int.le_refl w.clock, fun _ _ => id⟩
  trans w mid w' hfirst hnext := by
    refine ⟨fun h => hnext.ordinary (hfirst.ordinary h), Int.le_trans hfirst.clock hnext.clock, ?_⟩
    intro p made hkept hmade hholds
    exact hnext.holds hkept (Int.le_trans hmade hfirst.clock) (hfirst.holds hkept hmade hholds)

theorem Renewed.spares (h : Renewed w w') (kept : Path → Prop) : Spares kept w w' :=
  ⟨h.ordinary, Int.le_of_eq h.clock.symm, fun _ => h.holds⟩

/-- What some paths lead to is spared by a step from a world of some kind, and the step leaves a
world of that kind. -/
structure SparesWithin (kind : World → Prop) (kept : Path → Prop) (w w' : World) : Prop where
  stays : kind w → kind w'
  clock : kind w → w.clock ≤ w'.clock
  holds : kind w → ∀ {p : Path} {made : Int}, kept p → made ≤ w.clock → w.Holds p made →
    w'.Holds p made

instance (kind : World → Prop) (kept : Path → Prop) :
    IsPreorder World (SparesWithin kind kept) where
  refl w := ⟨id, fun _ => Int.le_refl w.clock, fun _ _ _ _ _ => id⟩
  trans w mid w' hfirst hnext := by
    refine ⟨fun h => hnext.stays (hfirst.stays h),
      fun h => Int.le_trans (hfirst.clock h) (hnext.clock (hfirst.stays h)), ?_⟩
    intro hkind p made hkept hmade hholds
    exact hnext.holds (hfirst.stays hkind) hkept (Int.le_trans hmade (hfirst.clock hkind))
      (hfirst.holds hkind hkept hmade hholds)

theorem Spares.within {kept : Path → Prop} (h : Spares kept w w') :
    SparesWithin Ordinary kept w w' :=
  ⟨h.ordinary, fun _ => h.clock, fun _ _ _ => h.holds⟩

end World

end ClojureBuild
