import ClojureBuild.Proofs.World.Frame
import ClojureBuild.Proofs.World.Tree
/-!
The places that paths spell, and what making and copying leave untouched.

Where no link is on the way of a path, the path leads to the place that its text spells, also where
nothing stands there yet.  So the directories that are made for a target, and the target of a copy,
can be told from the texts alone.
-/

namespace ClojureBuild

/-- The place that a path spells, seen from a directory. -/
def Path.placeFrom (cwd : Location) (p : Path) : Location :=
  (World.solidSteps p).foldl PathStep.go (if p.isAbsolute then [] else cwd)

/-- The directories that are made for a target where they are missing. -/
def Path.madeFor (p : Path) : List Path :=
  p.parent?.elim [] World.ancestors

namespace World

variable {w w' : World}

theorem foldl_stepsOf (p : Path) (start : Location) :
    (stepsOf p.text).foldl PathStep.go start = (solidSteps p).foldl PathStep.go start := by
  rcases stepsOf_eq p with hsteps | hsteps
  · rw [hsteps]
  · rw [hsteps, List.foldl_append]
    rfl

/-- No link stands on the way of a path, its end included. -/
def Unlinked (w : World) (p : Path) : Prop :=
  ∀ front, front <+: solidSteps p → ∀ link : String,
    w.node? (front.foldl PathStep.go (if p.isAbsolute then [] else w.cwd)) ≠ some (.link link)

theorem LinkFree.unlinked (hfree : w.LinkFree) (p : Path) : w.Unlinked p := by
  intro front _ link hlink
  exact absurd (hfree hlink) (by simp [Node.isLink])

/-- The current directory stands, with everything above it. -/
def Standing (w : World) : Prop :=
  ∀ loc, loc <:+ w.cwd → w.isDirAt loc = true

theorem Standing.start (hstanding : w.Standing) (p : Path) (up : Location)
    (h : up <:+ if p.isAbsolute then [] else w.cwd) : w.isDirAt up = true := by
  refine hstanding up ?_
  split at h
  · exact h.trans List.nil_suffix
  · exact h

/-! ### Looking up -/

section

variable {follow : Bool} {jump : Location → List PathStep → Except OsError Spot}

/-- A look-up past no link ends where its steps go. -/
theorem location_of_traverse {steps : List PathStep} {loc : Location} {spot : Spot}
    (hclear : ∀ front, front <+: steps → ∀ link : String,
      w.node? (front.foldl PathStep.go loc) ≠ some (.link link))
    (h : w.traverse follow jump loc steps = .ok spot) :
    spot.location = steps.foldl PathStep.go loc := by
  induction steps generalizing loc with
  | nil =>
      cases h
      rfl
  | cons step rest ih =>
      have hrest : ∀ front, front <+: rest → ∀ link : String,
          w.node? (front.foldl PathStep.go (step.go loc)) ≠ some (.link link) :=
        fun front hfront => hclear (step :: front) ((List.prefix_cons_inj step).2 hfront)
      cases step with
      | stay => exact ih hrest h
      | up => exact ih hrest h
      | down name =>
          have hlink := hclear [.down name] ((List.prefix_cons_inj _).2 List.nil_prefix)
          rcases (traverse_down_cases hlink h).2 with ⟨-, rfl, -, rfl⟩ | ⟨-, hgo⟩ |
            ⟨_, -, -, rfl, rfl⟩
          · rfl
          · exact ih hrest hgo
          · rfl

/-- What a look-up calls taken is there, if its start is: it goes down through directories only. -/
theorem exists_of_traverse (hjump : ∀ {start : Location} {steps : List PathStep} {found : Location},
      (∀ up, up <:+ start → w.isDirAt up = true) → jump start steps = .ok (.taken found) →
        ∃ node, w.node? found = some node ∧ (follow = true → node.isLink = false))
    {steps : List PathStep} {loc found : Location} (hstart : ∀ up, up <:+ loc → w.isDirAt up = true)
    (h : w.traverse follow jump loc steps = .ok (.taken found)) :
    ∃ node, w.node? found = some node ∧ (follow = true → node.isLink = false) := by
  induction steps generalizing loc with
  | nil =>
      cases h
      obtain ⟨t, ht⟩ := isDirAt_iff.1 (hstart found List.suffix_rfl)
      exact ⟨_, ht, fun _ => rfl⟩
  | cons step rest ih =>
      cases step with
      | stay => exact ih hstart h
      | up => exact ih (fun up hup => hstart up (hup.trans (List.tail_suffix loc))) h
      | down name =>
          rw [traverse] at h
          split at h
          · exact absurd h (by simp)
          · cases hnode : w.node? (name :: loc) with
            | none =>
                simp only [hnode] at h
                split at h <;> exact absurd h (by simp)
            | some node =>
                rw [hnode] at h
                cases node with
                | dir t =>
                    refine ih (fun up hup => ?_) h
                    rcases List.suffix_cons_iff.1 hup with rfl | hup
                    · exact isDirAt_iff.2 ⟨t, hnode⟩
                    · exact hstart up hup
                | file content t x =>
                    simp only at h
                    split at h
                    · cases h
                      exact ⟨_, hnode, fun _ => rfl⟩
                    · exact absurd h (by simp)
                | device t =>
                    simp only at h
                    split at h
                    · cases h
                      exact ⟨_, hnode, fun _ => rfl⟩
                    · exact absurd h (by simp)
                | link target =>
                    simp only at h
                    split at h
                    next hlast =>
                        cases h
                        refine ⟨_, hnode, fun hfollow => ?_⟩
                        rw [hfollow] at hlast
                        exact absurd hlast (by simp)
                    · refine hjump (fun up hup => ?_) h
                      split at hup
                      · exact hstart up (hup.trans List.nil_suffix)
                      · exact hstart up hup

theorem exists_of_resolveFrom (links : Nat) {steps : List PathStep} {loc found : Location}
    (hstart : ∀ up, up <:+ loc → w.isDirAt up = true)
    (h : w.resolveFrom follow links loc steps = .ok (.taken found)) :
    ∃ node, w.node? found = some node ∧ (follow = true → node.isLink = false) := by
  induction links generalizing loc steps found with
  | zero => exact exists_of_traverse (fun _ hjump => absurd hjump (by simp)) hstart h
  | succ links ih => exact exists_of_traverse (fun hup hjump => ih hup hjump) hstart h

/-- What a path leads to is there, if the current directory is; and it is no link, if links are
followed to the end. -/
theorem exists_of_resolve {p : Path} {found : Location} (hstanding : w.Standing)
    (h : w.resolve follow p = .ok (.taken found)) :
    ∃ node, w.node? found = some node ∧ (follow = true → node.isLink = false) :=
  exists_of_resolveFrom linkLimit (hstanding.start p) (resolve_eq_ok.1 h).2

end

/-- The demand for a directory at the end adds no place to the way of a path. -/
theorem Unlinked.stepsOf {p : Path} (hclear : w.Unlinked p) (front : List PathStep)
    (hfront : front <+: World.stepsOf p.text) (link : String) :
    w.node? (front.foldl PathStep.go (if p.isAbsolute then [] else w.cwd)) ≠ some (.link link) := by
  rcases stepsOf_eq p with hsteps | hsteps
  · exact hclear front (hsteps ▸ hfront) link
  · rw [hsteps] at hfront
    rcases List.prefix_concat_iff.1 hfront with rfl | hfront
    · rw [List.foldl_append]
      exact hclear _ List.prefix_rfl link
    · exact hclear front hfront link

theorem location_of_resolve {follow : Bool} {p : Path} {spot : Spot} (hclear : w.Unlinked p)
    (h : w.resolve follow p = .ok spot) : spot.location = p.placeFrom w.cwd := by
  have htraverse := (resolve_eq_ok.1 h).2
  rw [location_of_traverse hclear.stepsOf htraverse, foldl_stepsOf]
  rfl

theorem node?_placeFrom_of_stat {p : Path} {loc : Location} {node : Node} (hclear : w.Unlinked p)
    (h : w.stat p = .ok (loc, node)) :
    loc = p.placeFrom w.cwd ∧ w.node? (p.placeFrom w.cwd) = some node := by
  obtain ⟨hresolve, hnode⟩ := stat_eq_ok.1 h
  obtain rfl : loc = p.placeFrom w.cwd := location_of_resolve hclear hresolve
  exact ⟨rfl, hnode⟩

theorem exists_of_modified {p : Path} {t : Int} (hclear : w.Unlinked p)
    (h : w.modified p = .ok t) :
    ∃ node, w.node? (p.placeFrom w.cwd) = some node ∧ node.modified = t := by
  obtain ⟨⟨loc, node⟩, hstat, ht⟩ := Task.exists_of_bind_eq_ok h
  exact ⟨node, (node?_placeFrom_of_stat hclear hstat).2, Except.ok.inj ht⟩

theorem resolve_of_openForWriting {p : Path} {spot : Spot} (h : w.openForWriting p = .ok spot) :
    w.resolve true p = .ok spot := by
  unfold openForWriting at h
  split at h
  · split at h <;> exact absurd h (by simp)
  · split at h
    · exact absurd h (by simp)
    next hresolve =>
        cases h
        exact hresolve
    next hresolve =>
        split at h
        · exact absurd h (by simp)
        · cases h
          exact hresolve

theorem isDirAt_of_openForWriting {p : Path} {loc : Location}
    (h : w.openForWriting p = .ok (.taken loc)) : w.isDirAt loc = false := by
  unfold openForWriting at h
  split at h
  · split at h <;> exact absurd h (by simp)
  · split at h
    · exact absurd h (by simp)
    · exact absurd h (by simp)
    · split at h
      · exact absurd h (by simp)
      next hdir =>
          cases h
          exact Bool.eq_false_iff.2 hdir

theorem writeFile_keeps {p : Path} {content : ByteArray} {loc : Location}
    (hclear : w.Unlinked p) (hne : p.placeFrom w.cwd ≠ loc) (h : w.writeFile p content = .ok w') :
    Keeps (· = loc) w w' := by
  obtain ⟨spot, hspot, hstore⟩ := Task.exists_of_bind_eq_ok h
  cases hstore
  rintro place rfl bytes hbytes
  have hlocation := location_of_resolve hclear (resolve_of_openForWriting hspot)
  rw [contentAt_store_of_ne (hlocation ▸ hne), hbytes]

/-! ### Separators at the end -/

theorem filterMap_splitOn_slashes {α : Type} (f : List Char → Option α) (hf : f [] = none)
    (text : List Char) (n : Nat) :
    (Text.splitOn '/' (text ++ List.replicate n '/')).filterMap f =
      (Text.splitOn '/' text).filterMap f := by
  induction n generalizing text with
  | zero => rw [List.replicate_zero, List.append_nil]
  | succ n ih =>
      have hnone : (Text.splitOn '/' ([] : List Char)).filterMap f = [] := by
        simp [Text.splitOn, hf]
      rw [List.replicate_succ, Text.splitOn_append_sep, List.filterMap_append,
        ← List.nil_append (List.replicate n '/'), ih [], hnone, List.append_nil]

/-- A text is what is left without the separators at its end, and the separators. -/
theorem exists_replicate_slash (text : List Char) :
    ∃ n, text = (text.reverse.dropWhile (· == '/')).reverse ++ List.replicate n '/' := by
  refine ⟨(text.reverse.takeWhile (· == '/')).length, ?_⟩
  have hall : ∀ c ∈ text.reverse.takeWhile (· == '/'), c = '/' := by
    intro c hc
    exact eq_of_beq (List.all_eq_true.1 List.all_takeWhile c hc)
  have hslashes := List.eq_replicate_iff.2 ⟨rfl, hall⟩
  rw [← List.reverse_inj, List.reverse_append, List.reverse_reverse, List.reverse_replicate,
    ← hslashes, List.takeWhile_append_dropWhile]

theorem solidSteps_eq (p : Path) :
    solidSteps p = (Text.splitOn '/' p.text.toList).filterMap (stepOfPiece ∘ String.ofList) := by
  rw [solidSteps, Text.splitString, List.filterMap_map]

theorem solidSteps_of_slashes {p : Path} {kept : List Char} {n : Nat}
    (h : p.text.toList = kept ++ List.replicate n '/') :
    solidSteps p = solidSteps ⟨String.ofList kept⟩ := by
  rw [solidSteps_eq, solidSteps_eq, h, filterMap_splitOn_slashes _ rfl, String.toList_ofList]

/-- A path without the separators at its end takes the same steps. -/
theorem solidSteps_dropTrailingSeparators (p : Path) :
    solidSteps (dropTrailingSeparators p) = solidSteps p := by
  obtain ⟨n, hn⟩ := exists_replicate_slash p.text.toList
  rw [solidSteps_of_slashes hn]
  simp only [dropTrailingSeparators]
  split
  next hempty =>
      rw [List.isEmpty_iff.1 hempty]
      split
      · rfl
      · rw [solidSteps_of_slashes hn, List.isEmpty_iff.1 hempty]
  · rfl

theorem isAbsolute_dropTrailingSeparators (p : Path) :
    (dropTrailingSeparators p).isAbsolute = p.isAbsolute := by
  obtain ⟨n, hn⟩ := exists_replicate_slash p.text.toList
  simp only [dropTrailingSeparators]
  split
  · split
    next habsolute => rw [habsolute]; rfl
    · rfl
  next hne =>
      rw [List.isEmpty_iff] at hne
      obtain ⟨first, rest, hkept⟩ := List.exists_cons_of_ne_nil hne
      rw [hkept] at hn
      rw [Path.isAbsolute, Path.isAbsolute, String.toList_ofList, hkept, hn]
      rfl

theorem placeFrom_dropTrailingSeparators (cwd : Location) (p : Path) :
    (dropTrailingSeparators p).placeFrom cwd = p.placeFrom cwd := by
  rw [Path.placeFrom, Path.placeFrom, solidSteps_dropTrailingSeparators,
    isAbsolute_dropTrailingSeparators]

theorem Unlinked.dropTrailingSeparators {p : Path} (hclear : w.Unlinked p) :
    w.Unlinked (dropTrailingSeparators p) := by
  intro front hfront
  rw [solidSteps_dropTrailingSeparators] at hfront
  rw [isAbsolute_dropTrailingSeparators]
  exact hclear front hfront

theorem eq_create_of_makeDir {p : Path} (hclear : w.Unlinked p) (h : w.makeDir p = .ok w') :
    w.node? (p.placeFrom w.cwd) = none ∧ w' = w.create (p.placeFrom w.cwd) (.dir w.clock) := by
  obtain ⟨parent, name, hresolve, rfl⟩ := exists_of_makeDir h
  have hplace : name :: parent = p.placeFrom w.cwd :=
    (location_of_resolve hclear.dropTrailingSeparators hresolve).trans
      (placeFrom_dropTrailingSeparators w.cwd p)
  exact ⟨hplace ▸ resolve_vacant hresolve, by rw [hplace]⟩

/-! ### Footprints -/

/-- Nothing changed between two worlds but this: some places were written to, some were made
directories where nothing stood, and directories were touched. -/
structure Footprint (written made : Location → Prop) (w w' : World) : Prop where
  cwd : w'.cwd = w.cwd
  noLink : ∀ {loc : Location} {link : String}, w'.node? loc = some (.link link) →
    w.node? loc = some (.link link)
  elsewhere : ∀ {loc : Location}, ¬ written loc → w'.node? loc = w.node? loc ∨
    w'.isDirAt loc = true ∧ (w.isDirAt loc = true ∨ w.node? loc = none ∧ made loc)

namespace Footprint

variable {written made : Location → Prop}

theorem refl (w : World) : Footprint written made w w := ⟨rfl, id, fun _ => Or.inl rfl⟩

theorem trans {w'' : World} (hfirst : Footprint written made w w')
    (hnext : Footprint written made w' w'') : Footprint written made w w'' := by
  refine ⟨hnext.cwd.trans hfirst.cwd, fun h => hfirst.noLink (hnext.noLink h), fun {loc} hloc => ?_⟩
  rcases hfirst.elsewhere hloc with hsame | ⟨hdir, hwas⟩
  · rcases hnext.elsewhere hloc with hsame' | ⟨hdir', hwas'⟩
    · exact Or.inl (hsame'.trans hsame)
    · refine Or.inr ⟨hdir', ?_⟩
      rwa [isDirAt, hsame] at hwas'
  · rcases hnext.elsewhere hloc with hsame' | ⟨hdir', -⟩
    · refine Or.inr ⟨?_, hwas⟩
      rwa [isDirAt, hsame']
    · exact Or.inr ⟨hdir', hwas⟩

theorem mono {written' made' : Location → Prop} (h : Footprint written made w w')
    (hwritten : ∀ loc, written loc → written' loc) (hmade : ∀ loc, made loc → made' loc) :
    Footprint written' made' w w' := by
  refine ⟨h.cwd, h.noLink, fun {loc} hloc => ?_⟩
  rcases h.elsewhere fun hin => hloc (hwritten loc hin) with hsame | ⟨hdir, hwas⟩
  · exact Or.inl hsame
  · exact Or.inr ⟨hdir, hwas.imp_right fun ⟨hnone, hin⟩ => ⟨hnone, hmade loc hin⟩⟩

theorem unlinked {p : Path} (h : Footprint written made w w') (hclear : w.Unlinked p) :
    w'.Unlinked p := by
  intro front hfront link hlink
  rw [h.cwd] at hlink
  exact hclear front hfront link (h.noLink hlink)

/-- What is no directory and was not written to stays as it is; where nothing was, no directory may
have been made. -/
theorem node?_eq {loc : Location} (h : Footprint written made w w') (hwritten : ¬ written loc)
    (hdir : w.isDirAt loc = false) (hmade : made loc → w.node? loc ≠ none) :
    w'.node? loc = w.node? loc := by
  rcases h.elsewhere hwritten with hsame | ⟨-, hwas | ⟨hnone, hin⟩⟩
  · exact hsame
  · rw [hdir] at hwas
    exact absurd hwas (by simp)
  · exact absurd hnone (hmade hin)

theorem node?_before {loc : Location} {node : Node} (h : Footprint written made w w')
    (hwritten : ¬ written loc) (hnode : w'.node? loc = some node) (hdir : node.isDir = false) :
    w.node? loc = some node := by
  rcases h.elsewhere hwritten with hsame | ⟨hmade, -⟩
  · exact hsame.symm.trans hnode
  · rw [World.isDirAt, hnode] at hmade
    exact absurd (hdir.symm.trans hmade) (by simp)

theorem isDirAt {loc : Location} (h : Footprint written made w w') (hwritten : ¬ written loc)
    (hdir : w.isDirAt loc = true) : w'.isDirAt loc = true := by
  rcases h.elsewhere hwritten with hsame | ⟨hdir', -⟩
  · rwa [World.isDirAt, hsame]
  · exact hdir'

end Footprint

variable {written made : Location → Prop}

theorem cwd_touchDir (loc : Location) : (w.touchDir loc).cwd = w.cwd := by
  rw [touchDir]
  split <;> rfl

theorem node?_create_elsewhere {place loc : Location} (hne : place ≠ loc) (node : Node) :
    (w.create place node).node? loc =
      if place.tail = loc ∧ w.isDirAt place.tail = true then some (.dir w.clock)
      else w.node? loc := by
  rw [node?_create, if_neg hne, node?_touchDir]

theorem create_footprint {place : Location} {node : Node} (hlink : node.isLink = false)
    (hplace : written place ∨ w.node? place = none ∧ made place ∧ node.isDir = true) :
    Footprint written made w (w.create place node) := by
  have hself : (w.create place node).node? place = some node := by
    rw [node?_create, if_pos rfl]
  refine ⟨cwd_touchDir _, fun {loc link} h => ?_, fun {loc} hloc => ?_⟩
  · by_cases hsame : place = loc
    · rw [← hsame, hself] at h
      obtain rfl := Option.some.inj h
      exact absurd hlink (by simp [Node.isLink])
    · rw [node?_create_elsewhere hsame] at h
      split at h
      · exact absurd h (by simp)
      · exact h
  · by_cases hsame : place = loc
    · subst hsame
      obtain ⟨hnone, hin, hdir⟩ := hplace.resolve_left hloc
      refine Or.inr ⟨?_, Or.inr ⟨hnone, hin⟩⟩
      rw [isDirAt, hself]
      exact hdir
    · rw [isDirAt, node?_create_elsewhere hsame]
      split
      next htouched =>
          obtain ⟨rfl, hdir⟩ := htouched
          exact Or.inr ⟨rfl, Or.inl hdir⟩
      · exact Or.inl rfl

theorem makeDir_footprint {p : Path} (hclear : w.Unlinked p) (hmade : made (p.placeFrom w.cwd))
    (h : w.makeDir p = .ok w') : Footprint written made w w' := by
  obtain ⟨hnone, rfl⟩ := eq_create_of_makeDir hclear h
  exact create_footprint rfl (Or.inr ⟨hnone, hmade, rfl⟩)

theorem makeEach_footprint {paths : List Path} (hclear : ∀ p ∈ paths, w.Unlinked p)
    (hmade : ∀ p ∈ paths, made (p.placeFrom w.cwd)) :
    Footprint written made w (w.makeEach paths).1 := by
  induction paths generalizing w with
  | nil => exact Footprint.refl w
  | cons p rest ih =>
      have hrest := fun q hq => hclear q (List.mem_cons_of_mem p hq)
      have hmadeRest := fun q hq => hmade q (List.mem_cons_of_mem p hq)
      rw [makeEach]
      split
      next w' hw' =>
          have hfirst : Footprint written made w w' :=
            makeDir_footprint (hclear p List.mem_cons_self) (hmade p List.mem_cons_self) hw'
          refine hfirst.trans (ih (fun q hq => hfirst.unlinked (hrest q hq)) fun q hq => ?_)
          rw [hfirst.cwd]
          exact hmadeRest q hq
      · split
        · exact ih hrest hmadeRest
        · exact Footprint.refl w

/-- Making a chain of directories makes none but those on the chain. -/
theorem makeDirs_footprint {p : Path} (hclear : ∀ q ∈ ancestors p, w.Unlinked q)
    (hmade : ∀ q ∈ ancestors p, made (q.placeFrom w.cwd)) :
    Footprint written made w (w.makeDirs p).1 := by
  rw [makeDirs]
  split
  · exact Footprint.refl w
  next w' missing hclimb =>
      obtain ⟨hworld, hleft⟩ := climb_cases hclimb
      have hfirst : Footprint written made w w' := by
        rcases hworld with rfl | ⟨q, hq, hmake⟩
        · exact Footprint.refl w'
        · exact makeDir_footprint (hclear q hq) (hmade q hq) hmake
      have hon : ∀ q ∈ missing, q ∈ ancestors p := fun q hq =>
        (hleft q hq).resolve_right (List.not_mem_nil)
      refine hfirst.trans (makeEach_footprint (fun q hq => hfirst.unlinked (hclear q (hon q hq)))
        fun q hq => ?_)
      rw [hfirst.cwd]
      exact hmade q (hon q hq)

theorem put_footprint {place : Location} {node : Node} (hlink : node.isLink = false)
    (hplace : written place) : Footprint written made w (w.put place node) := by
  refine ⟨rfl, fun {loc link} h => ?_, fun {loc} hloc => Or.inl ?_⟩
  · rw [node?_put] at h
    split at h
    · obtain rfl := Option.some.inj h
      exact absurd hlink (by simp [Node.isLink])
    · exact h
  · rw [node?_put, if_neg]
    rintro rfl
    exact hloc hplace

theorem store_footprint {spot : Spot} (content : ByteArray) (x : Option Bool)
    (hplace : written spot.location) : Footprint written made w (w.store spot content x) := by
  cases spot with
  | vacant parent name => exact create_footprint rfl (Or.inl hplace)
  | taken loc =>
      rw [store]
      split
      · exact put_footprint rfl hplace
      · exact Footprint.refl w

/-- A copy writes to the place of its target and to no other. -/
theorem copyFile_footprint {source target : Path} (hclear : w.Unlinked target)
    (hplace : written (target.placeFrom w.cwd)) :
    Footprint written made w (w.copyFile source target).1 := by
  unfold copyFile
  split
  · exact Footprint.refl w
  · split
    · exact Footprint.refl w
    next spot hspot =>
        have hlocation := location_of_resolve hclear (resolve_of_openForWriting hspot)
        rw [← hlocation] at hplace
        refine (store_footprint _ _ hplace).trans (store_footprint _ _ ?_)
        cases spot <;> exact hplace
  · exact Footprint.refl w

/-- A copy that fails changes nothing. -/
theorem eq_of_copyFile_error {source target : Path} {cause : OsError}
    (h : (w.copyFile source target).2 = .error cause) : (w.copyFile source target).1 = w := by
  unfold copyFile at h ⊢
  split
  · rfl
  next hstat =>
      rw [hstat] at h
      simp only at h ⊢
      split
      · rfl
      next hspot =>
          rw [hspot] at h
          exact absurd h (by simp)
  · rfl

theorem Unlinked.ne_link {p : Path} (hclear : w.Unlinked p) (link : String) :
    w.node? (p.placeFrom w.cwd) ≠ some (.link link) :=
  hclear _ List.prefix_rfl link

theorem isDirAt_of_contentAt {loc : Location} {bytes : ByteArray}
    (h : w.contentAt loc = some bytes) : w.isDirAt loc = false := by
  obtain ⟨t, x, hnode⟩ := contentAt_eq_some_iff.1 h
  rw [isDirAt, hnode]
  rfl

/-- What is opened for writing is a vacant place, a file or a device. -/
theorem openForWriting_cases {p : Path} {spot : Spot} (hstanding : w.Standing)
    (hclear : w.Unlinked p) (h : w.openForWriting p = .ok spot) :
    (∃ parent name, spot = .vacant parent name ∧ name :: parent = p.placeFrom w.cwd) ∨
      spot = .taken (p.placeFrom w.cwd) ∧ ((∃ bytes, w.contentAt (p.placeFrom w.cwd) = some bytes) ∨
        ∃ t, w.node? (p.placeFrom w.cwd) = some (.device t)) := by
  have hresolve := resolve_of_openForWriting h
  have hlocation := location_of_resolve hclear hresolve
  cases spot with
  | vacant parent name => exact Or.inl ⟨parent, name, rfl, hlocation⟩
  | taken loc =>
      obtain rfl : loc = p.placeFrom w.cwd := hlocation
      refine Or.inr ⟨rfl, ?_⟩
      obtain ⟨node, hnode, -⟩ := exists_of_resolve hstanding hresolve
      have hdir := isDirAt_of_openForWriting h
      cases node with
      | dir t => exact absurd (isDirAt_iff.2 ⟨t, hnode⟩) (by simp [hdir])
      | file bytes t x => exact Or.inl ⟨bytes, contentAt_eq_some_iff.2 ⟨t, x, hnode⟩⟩
      | link link => exact absurd hnode (hclear.ne_link link)
      | device t => exact Or.inr ⟨t, hnode⟩

/-- A copy that succeeds leaves the bytes of the source at the place of the target, unless a device
is there. -/
theorem contentAt_of_copyFile {source target : Path} (hstanding : w.Standing)
    (hsource : w.Unlinked source) (htarget : w.Unlinked target)
    (hne : source.placeFrom w.cwd ≠ target.placeFrom w.cwd)
    (hdevice : ∀ t, w.node? (target.placeFrom w.cwd) ≠ some (.device t))
    (h : (w.copyFile source target).2 = .ok ()) :
    ∃ bytes, w.contentAt (source.placeFrom w.cwd) = some bytes ∧
      (w.copyFile source target).1.contentAt (target.placeFrom w.cwd) = some bytes := by
  unfold copyFile at h ⊢
  split at h
  · exact absurd h (by simp)
  next origin bytes t x hstat =>
      obtain ⟨rfl, horigin⟩ := node?_placeFrom_of_stat hsource hstat
      have hbytes : w.contentAt (source.placeFrom w.cwd) = some bytes :=
        contentAt_eq_some_iff.2 ⟨t, x, horigin⟩
      refine ⟨bytes, hbytes, ?_⟩
      split at h
      · exact absurd h (by simp)
      next spot hspot =>
          have hlocation := location_of_resolve htarget (resolve_of_openForWriting hspot)
          have hkept : (w.store spot ByteArray.empty none).contentAt (source.placeFrom w.cwd) =
              some bytes := by
            rw [contentAt_store_of_ne (hlocation ▸ hne.symm), hbytes]
          obtain ⟨t', x', hread⟩ := contentAt_eq_some_iff.1 hkept
          simp only [hread]
          rcases openForWriting_cases hstanding htarget hspot with ⟨parent, name, rfl, hplace⟩ |
            ⟨rfl, ⟨old, hold⟩ | ⟨t'', hnode⟩⟩
          · rw [← hplace]
            exact contentAt_store_self (contentAt_put_file _ _ _ _) _ _
          · exact contentAt_store_self (contentAt_store_self hold _ _) _ _
          · exact absurd hnode (hdevice t'')
  · exact absurd h (by simp)

/-- A copy that succeeds does not go to a directory. -/
theorem isDirAt_of_copyFile {source target : Path} (htarget : w.Unlinked target)
    (h : (w.copyFile source target).2 = .ok ()) :
    w.isDirAt (target.placeFrom w.cwd) = false := by
  unfold copyFile at h
  split at h
  · exact absurd h (by simp)
  · split at h
    · exact absurd h (by simp)
    next spot hspot =>
        rw [← location_of_resolve htarget (resolve_of_openForWriting hspot)]
        cases spot with
        | vacant parent name =>
            rw [isDirAt, Spot.location, openForWriting_vacant hspot]
            rfl
        | taken loc => exact isDirAt_of_openForWriting hspot
  · exact absurd h (by simp)

/-- A copy onto a device changes nothing. -/
theorem copyFile_of_device {source target : Path} {t : Int} (hstanding : w.Standing)
    (htarget : w.Unlinked target) (hdevice : w.node? (target.placeFrom w.cwd) = some (.device t)) :
    (w.copyFile source target).1 = w := by
  unfold copyFile
  split
  · rfl
  · split
    · rfl
    next spot hspot =>
        rcases openForWriting_cases hstanding htarget hspot with ⟨parent, name, rfl, hplace⟩ |
          ⟨rfl, -⟩
        · have hnone := openForWriting_vacant hspot
          rw [hplace, hdevice] at hnone
          exact absurd hnone (by simp)
        · have hstore : ∀ content x, w.store (.taken (target.placeFrom w.cwd)) content x = w := by
            intro content x
            rw [store, hdevice]
          simp only [hstore]
  · rfl

end World

end ClojureBuild
