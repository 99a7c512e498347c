import ClojureBuild.Proofs.World.Growth
/-!
What is made for a path.

A directory that is made is where its path leads from then on, also through links.  Main statements:
making a chain of directories grows the world, by none but such as the path or one above it leads
to, and if it succeeds the path leads to a directory; where the path does so already, none is made.
-/

namespace ClojureBuild.World

variable {w w' : World}

/-! ### One directory -/

theorem makeDir_grown {p : Path} (h : w.makeDir p = .ok w') : Grown w w' := by
  obtain ⟨parent, name, hresolve, rfl⟩ := exists_of_makeDir h
  exact create_footprint rfl (Or.inr ⟨resolve_vacant hresolve, trivial, rfl⟩)

theorem makeDirs_grown (w : World) (p : Path) : Grown w (w.makeDirs p).1 :=
  makeDirs_moves (fun _ _ => makeDir_grown) w

/-- A look-up that ends at a vacant place ends there also when a directory was made at it, and may
stay there. -/
theorem Grown.traverse_made (h : Grown w w') {follow : Bool}
    {jump jump' : Location → List PathStep → Except OsError Spot} {parent : Location}
    {name : String} (hmade : w'.isDirAt (name :: parent) = true) {last : List PathStep}
    (hlast : last = [] ∨ last = [.stay])
    (hjump : ∀ start steps, jump start steps = .ok (.vacant parent name) →
      jump' start (steps ++ last) = .ok (.taken (name :: parent)))
    {steps : List PathStep} {loc : Location}
    (hvacant : w.traverse follow jump loc steps = .ok (.vacant parent name)) :
    w'.traverse true jump' loc (steps ++ last) = .ok (.taken (name :: parent)) := by
  obtain ⟨t, ht⟩ := isDirAt_iff.1 hmade
  induction steps generalizing loc with
  | nil => exact absurd hvacant (by simp [traverse])
  | cons step rest ih =>
      cases step with
      | stay => exact @ih loc hvacant
      | up => exact @ih loc.tail hvacant
      | down next =>
          rw [List.cons_append, traverse]
          rw [traverse] at hvacant
          split at hvacant
          · exact absurd hvacant (by simp)
          next hnext =>
              rw [if_neg hnext]
              cases hnode : w.node? (next :: loc) with
              | none =>
                  simp only [hnode] at hvacant
                  split at hvacant
                  next hend =>
                      cases hvacant
                      rw [Bool.and_eq_true, List.isEmpty_iff] at hend
                      rw [ht, hend.1, List.nil_append]
                      rcases hlast with rfl | rfl <;> rfl
                  · exact absurd hvacant (by simp)
              | some node =>
                  rw [hnode] at hvacant
                  cases node with
                  | dir t =>
                      obtain ⟨t', ht'⟩ := isDirAt_iff.1 (h.isDirAt (isDirAt_iff.2 ⟨t, hnode⟩))
                      rw [ht']
                      exact ih hvacant
                  | file content t x =>
                      simp only at hvacant
                      split at hvacant <;> exact absurd hvacant (by simp)
                  | device t =>
                      simp only at hvacant
                      split at hvacant <;> exact absurd hvacant (by simp)
                  | link target =>
                      rw [h.node?_eq hnode rfl]
                      simp only [Bool.not_true, Bool.and_false, Bool.false_eq_true,
                        ↓reduceIte] at hvacant ⊢
                      split at hvacant
                      · exact absurd hvacant (by simp)
                      · rw [← List.append_assoc]
                        exact hjump _ _ hvacant

theorem Grown.resolveFrom_made (h : Grown w w') {follow : Bool} {parent : Location}
    {name : String} (hmade : w'.isDirAt (name :: parent) = true) {last : List PathStep}
    (hlast : last = [] ∨ last = [.stay]) (links : Nat) {steps : List PathStep} {loc : Location}
    (hvacant : w.resolveFrom follow links loc steps = .ok (.vacant parent name)) :
    w'.resolveFrom true links loc (steps ++ last) = .ok (.taken (name :: parent)) := by
  induction links generalizing steps loc with
  | zero => exact h.traverse_made hmade hlast (fun _ _ hjump => absurd hjump (by simp)) hvacant
  | succ links ih => exact h.traverse_made hmade hlast (fun _ _ hjump => ih hjump) hvacant

/-- A look-up that ends at something does so too at the front of its steps, where a last link is not
followed. -/
theorem exists_traverse_front {jump jump' : Location → List PathStep → Except OsError Spot}
    {last : List PathStep}
    (hjump : ∀ start steps found, jump start (steps ++ last) = .ok (.taken found) →
      ∃ found', jump' start steps = .ok (.taken found'))
    {steps : List PathStep} {loc found : Location}
    (htaken : w.traverse true jump loc (steps ++ last) = .ok (.taken found)) :
    ∃ found', w.traverse false jump' loc steps = .ok (.taken found') := by
  induction steps generalizing loc with
  | nil => exact ⟨loc, rfl⟩
  | cons step rest ih =>
      cases step with
      | stay => exact @ih loc htaken
      | up => exact @ih loc.tail htaken
      | down name =>
          rw [List.cons_append, traverse] at htaken
          rw [traverse]
          split at htaken
          · exact absurd htaken (by simp)
          next hname =>
              rw [if_neg hname]
              cases hnode : w.node? (name :: loc) with
              | none =>
                  simp only [hnode] at htaken
                  split at htaken <;> exact absurd htaken (by simp)
              | some node =>
                  rw [hnode] at htaken
                  cases node with
                  | dir t => exact ih htaken
                  | file content t x =>
                      have hend : rest.isEmpty = true := by
                        cases rest with
                        | nil => rfl
                        | cons next others => exact absurd htaken (by simp)
                      exact ⟨_, if_pos hend⟩
                  | device t =>
                      have hend : rest.isEmpty = true := by
                        cases rest with
                        | nil => rfl
                        | cons next others => exact absurd htaken (by simp)
                      exact ⟨_, if_pos hend⟩
                  | link target =>
                      simp only [Bool.not_true, Bool.and_false, Bool.false_eq_true, ↓reduceIte,
                        ← List.append_assoc] at htaken
                      simp only
                      split
                      · exact ⟨_, rfl⟩
                      · exact hjump _ _ _ htaken

theorem exists_resolveFrom_front (links : Nat) {steps last : List PathStep} {loc found : Location}
    (htaken : w.resolveFrom true links loc (steps ++ last) = .ok (.taken found)) :
    ∃ found', w.resolveFrom false links loc steps = .ok (.taken found') := by
  induction links generalizing steps loc found with
  | zero => exact exists_traverse_front (fun _ _ _ hjump => absurd hjump (by simp)) htaken
  | succ links ih =>
      refine exists_traverse_front (fun start steps found hjump => ?_) htaken
      exact ih hjump

/-- Without the separators at its end a path is the root or ends in something else. -/
theorem dropTrailingSeparators_cases (p : Path) :
    dropTrailingSeparators p = ⟨"/"⟩ ∨
      (dropTrailingSeparators p).text.toList.getLast? ≠ some '/' := by
  obtain ⟨n, hn⟩ := exists_replicate_slash p.text.toList
  simp only [dropTrailingSeparators]
  split
  next hempty =>
      rw [List.isEmpty_iff.1 hempty, List.nil_append] at hn
      split
      · exact Or.inl rfl
      next habsolute =>
          right
          cases n with
          | zero => simp [hn]
          | succ n => exact absurd (by rw [Path.isAbsolute, hn]; rfl) habsolute
  · right
    rw [String.toList_ofList, List.getLast?_reverse]
    intro hlast
    have hfirst := List.head?_dropWhile_not (· == '/') p.text.toList.reverse
    rw [hlast] at hfirst
    exact absurd hfirst (by simp)

theorem mem_dropTrailingSeparators {p : Path} {c : Char} (hc : c ∈ p.text.toList)
    (hslash : c ≠ '/') : c ∈ (dropTrailingSeparators p).text.toList := by
  obtain ⟨n, hn⟩ := exists_replicate_slash p.text.toList
  have hkept : c ∈ (p.text.toList.reverse.dropWhile (· == '/')).reverse := by
    rw [hn, List.mem_append] at hc
    exact hc.resolve_right fun hin => hslash (List.eq_of_mem_replicate hin)
  simp only [dropTrailingSeparators]
  split
  next hempty =>
      rw [List.isEmpty_iff.1 hempty] at hkept
      exact absurd hkept List.not_mem_nil
  · rwa [String.toList_ofList]

theorem askable_dropTrailingSeparators {p : Path} (h : Askable p) :
    Askable (dropTrailingSeparators p) := by
  obtain ⟨n, hn⟩ := exists_replicate_slash p.text.toList
  simp only [dropTrailingSeparators]
  split
  · split
    · exact ⟨by decide, by decide, by decide⟩
    · exact h
  next hkept =>
      have htext : p.text = String.ofList (p.text.toList.reverse.dropWhile (· == '/')).reverse ++
          String.ofList (List.replicate n '/') := by
        rw [← String.ofList_append, ← hn, String.ofList_toList]
      have hshort := h.short
      rw [htext, String.length_append] at hshort
      refine ⟨?_, ?_, by simp only; omega⟩
      · rw [List.isEmpty_iff] at hkept
        simpa using hkept
      · intro hin
        rw [String.toList_ofList] at hin
        exact h.noNul (hn ▸ List.mem_append_left _ hin)

/-- The steps of a path are those without the separators at its end, with or without a stay behind
them; the root alone keeps its separator. -/
theorem stepsOf_dropTrailingSeparators (p : Path) :
    dropTrailingSeparators p = ⟨"/"⟩ ∨
      ∃ last, (last = [] ∨ last = [.stay]) ∧
        stepsOf p.text = stepsOf (dropTrailingSeparators p).text ++ last := by
  rcases dropTrailingSeparators_cases p with hroot | hlast
  · exact Or.inl hroot
  · right
    have hsteps : stepsOf (dropTrailingSeparators p).text = solidSteps p := by
      rw [stepsOf, if_neg hlast, ← solidSteps_dropTrailingSeparators]
      rfl
    rw [hsteps]
    rcases stepsOf_eq p with hlong | hlong
    · exact ⟨[], Or.inl rfl, by rw [hlong, List.append_nil]⟩
    · exact ⟨[.stay], Or.inr rfl, hlong⟩

/-- A path for which a directory is made is one that the system takes. -/
theorem askable_of_makeDir {p : Path} (h : w.makeDir p = .ok w') : Askable p := by
  obtain ⟨parent, name, hresolve, -⟩ := exists_of_makeDir h
  have hask := (resolve_eq_ok.1 hresolve).1
  have hnul : Char.ofNat 0 ∉ p.text.toList :=
    fun hin => hask.noNul (mem_dropTrailingSeparators hin (by decide))
  refine ⟨?_, hnul, ?_⟩
  · intro hempty
    have hdrop : dropTrailingSeparators p = p := by
      obtain ⟨text⟩ := p
      obtain rfl : text = "" := hempty
      decide
    exact hask.nonempty (hdrop.symm ▸ hempty)
  · by_contra hlong
    rw [makeDir, if_pos ⟨Nat.not_lt.1 hlong, hnul⟩] at h
    exact absurd h (by simp)

/-- What is made for a path is what the path leads to from then on. -/
theorem exists_stat_of_makeDir {p : Path} (h : w.makeDir p = .ok w') :
    ∃ loc, w.node? loc = none ∧ w' = w.create loc (.dir w.clock) ∧
      w'.stat p = .ok (loc, .dir w.clock) := by
  obtain ⟨parent, name, hresolve, hcreate⟩ := exists_of_makeDir h
  obtain ⟨hask, hvacant⟩ := resolve_eq_ok.1 hresolve
  have hnode : w'.node? (name :: parent) = some (.dir w.clock) := by
    rw [hcreate, node?_create, if_pos rfl]
  refine ⟨name :: parent, resolve_vacant hresolve, hcreate, stat_eq_ok.2 ⟨?_, hnode⟩⟩
  rcases stepsOf_dropTrailingSeparators p with hroot | ⟨last, hlast, hlong⟩
  · have hstay : stepsOf "/" = [.stay] := by decide
    rw [hroot, hstay] at hvacant
    exact absurd hvacant (by simp [traverse])
  · refine resolve_eq_ok.2 ⟨askable_of_makeDir h, ?_⟩
    rw [isAbsolute_dropTrailingSeparators] at hvacant
    rw [hlong, (makeDir_grown h).cwd]
    exact (makeDir_grown h).resolveFrom_made (isDirAt_iff.2 ⟨_, hnode⟩) hlast linkLimit hvacant

/-- Where a path leads to a directory none is made. -/
theorem makeDir_of_isDir {p : Path} (hdir : w.isDir p = true) :
    w.makeDir p = .error .alreadyExists := by
  obtain ⟨loc, node, hstat, -⟩ := isDir_eq_true_iff.1 hdir
  obtain ⟨hask, htaken⟩ := resolve_eq_ok.1 (stat_eq_ok.1 hstat).1
  have hkept : ∃ found, w.resolve false (dropTrailingSeparators p) = .ok (.taken found) := by
    rcases stepsOf_dropTrailingSeparators p with hroot | ⟨last, -, hlong⟩
    · exact ⟨[], by rw [hroot]; rfl⟩
    · rw [hlong] at htaken
      obtain ⟨found, hfound⟩ := exists_resolveFrom_front linkLimit htaken
      refine ⟨found, resolve_eq_ok.2 ⟨askable_dropTrailingSeparators hask, ?_⟩⟩
      rw [isAbsolute_dropTrailingSeparators]
      exact hfound
  obtain ⟨found, hfound⟩ := hkept
  have hlimit : ¬ (pathLimit ≤ p.text.length ∧ Char.ofNat 0 ∉ p.text.toList) :=
    fun hlong => Nat.not_lt.2 hlong.1 hask.short
  rw [makeDir, if_neg hlimit, hfound]

/-! ### Making chains of directories -/

/-- Some of the paths lead to a directory at a location. -/
def LeadTo (w : World) (paths : List Path) (loc : Location) : Prop :=
  ∃ q ∈ paths, ∃ t, w.stat q = .ok (loc, .dir t)

theorem makeDir_leadTo {p : Path} {paths : List Path} {later : World} (hp : p ∈ paths)
    (h : w.makeDir p = .ok w') (hlater : Grown w' later) :
    Footprint (fun _ => False) (later.LeadTo paths) w w' := by
  obtain ⟨loc, hnone, hcreate, hstat⟩ := exists_stat_of_makeDir h
  rw [hcreate]
  exact create_footprint rfl (Or.inr ⟨hnone, ⟨p, hp, hlater.exists_stat_dir hstat⟩, rfl⟩)

theorem makeEach_leadTo {paths all : List Path} {later : World} (hpaths : paths ⊆ all)
    (hlater : Grown (w.makeEach paths).1 later) :
    Footprint (fun _ => False) (later.LeadTo all) w (w.makeEach paths).1 := by
  induction paths generalizing w with
  | nil => exact Footprint.refl w
  | cons p rest ih =>
      have hrest : rest ⊆ all := fun q hq => hpaths (List.mem_cons_of_mem p hq)
      rw [makeEach] at hlater ⊢
      split
      next w' hmade =>
          rw [hmade] at hlater
          have hgrown : Grown w' later :=
            Trans.trans (makeEach_moves (fun _ _ => makeDir_grown) w') hlater
          exact (makeDir_leadTo (hpaths List.mem_cons_self) hmade hgrown).trans (ih hrest hlater)
      next e hmade =>
          simp only [hmade] at hlater
          split
          next hthere =>
              rw [if_pos hthere] at hlater
              exact ih hrest hlater
          · exact Footprint.refl w

/-- Making a chain of directories makes none but those that the path or one above it leads to. -/
theorem makeDirs_leadTo (w : World) (p : Path) :
    Footprint (fun _ => False) ((w.makeDirs p).1.LeadTo (ancestors p)) w (w.makeDirs p).1 := by
  rw [makeDirs]
  split
  · exact Footprint.refl w
  next w' missing hclimb =>
      obtain ⟨hworld, hleft⟩ := climb_cases hclimb
      have hmissing : missing ⊆ ancestors p := fun q hq =>
        (hleft q hq).resolve_right List.not_mem_nil
      have hgrown : Grown w' (w'.makeEach missing).1 :=
        makeEach_moves (fun _ _ => makeDir_grown) w'
      refine Footprint.trans ?_ (makeEach_leadTo hmissing (Std.Refl.refl _))
      rcases hworld with rfl | ⟨q, hq, hmake⟩
      · exact Footprint.refl w'
      · exact makeDir_leadTo hq hmake hgrown

/-- Where each directory of a list could be made, the paths lead to directories. -/
theorem isDir_of_makeEach {paths : List Path} (h : (w.makeEach paths).2 = .ok ()) :
    ∀ p ∈ paths, (w.makeEach paths).1.isDir p = true := by
  induction paths generalizing w with
  | nil => exact fun p hp => absurd hp List.not_mem_nil
  | cons p rest ih =>
      have hlast : ∀ {w' : World}, w'.isDir p = true → (w'.makeEach rest).2 = .ok () →
          ∀ q ∈ p :: rest, (w'.makeEach rest).1.isDir q = true := by
        intro w' hthere hdone q hq
        rcases List.mem_cons.1 hq with rfl | hq
        · exact Grown.isDir (makeEach_moves (fun _ _ => makeDir_grown) w') hthere
        · exact ih hdone q hq
      rw [makeEach] at h ⊢
      split at h
      next w' hmade =>
          obtain ⟨loc, -, -, hstat⟩ := exists_stat_of_makeDir hmade
          exact hlast (by rw [isDir, hstat]; rfl) h
      next e hmade =>
          split at h
          next hthere =>
              rw [if_pos hthere]
              rw [Bool.and_eq_true] at hthere
              exact hlast hthere.2 h
          · exact absurd h (by simp)

/-- Going up keeps what was left for later. -/
theorem subset_of_climb {up missing left : List Path} (h : w.climb up missing = .ok (w', left)) :
    missing ⊆ left := by
  induction up generalizing missing with
  | nil =>
      cases h
      exact fun q hq => hq
  | cons p rest ih =>
      rw [climb] at h
      split at h
      · cases h
        exact fun q hq => hq
      · split at h
        · cases h
          exact fun q hq => hq
        · exact fun q hq => ih h (List.mem_cons_of_mem p hq)
        · split at h
          · cases h
            exact fun q hq => hq
          · exact absurd h (by simp)

theorem climb_cons_of_error {p : Path} {up missing : List Path} {e : OsError} (hp : p.text ≠ "")
    (hmake : w.makeDir p = .error e) (hfound : e ≠ .notFound) :
    w.climb (p :: up) missing =
      if e = .alreadyExists && w.isDir p then .ok (w, missing) else .error e := by
  have hempty : ¬ p.text.isEmpty = true := by simpa using hp
  rw [climb, if_neg hempty, hmake]
  cases e <;> first | rfl | exact absurd rfl hfound

theorem exists_ancestors_eq_cons (p : Path) : ∃ up, ancestors p = p :: up := by
  rw [ancestors]
  cases p.text.length with
  | zero => exact ⟨[], rfl⟩
  | succ n =>
      rw [ancestors.go]
      cases p.parent? with
      | none => exact ⟨[], rfl⟩
      | some parent => exact ⟨ancestors.go n parent, rfl⟩

/-- If a chain of directories could be made, its path leads to a directory. -/
theorem isDir_of_makeDirs {p : Path} (hp : p.text ≠ "") (h : (w.makeDirs p).2 = .ok ()) :
    (w.makeDirs p).1.isDir p = true := by
  obtain ⟨up, hup⟩ := exists_ancestors_eq_cons p
  rw [makeDirs, hup] at h ⊢
  cases hmake : w.makeDir p with
  | ok w' =>
      obtain ⟨loc, -, -, hstat⟩ := exists_stat_of_makeDir hmake
      have hempty : ¬ p.text.isEmpty = true := by simpa using hp
      rw [climb, if_neg hempty, hmake]
      simp only [makeEach, isDir, hstat, Node.isDir]
  | error e =>
      by_cases hmissing : e = .notFound
      · have hempty : ¬ p.text.isEmpty = true := by simpa using hp
        have hgoes : w.climb (p :: up) [] = w.climb up [p] := by
          rw [climb, if_neg hempty, hmake, hmissing]
        rw [hgoes] at h ⊢
        cases hclimb : w.climb up [p] with
        | error cause => simp [hclimb] at h
        | ok found =>
            rw [hclimb] at h
            exact isDir_of_makeEach h p (subset_of_climb hclimb List.mem_cons_self)
      · rw [climb_cons_of_error hp hmake hmissing] at h ⊢
        by_cases hthere : (decide (e = .alreadyExists) && w.isDir p) = true
        · rw [if_pos hthere]
          rw [Bool.and_eq_true] at hthere
          exact hthere.2
        · rw [if_neg hthere] at h
          exact absurd h (by simp)

theorem makeDirs_of_isDir {p : Path} (hdir : w.isDir p = true) : w.makeDirs p = (w, .ok ()) := by
  obtain ⟨loc, node, hstat, -⟩ := isDir_eq_true_iff.1 hdir
  obtain ⟨up, hup⟩ := exists_ancestors_eq_cons p
  rw [makeDirs, hup, climb_cons_of_error (askable_of_stat hstat).nonempty (makeDir_of_isDir hdir)
    (by simp), hdir]
  rfl

end ClojureBuild.World
