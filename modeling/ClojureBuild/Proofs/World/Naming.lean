import ClojureBuild.Proofs.Path.Spelling
import ClojureBuild.Proofs.World.CurrentDirectory
import ClojureBuild.Proofs.World.Links
import ClojureBuild.Proofs.World.Places
import ClojureBuild.Proofs.World.Times
/-!
Names in the tree, and what they say of texts.

A step down asks for a name, so directories that are made have names.  Main statements: a path that
leads to a file does not end in a separator, and the path of the current directory has nothing that
could be left out.
-/

namespace ClojureBuild.World

variable {w w' : World}

/-! ### Directories that are made -/

/-- A step down asks for a name. -/
theorem isName_of_mem_stepsOf {text name : String} (h : .down name ∈ stepsOf text) :
    Path.IsName name := by
  have hpieces : .down name ∈ (Text.splitString '/' text).filterMap stepOfPiece := by
    unfold stepsOf at h
    split at h
    · simpa using h
    · exact h
  obtain ⟨piece, hpiece, hstep⟩ := List.mem_filterMap.1 hpieces
  obtain ⟨chars, hchars, rfl⟩ := List.mem_map.1 hpiece
  unfold stepOfPiece at hstep
  split at hstep
  · exact absurd hstep (by simp)
  next hempty =>
      split at hstep
      · exact absurd hstep (by simp)
      next hhere =>
          split at hstep
          · exact absurd hstep (by simp)
          next hup =>
              obtain rfl := PathStep.down.inj (Option.some.inj hstep)
              refine ⟨fun heq => hempty ?_, ?_, fun heq => hhere ?_, fun heq => hup ?_⟩
              · exact String.toList_inj.1 heq
              · rw [String.toList_ofList]
                exact Text.not_mem_of_mem_splitOn hchars
              · exact String.toList_inj.1 heq
              · exact String.toList_inj.1 heq

/-- A look-up that ends at a vacant place gives it a name that was asked for. -/
theorem isName_of_traverse {follow : Bool} {jump : Location → List PathStep → Except OsError Spot}
    {parent : Location} {name : String}
    (hjump : ∀ start steps, (∀ n, .down n ∈ steps → Path.IsName n) →
      jump start steps = .ok (.vacant parent name) → Path.IsName name)
    {steps : List PathStep} {loc : Location} (hsteps : ∀ n, .down n ∈ steps → Path.IsName n)
    (h : w.traverse follow jump loc steps = .ok (.vacant parent name)) : Path.IsName name := by
  induction steps generalizing loc with
  | nil => exact absurd h (by simp [traverse])
  | cons step rest ih =>
      have hrest : ∀ n, .down n ∈ rest → Path.IsName n :=
        fun n hn => hsteps n (List.mem_cons_of_mem step hn)
      cases step with
      | stay => exact @ih loc hrest h
      | up => exact @ih loc.tail hrest h
      | down next =>
          rw [traverse] at h
          split at h
          · exact absurd h (by simp)
          · split at h
            · split at h
              · cases h
                exact hsteps _ List.mem_cons_self
              · exact absurd h (by simp)
            · exact ih hrest h
            · split at h <;> exact absurd h (by simp)
            · split at h <;> exact absurd h (by simp)
            next target hnode =>
                split at h
                · exact absurd h (by simp)
                · refine hjump _ _ (fun n hn => ?_) h
                  rcases List.mem_append.1 hn with hn | hn
                  · exact isName_of_mem_stepsOf hn
                  · exact hrest n hn

theorem isName_of_resolveFrom {follow : Bool} {parent : Location} {name : String} (links : Nat)
    {steps : List PathStep} {loc : Location} (hsteps : ∀ n, .down n ∈ steps → Path.IsName n)
    (h : w.resolveFrom follow links loc steps = .ok (.vacant parent name)) : Path.IsName name := by
  induction links generalizing steps loc with
  | zero => exact isName_of_traverse (fun _ _ _ hjump => absurd hjump (by simp)) hsteps h
  | succ links ih => exact isName_of_traverse (fun _ _ hmore hjump => ih hmore hjump) hsteps h

theorem isName_of_resolve {follow : Bool} {p : Path} {parent : Location} {name : String}
    (h : w.resolve follow p = .ok (.vacant parent name)) : Path.IsName name :=
  isName_of_resolveFrom linkLimit (fun _ => isName_of_mem_stepsOf) (resolve_eq_ok.1 h).2

theorem create_named (hnamed : w.Named) {parent : Location} {last : String}
    (hlast : Path.IsName last) (made : Node) : (w.create (last :: parent) made).Named := by
  intro name loc node hnode
  rw [node?_create] at hnode
  split at hnode
  next hplace =>
      obtain ⟨rfl, -⟩ := List.cons.inj hplace
      exact hlast
  · rw [node?_touchDir] at hnode
    split at hnode
    next hdir =>
        obtain ⟨t, ht⟩ := isDirAt_iff.1 hdir.2
        rw [hdir.1] at ht
        exact hnamed name loc _ ht
    · exact hnamed name loc node hnode

theorem makeDir_named {p : Path} (h : w.makeDir p = .ok w') (hnamed : w.Named) : w'.Named := by
  obtain ⟨parent, last, hresolve, rfl⟩ := exists_of_makeDir h
  exact create_named hnamed (isName_of_resolve hresolve) _

theorem makeDirs_named (hnamed : w.Named) (p : Path) : (w.makeDirs p).1.Named := by
  have : IsPreorder World fun w w' => w.Named → w'.Named :=
    { refl := fun _ h => h
      trans := fun _ _ _ hfirst hnext h => hnext (hfirst h) }
  exact @makeDirs_moves (fun w w' => w.Named → w'.Named) this p (fun _ _ => makeDir_named) w hnamed

theorem put_named (hnamed : w.Named) {place : Location} {node node' : Node}
    (hplace : w.node? place = some node') : (w.put place node).Named := by
  intro name loc found hfound
  rw [node?_put] at hfound
  split at hfound
  next hsame => exact hnamed name loc node' (hsame ▸ hplace)
  · exact hnamed name loc found hfound

/-- A file that is created or written over has a name. -/
theorem store_named (hnamed : w.Named) {spot : Spot}
    (hspot : ∀ parent name, spot = .vacant parent name → Path.IsName name) (content : ByteArray)
    (x : Option Bool) : (w.store spot content x).Named := by
  cases spot with
  | vacant parent name => exact create_named hnamed (hspot parent name rfl) _
  | taken loc =>
      rw [store]
      split
      next hnode => exact put_named hnamed hnode
      · exact hnamed

theorem copyFile_named (hnamed : w.Named) (source target : Path) :
    (w.copyFile source target).1.Named := by
  rcases copyFile_cases with ⟨hsame, -⟩ | ⟨spot, content, x, hspot, hcopied⟩
  · rwa [hsame]
  · have hname : ∀ parent name, spot = .vacant parent name → Path.IsName name := by
      rintro parent name rfl
      exact isName_of_resolve (resolve_of_openForWriting hspot)
    rw [hcopied]
    exact store_named (store_named hnamed hname _ _) (fun _ _ htaken => absurd htaken (by simp)) _ _

/-! ### The current directory -/

theorem Standing.names (hstanding : w.Standing) (hnamed : w.Named) :
    ∀ name ∈ w.cwd, Path.IsName name := by
  intro name hname
  obtain ⟨front, back, hcwd⟩ := List.append_of_mem hname
  obtain ⟨t, ht⟩ := isDirAt_iff.1 (hstanding (name :: back) (hcwd ▸ List.suffix_append _ _))
  exact hnamed name back _ ht

/-- The path of the current directory has nothing that could be left out. -/
theorem plain_cwdPath (hnames : ∀ name ∈ w.cwd, Path.IsName name) : w.cwdPath.Plain := by
  by_cases hroot : w.cwd = []
  · rw [cwdPath, hroot]
    exact ⟨by decide, by decide⟩
  · obtain ⟨name, up, hcwd⟩ := List.exists_cons_of_ne_nil hroot
    have hall : ∀ n ∈ w.cwd.reverse, Path.IsName n := fun n hn => hnames n (List.mem_reverse.1 hn)
    obtain ⟨hhead, hpieces⟩ :=
      Path.head_pieces_descend ⟨"/"⟩ (List.reverse_ne_nil_iff.2 hroot) hall
    have hfront : w.cwdPath.front = w.cwdPath.pieces := by
      rw [cwdPath, textOf_eq_descend hnames, hcwd, List.reverse_cons, Path.descend_concat]
      exact Path.front_div _ (hnames name (by rw [hcwd]; exact List.mem_cons_self))
    rw [← textOf_eq_descend hnames] at hhead hpieces
    refine ⟨hhead, ?_⟩
    rw [hfront, cwdPath, hpieces, List.filter_append, Path.filter_significant_names hall]
    rfl

/-! ### Paths of files -/

/-- A look-up that asks for a directory at its end ends at one, if its start is one. -/
theorem isDirAt_of_traverse_stay {jump : Location → List PathStep → Except OsError Spot}
    {found : Location}
    (hjump : ∀ start steps, (∀ up, up <:+ start → w.isDirAt up = true) →
      jump start (steps ++ [.stay]) = .ok (.taken found) → w.isDirAt found = true)
    {steps : List PathStep} {loc : Location} (hstart : ∀ up, up <:+ loc → w.isDirAt up = true)
    (h : w.traverse true jump loc (steps ++ [.stay]) = .ok (.taken found)) :
    w.isDirAt found = true := by
  induction steps generalizing loc with
  | nil =>
      obtain rfl : loc = found := Spot.taken.inj (Except.ok.inj h)
      exact hstart loc List.suffix_rfl
  | cons step rest ih =>
      cases step with
      | stay => exact ih hstart h
      | up => exact ih (fun up hup => hstart up (hup.trans (List.tail_suffix loc))) h
      | down name =>
          rw [List.cons_append, traverse] at h
          split at h
          · exact absurd h (by simp)
          · split at h
            · split at h <;> exact absurd h (by simp)
            next t hnode =>
                refine ih (fun up hup => ?_) h
                rcases List.suffix_cons_iff.1 hup with rfl | hup
                · exact isDirAt_iff.2 ⟨t, hnode⟩
                · exact hstart up hup
            · exact absurd h (by simp)
            · exact absurd h (by simp)
            · simp only [Bool.not_true, Bool.and_false, Bool.false_eq_true, ↓reduceIte,
                ← List.append_assoc] at h
              refine hjump _ _ (fun up hup => ?_) h
              split at hup
              · exact hstart up (hup.trans List.nil_suffix)
              · exact hstart up hup

theorem isDirAt_of_resolveFrom_stay (links : Nat) {steps : List PathStep} {loc found : Location}
    (hstart : ∀ up, up <:+ loc → w.isDirAt up = true)
    (h : w.resolveFrom true links loc (steps ++ [.stay]) = .ok (.taken found)) :
    w.isDirAt found = true := by
  induction links generalizing steps loc with
  | zero => exact isDirAt_of_traverse_stay (fun _ _ _ hjump => absurd hjump (by simp)) hstart h
  | succ links ih => exact isDirAt_of_traverse_stay (fun _ _ hup hjump => ih hup hjump) hstart h

/-- A path that leads to a file does not end in a separator. -/
theorem getLast?_of_isFile (hstanding : w.Standing) {p : Path} (h : w.isFile p = true) :
    p.text.toList.getLast? ≠ some '/' := by
  intro hlast
  obtain ⟨loc, node, hstat, hfile⟩ := isFile_eq_true_iff.1 h
  obtain ⟨hresolve, hnode⟩ := stat_eq_ok.1 hstat
  have hfound := (resolve_eq_ok.1 hresolve).2
  rw [stepsOf, if_pos hlast] at hfound
  obtain ⟨t, ht⟩ :=
    isDirAt_iff.1 (isDirAt_of_resolveFrom_stay linkLimit (hstanding.start p) hfound)
  rw [ht] at hnode
  cases hnode
  exact absurd hfile (by simp [Node.isFile])

theorem exists_descend_of_isDir (hnamed : w.Named) {all : Bool} {root p : Path}
    (hdir : w.isDir root = true) (h : p ∈ w.filesUnder all root) :
    ∃ names, names ≠ [] ∧ (∀ name ∈ names, Path.IsName name) ∧ p = root.descend names := by
  rcases mem_filesUnder_cases h with ⟨loc, t, -, hwalk⟩ | ⟨hfile, -⟩
  · exact exists_descend_of_mem_walkDir hnamed hwalk
  · exact absurd (isDir_of_isFile hfile) (by simp [hdir])

theorem getLast?_of_descend (p : Path) {names : List String} (hne : names ≠ [])
    (hnames : ∀ name ∈ names, Path.IsName name) :
    (p.descend names).text.toList.getLast? ≠ some '/' := by
  obtain ⟨front, last, rfl⟩ := (List.eq_nil_or_concat names).resolve_left hne
  rw [List.concat_eq_append] at hnames ⊢
  rw [Path.descend_concat]
  apply Path.getLast?_of_gap
  rw [Path.gap_div _ (hnames last (by simp))]
  exact List.cons_ne_nil _ _

end ClojureBuild.World
