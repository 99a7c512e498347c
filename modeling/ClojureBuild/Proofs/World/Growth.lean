import ClojureBuild.Proofs.World.Links
import ClojureBuild.Proofs.World.Places
/-!
Worlds that grow by directories.

Making directories adds them where nothing stood and changes nothing else but times.  Main
statements: in a world that grew, a path still leads where it led, through whatever links, and a
walk still shows what it showed, though it may show more.
-/

namespace ClojureBuild.World

variable {w w' : World}

/-- Directories were made where nothing stood, and directories were touched. -/
def Grown (w w' : World) : Prop := Footprint (fun _ => False) (fun _ => True) w w'

instance : IsPreorder World Grown where
  refl := Footprint.refl
  trans _ _ _ := Footprint.trans

namespace Grown

theorem isDirAt {loc : Location} (h : Grown w w') (hdir : w.isDirAt loc = true) :
    w'.isDirAt loc = true :=
  Footprint.isDirAt h not_false hdir

theorem node?_eq {loc : Location} {node : Node} (h : Grown w w')
    (hnode : w.node? loc = some node) (hdir : node.isDir = false) : w'.node? loc = some node := by
  rw [← hnode]
  refine Footprint.node?_eq h not_false ?_ fun _ => ?_
  · rw [World.isDirAt, hnode]
    exact hdir
  · rw [hnode]
    simp

/-- What stood still stands; a directory may have another time. -/
theorem exists_node? {loc : Location} {node : Node} (h : Grown w w')
    (hnode : w.node? loc = some node) :
    ∃ node', w'.node? loc = some node' ∧
      (node' = node ∨ node.isDir = true ∧ node'.isDir = true) := by
  cases hdir : node.isDir with
  | false => exact ⟨node, h.node?_eq hnode hdir, Or.inl rfl⟩
  | true =>
      have hwas : w.isDirAt loc = true := by
        rw [World.isDirAt, hnode]
        exact hdir
      obtain ⟨t, ht⟩ := isDirAt_iff.1 (h.isDirAt hwas)
      exact ⟨.dir t, ht, Or.inr ⟨rfl, rfl⟩⟩

/-! ### Looking up -/

section

variable {follow : Bool} {jump jump' : Location → List PathStep → Except OsError Spot}

/-- A look-up that ends at something ends there also when the world has grown. -/
theorem traverse_taken (h : Grown w w')
    (hjump : ∀ start steps found, jump start steps = .ok (.taken found) →
      jump' start steps = .ok (.taken found))
    {steps : List PathStep} {loc found : Location}
    (hfound : w.traverse follow jump loc steps = .ok (.taken found)) :
    w'.traverse follow jump' loc steps = .ok (.taken found) := by
  induction steps generalizing loc with
  | nil =>
      cases hfound
      rfl
  | cons step rest ih =>
      cases step with
      | stay => exact @ih loc hfound
      | up => exact @ih loc.tail hfound
      | down name =>
          rw [traverse] at hfound ⊢
          split at hfound
          · exact absurd hfound (by simp)
          next hname =>
              rw [if_neg hname]
              cases hnode : w.node? (name :: loc) with
              | none =>
                  simp only [hnode] at hfound
                  split at hfound <;> exact absurd hfound (by simp)
              | some node =>
                  rw [hnode] at hfound
                  cases node with
                  | dir t =>
                      obtain ⟨t', ht'⟩ := isDirAt_iff.1 (h.isDirAt (isDirAt_iff.2 ⟨t, hnode⟩))
                      rw [ht']
                      exact ih hfound
                  | file content t x =>
                      rw [h.node?_eq hnode rfl]
                      exact hfound
                  | device t =>
                      rw [h.node?_eq hnode rfl]
                      exact hfound
                  | link target =>
                      rw [h.node?_eq hnode rfl]
                      simp only at hfound ⊢
                      split at hfound
                      next hend => rw [if_pos hend, hfound]
                      next hend =>
                          rw [if_neg hend]
                          exact hjump _ _ _ hfound

end

theorem resolveFrom_taken (h : Grown w w') {follow : Bool} (links : Nat) {steps : List PathStep}
    {loc found : Location} (hfound : w.resolveFrom follow links loc steps = .ok (.taken found)) :
    w'.resolveFrom follow links loc steps = .ok (.taken found) := by
  induction links generalizing steps loc found with
  | zero => exact h.traverse_taken (fun _ _ _ hjump => absurd hjump (by simp)) hfound
  | succ links ih => exact h.traverse_taken (fun _ _ _ hjump => ih hjump) hfound

theorem resolve_taken (h : Grown w w') {follow : Bool} {p : Path} {found : Location}
    (hfound : w.resolve follow p = .ok (.taken found)) :
    w'.resolve follow p = .ok (.taken found) := by
  obtain ⟨hask, hsteps⟩ := resolve_eq_ok.1 hfound
  refine resolve_eq_ok.2 ⟨hask, ?_⟩
  rw [h.cwd]
  exact h.resolveFrom_taken linkLimit hsteps

theorem exists_stat (h : Grown w w') {p : Path} {loc : Location} {node : Node}
    (hstat : w.stat p = .ok (loc, node)) :
    ∃ node', w'.stat p = .ok (loc, node') ∧
      (node' = node ∨ node.isDir = true ∧ node'.isDir = true) := by
  obtain ⟨hresolve, hnode⟩ := stat_eq_ok.1 hstat
  obtain ⟨node', hnode', hkind⟩ := h.exists_node? hnode
  exact ⟨node', stat_eq_ok.2 ⟨h.resolve_taken hresolve, hnode'⟩, hkind⟩

theorem exists_stat_dir (h : Grown w w') {p : Path} {loc : Location} {t : Int}
    (hstat : w.stat p = .ok (loc, .dir t)) : ∃ t', w'.stat p = .ok (loc, .dir t') := by
  obtain ⟨node', hstat', rfl | ⟨-, hdir⟩⟩ := h.exists_stat hstat
  · exact ⟨t, hstat'⟩
  · cases node' with
    | dir t' => exact ⟨t', hstat'⟩
    | file content t' x => exact absurd hdir (by simp [Node.isDir])
    | link target => exact absurd hdir (by simp [Node.isDir])
    | device t' => exact absurd hdir (by simp [Node.isDir])

theorem stat_file (h : Grown w w') {p : Path} {loc : Location} {node : Node}
    (hstat : w.stat p = .ok (loc, node)) (hfile : node.isDir = false) :
    w'.stat p = .ok (loc, node) := by
  obtain ⟨node', hstat', rfl | ⟨hdir, -⟩⟩ := h.exists_stat hstat
  · exact hstat'
  · rw [hfile] at hdir
    exact absurd hdir (by simp)

theorem isDir (h : Grown w w') {p : Path} (hdir : w.isDir p = true) : w'.isDir p = true := by
  obtain ⟨loc, node, hstat, hnode⟩ := isDir_eq_true_iff.1 hdir
  obtain ⟨node', hstat', rfl | ⟨-, hnode'⟩⟩ := h.exists_stat hstat
  · exact isDir_eq_true_iff.2 ⟨loc, node', hstat', hnode⟩
  · exact isDir_eq_true_iff.2 ⟨loc, node', hstat', hnode'⟩

end Grown

/-! ### What a walk shows -/

theorem exists_of_isFile {node : Node} (h : node.isFile = true) :
    ∃ content t x, node = .file content t x := by
  cases node with
  | file content t x => exact ⟨content, t, x, rfl⟩
  | dir t => exact absurd h (by simp [Node.isFile])
  | link target => exact absurd h (by simp [Node.isFile])
  | device t => exact absurd h (by simp [Node.isFile])

/-- A walk shows a file below a directory that it can open: it stands there, itself or through a
link, or below a directory there that the walk enters. -/
theorem file_mem_walkDir_iff {all : Bool} {way : List (Location × Path)} {path p : Path}
    {loc : Location} :
    .file p ∈ w.walkDir all way path loc ↔
      (∃ found, w.stat path = .ok found) ∧
      ∃ name node, (!all && isHidden name) = false ∧ w.node? (name :: loc) = some node ∧
        ((node.isFile = true ∧ p = path / name) ∨
          (∃ t, node = .dir t ∧
            .file p ∈ w.walkDir all ((name :: loc, path / name) :: way) (path / name)
              (name :: loc)) ∨
          ∃ link place found, node = .link link ∧ w.stat (path / name) = .ok (place, found) ∧
            ((found.isFile = true ∧ p = path / name) ∨
              ∃ t, found = .dir t ∧ way.find? (fun entry => entry.1 == place) = none ∧
                .file p ∈ w.walkDir all ((place, path / name) :: way) (path / name) place)) := by
  have hif : ∀ {passed : Bool} {q : Path} {shown : List Sighting},
      .file p ∈ (if passed then [.hidden q] else shown) ↔ passed = false ∧ .file p ∈ shown := by
    intro passed q shown
    cases passed <;> simp
  have hfile : ∀ {q : Path}, Sighting.file p ∈ [Sighting.file q] ↔ p = q := by simp
  constructor
  · intro h
    obtain ⟨opened, hopened⟩ := exists_stat_of_file_mem_walkDir h
    rw [walkDir, hopened] at h
    obtain ⟨name, -, h⟩ := List.mem_flatMap.1 h
    refine ⟨⟨opened, hopened⟩, name, ?_⟩
    simp only at h
    split at h
    · exact absurd h (by simp)
    next hnode =>
        obtain ⟨hpassed, h⟩ := hif.1 h
        exact ⟨_, hpassed, hnode, Or.inl ⟨rfl, hfile.1 h⟩⟩
    next hnode => exact absurd (hif.1 h).2 (by simp)
    next t hnode =>
        obtain ⟨hpassed, h⟩ := hif.1 h
        exact ⟨_, hpassed, hnode, Or.inr (Or.inl ⟨t, rfl, h⟩)⟩
    next link hnode =>
        split at h
        · exact absurd h (by simp)
        next place content t x hstat =>
            obtain ⟨hpassed, h⟩ := hif.1 h
            exact ⟨_, hpassed, hnode,
              Or.inr (Or.inr ⟨link, place, _, rfl, hstat, Or.inl ⟨rfl, hfile.1 h⟩⟩)⟩
        · exact absurd (hif.1 h).2 (by simp)
        · exact absurd h (by simp)
        next place t hstat =>
            split at h
            · exact absurd h (by simp)
            next hway =>
                obtain ⟨hpassed, h⟩ := hif.1 h
                exact ⟨_, hpassed, hnode,
                  Or.inr (Or.inr ⟨link, place, _, rfl, hstat, Or.inr ⟨t, rfl, hway, h⟩⟩)⟩
  · rintro ⟨⟨opened, hopened⟩, name, node, hpassed, hnode, hcases⟩
    rw [walkDir, hopened]
    refine List.mem_flatMap.2 ⟨name, mem_childNames.2 ⟨node, hnode⟩, ?_⟩
    simp only [hpassed]
    rcases hcases with ⟨hnodeFile, rfl⟩ | ⟨t, rfl, h⟩ | ⟨link, place, found, rfl, hstat, hfound⟩
    · obtain ⟨content, t, x, rfl⟩ := exists_of_isFile hnodeFile
      split <;> simp_all
    · split <;> simp_all
    · split
      case h_5 =>
        rcases hfound with ⟨hfoundFile, rfl⟩ | ⟨t, rfl, hway, h⟩
        · obtain ⟨content, t, x, rfl⟩ := exists_of_isFile hfoundFile
          split <;> simp_all
        · split
          case h_5 hstat' =>
            rw [hstat] at hstat'
            cases hstat'
            split
            next hloop => exact absurd (hway.symm.trans hloop) (by simp)
            next => exact h
          all_goals simp_all
      all_goals simp_all

/-- A walk still shows what it showed. -/
theorem Grown.file_mem_walkDir (h : Grown w w') {all : Bool} {way : List (Location × Path)}
    {path p : Path} {loc : Location} (hp : .file p ∈ w.walkDir all way path loc) :
    .file p ∈ w'.walkDir all way path loc := by
  induction way, path, loc using walkDir.induct w with
  | case1 way path loc cause hfails => exact absurd hp (not_file_mem_walkDir_of_error hfails)
  | case2 way path loc found hopens ihdir ihlink =>
      obtain ⟨-, name, node, hpassed, hnode, hcases⟩ := file_mem_walkDir_iff.1 hp
      obtain ⟨node', hopens', -⟩ := h.exists_stat hopens
      rcases hcases with ⟨hfile, rfl⟩ | ⟨t, rfl, hbelow⟩ |
        ⟨link, place, found, rfl, hstat, hfound⟩
      · obtain ⟨content, t, x, rfl⟩ := exists_of_isFile hfile
        have hnode' := h.node?_eq hnode rfl
        exact file_mem_walkDir_iff.2 ⟨⟨_, hopens'⟩, name, _, hpassed, hnode', Or.inl ⟨hfile, rfl⟩⟩
      · obtain ⟨t', ht'⟩ := isDirAt_iff.1 (h.isDirAt (isDirAt_iff.2 ⟨t, hnode⟩))
        exact file_mem_walkDir_iff.2 ⟨⟨_, hopens'⟩, name, _, hpassed, ht',
          Or.inr (Or.inl ⟨t', rfl, ihdir name t hnode hbelow⟩)⟩
      · have hnode' := h.node?_eq hnode rfl
        rcases hfound with ⟨hfile, rfl⟩ | ⟨t, rfl, hway, hbelow⟩
        · obtain ⟨content, t, x, rfl⟩ := exists_of_isFile hfile
          have hstat' := h.stat_file hstat rfl
          exact file_mem_walkDir_iff.2 ⟨⟨_, hopens'⟩, name, _, hpassed, hnode',
            Or.inr (Or.inr ⟨link, place, _, rfl, hstat', Or.inl ⟨hfile, rfl⟩⟩)⟩
        · obtain ⟨t', hstat'⟩ := h.exists_stat_dir hstat
          exact file_mem_walkDir_iff.2 ⟨⟨_, hopens'⟩, name, _, hpassed, hnode',
            Or.inr (Or.inr ⟨link, place, _, rfl, hstat',
              Or.inr ⟨t', rfl, hway, ihlink name place t hstat hway hbelow⟩⟩)⟩

theorem Grown.mem_filesUnder (h : Grown w w') {all : Bool} {root p : Path}
    (hp : p ∈ w.filesUnder all root) : p ∈ w'.filesUnder all root := by
  rw [mem_filesUnder_iff_walk, walk, List.mem_cons] at hp ⊢
  replace hp := hp.resolve_left (by simp)
  right
  split at hp
  · exact absurd hp (by simp)
  next hplace =>
      rw [if_neg hplace]
      cases hstat : w.stat root with
      | error cause => simp [hstat] at hp
      | ok found =>
          obtain ⟨loc, node⟩ := found
          rw [hstat] at hp
          cases node with
          | dir t =>
              obtain ⟨t', hstat'⟩ := h.exists_stat_dir hstat
              rw [hstat']
              exact h.file_mem_walkDir hp
          | file content t x =>
              rw [h.stat_file hstat rfl]
              exact hp
          | link target => exact absurd hp (by simp)
          | device t => exact absurd hp (by simp)

end ClojureBuild.World
