import ClojureBuild.Proofs.World.Absolute
/-!
What the current directory decides.

An absolute path leads to the same place from every directory, and has the same absolute form there.
Any other path has a different absolute form in each.  The directories above the current one are
those that its own names spell.
-/

namespace ClojureBuild

theorem Path.absolute?_of_isAbsolute {p : Path} (hp : p.isAbsolute = true) (cwd cwd' : Path) :
    Path.absolute? cwd p = Path.absolute? cwd' p := by
  obtain ⟨rest, hrest⟩ := List.head?_eq_some_iff.1 (eq_of_beq hp)
  unfold Path.absolute?
  rw [hrest]
  rcases rest with - | ⟨c, rest⟩
  · rfl
  · by_cases hc : c = '/'
    · subst hc
      rcases rest with - | ⟨c', rest⟩
      · rfl
      · by_cases hc' : c' = '/'
        · subst hc'
          rfl
        · simp [hc']
    · simp [hc]

theorem Path.isAbsolute_join_of_left {p : Path} (hp : p.isAbsolute = true) (q : Path) :
    (p.join q).isAbsolute = true := by
  by_cases hq : q.text.toList.head? = some '/'
  · rw [Path.isAbsolute, Path.join, Path.joinChars, if_pos hq, String.toList_ofList, hq]
    rfl
  · rw [World.isAbsolute_join p hq, hp]

theorem Path.isAbsolute_div_of_left {p : Path} (hp : p.isAbsolute = true) (text : String) :
    (p / text).isAbsolute = true :=
  Path.isAbsolute_join_of_left hp ⟨text⟩

/-- A descent through relative pieces is absolute exactly when its start is. -/
theorem Path.isAbsolute_foldl {segments : List String} (p : Path)
    (hsegments : ∀ segment ∈ segments, '/' ∉ segment.toList) :
    (segments.foldl (fun q segment => q / segment) p).isAbsolute = p.isAbsolute := by
  induction segments generalizing p with
  | nil => rfl
  | cons segment rest ih =>
      obtain ⟨hsegment, hrest⟩ := List.forall_mem_cons.1 hsegments
      have hrelative : segment.toList.head? ≠ some '/' :=
        fun hhead => hsegment (List.mem_of_mem_head? hhead)
      exact (ih (p / segment) hrest).trans (World.isAbsolute_join p hrelative)

namespace World

variable {w : World} {loc loc' : Location} {p : Path}

/-- The world with another current directory. -/
def enter (w : World) (loc : Location) : World := { w with cwd := loc }

/-! ### Absolute paths -/

theorem traverse_enter (follow : Bool) {jump jump' : Location → List PathStep → Except OsError Spot}
    (hjump : ∀ start steps, jump' start steps = jump start steps) (start : Location)
    (steps : List PathStep) :
    (w.enter loc).traverse follow jump' start steps = w.traverse follow jump start steps := by
  induction steps generalizing start with
  | nil => rfl
  | cons step rest ih =>
      cases step with
      | stay => exact ih start
      | up => exact ih start.tail
      | down name =>
          simp only [traverse, ih, hjump]
          rfl

theorem resolveFrom_enter (follow : Bool) (links : Nat) (start : Location)
    (steps : List PathStep) :
    (w.enter loc).resolveFrom follow links start steps =
      w.resolveFrom follow links start steps := by
  induction links generalizing start steps with
  | zero => exact traverse_enter follow (fun _ _ => rfl) start steps
  | succ links ih => exact traverse_enter follow ih start steps

theorem resolve_enter (loc : Location) (follow : Bool) (hp : p.isAbsolute = true) :
    (w.enter loc).resolve follow p = w.resolve follow p := by
  simp only [resolve, hp, resolveFrom_enter, if_true]

theorem stat_enter (loc : Location) (hp : p.isAbsolute = true) :
    (w.enter loc).stat p = w.stat p := by
  rw [stat, stat, resolve_enter loc true hp]
  rfl

theorem pathExists_enter (loc : Location) (hp : p.isAbsolute = true) :
    (w.enter loc).pathExists p = w.pathExists p := by
  rw [pathExists, pathExists, stat_enter loc hp]

theorem isDir_enter (loc : Location) (hp : p.isAbsolute = true) :
    (w.enter loc).isDir p = w.isDir p := by
  rw [isDir, isDir, stat_enter loc hp]

theorem isFile_enter (loc : Location) (hp : p.isAbsolute = true) :
    (w.enter loc).isFile p = w.isFile p := by
  rw [isFile, isFile, stat_enter loc hp]

theorem readText_enter (loc : Location) (hp : p.isAbsolute = true) :
    (w.enter loc).readText p = w.readText p := by
  rw [readText, readText, readFile, readFile, stat_enter loc hp]

/-! ### Absolute forms -/

/-- A path that is not absolute has another absolute form in every directory. -/
theorem eq_of_absolute? (hnames : ∀ name ∈ loc, Path.IsName name)
    (hnames' : ∀ name ∈ loc', Path.IsName name) (hp : p.isAbsolute = false) {q : Path}
    (h : Path.absolute? (w.enter loc).cwdPath p = some q)
    (h' : Path.absolute? (w.enter loc').cwdPath p = some q) : loc = loc' := by
  obtain ⟨start, -, hsteps, hbegins⟩ := exists_of_absolute? h
  obtain ⟨start', -, hsteps', hbegins'⟩ := exists_of_absolute? h'
  rw [if_neg (by simp [hp])] at hbegins hbegins'
  subst hbegins hbegins'
  rw [hsteps, solidSteps_cwdPath hnames, solidSteps_cwdPath hnames'] at hsteps'
  have hdown := List.append_cancel_right hsteps'
  exact List.reverse_inj.1 ((List.map_inj_right fun _ _ h => PathStep.down.inj h).1 hdown)

/-- Seen from two directories a path has the same absolute form only if it is absolute itself, or
has none. -/
theorem absolutePath_enter_eq_iff (hnames : ∀ name ∈ loc, Path.IsName name)
    (hnames' : ∀ name ∈ loc', Path.IsName name) :
    absolutePath (w.enter loc) p = absolutePath (w.enter loc') p ↔
      loc = loc' ∨ p.isAbsolute = true ∨ p.text = "" := by
  constructor
  · intro h
    rcases Bool.eq_false_or_eq_true p.isAbsolute with habsolute | hrelative
    · exact Or.inr (Or.inl habsolute)
    · cases hform : Path.absolute? (w.enter loc).cwdPath p with
      | none =>
          rw [Path.absolute?] at hform
          split at hform
          next hempty => exact Or.inr (Or.inr (String.isEmpty_iff.1 hempty))
          · exact absurd hform (by simp)
      | some q =>
          have hform' := absolutePath_eq_ok_iff.1 (h ▸ absolutePath_eq_ok_iff.2 hform)
          exact Or.inl (eq_of_absolute? hnames hnames' hrelative hform hform')
  · rintro (rfl | habsolute | hempty)
    · rfl
    · rw [absolutePath, absolutePath, Path.absolute?_of_isAbsolute habsolute]
    · have hnone : ∀ cwd, Path.absolute? cwd p = none := by
        intro cwd
        rw [Path.absolute?, if_pos (String.isEmpty_iff.2 hempty)]
      rw [absolutePath, absolutePath, hnone, hnone]

/-! ### The directories above -/

theorem isAbsolute_textOf (loc : Location) : (⟨textOf loc⟩ : Path).isAbsolute = true :=
  isAbsolute_cwdPath (enter default loc)

/-- The text of a location goes down from the root through its names. -/
theorem textOf_eq_descend (hnames : ∀ name ∈ loc, Path.IsName name) :
    (⟨textOf loc⟩ : Path) = (⟨"/"⟩ : Path).descend loc.reverse := by
  induction loc with
  | nil => rfl
  | cons name up ih =>
      obtain ⟨hname, hup⟩ := List.forall_mem_cons.1 hnames
      replace ih := ih hup
      have hgap : Path.gap (textOf up).toList = if up = [] then [] else ['/'] := by
        cases up with
        | nil => decide
        | cons last rest =>
            rw [List.reverse_cons, Path.descend_concat] at ih
            have hends := Path.gap_div ((⟨"/"⟩ : Path).descend rest.reverse)
              (hup last List.mem_cons_self)
            rwa [← ih] at hends
      have htext : (textOf (name :: up)).toList =
          ((⟨textOf up⟩ : Path) / name).text.toList := by
        rw [Path.text_div, Path.joinChars_of_relative _ hname.relative, hgap,
          toList_textOf (List.cons_ne_nil name up)]
        by_cases hroot : up = []
        · subst hroot
          simp [textOf]
        · rw [toList_textOf hroot, if_neg hroot]
          simp
      rw [List.reverse_cons, Path.descend_concat, ← ih]
      exact congrArg Path.mk (String.toList_inj.1 htext)

theorem parent?_textOf_cons {name : String} (hnames : ∀ n ∈ name :: loc, Path.IsName n) :
    (⟨textOf (name :: loc)⟩ : Path).parent? = some ⟨textOf loc⟩ := by
  obtain ⟨hname, hup⟩ := List.forall_mem_cons.1 hnames
  rw [textOf_eq_descend hnames, textOf_eq_descend hup, List.reverse_cons]
  exact Path.parent?_descend_concat (by decide) (by decide)
    (fun n hn => hup n (List.mem_reverse.1 hn)) hname

theorem length_le_textOf (loc : Location) : loc.length ≤ (textOf loc).length := by
  have hlength : ∀ names : List String,
      names.length ≤ (names.flatMap fun name => '/' :: name.toList).length := by
    intro names
    induction names with
    | nil => exact Nat.le_refl 0
    | cons name rest ih =>
        rw [List.flatMap_cons, List.length_append, List.length_cons, List.length_cons]
        omega
  by_cases hroot : loc = []
  · rw [hroot]
    exact Nat.zero_le _
  · rw [← String.length_toList, toList_textOf hroot, ← List.length_reverse]
    exact hlength loc.reverse

/-- Above a location are those that its names spell, up to the root. -/
theorem ancestors_textOf (hnames : ∀ name ∈ loc, Path.IsName name) :
    ancestors ⟨textOf loc⟩ = loc.tails.map fun up => ⟨textOf up⟩ := by
  have hgo : ∀ n, loc.length ≤ n →
      ancestors.go n ⟨textOf loc⟩ = loc.tails.map fun up => ⟨textOf up⟩ := by
    induction loc with
    | nil =>
        intro n _
        cases n <;> rfl
    | cons name up ih =>
        intro n hn
        obtain ⟨n, rfl⟩ := Nat.exists_eq_add_one_of_ne_zero (Nat.ne_zero_of_lt hn)
        rw [ancestors.go, parent?_textOf_cons hnames]
        exact congrArg (_ :: ·) (ih (List.forall_mem_cons.1 hnames).2 n (Nat.le_of_succ_le_succ hn))
  exact hgo _ (length_le_textOf loc)

end World

end ClojureBuild
