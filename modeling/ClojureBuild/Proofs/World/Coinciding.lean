import ClojureBuild.Proofs.Path.Spelling
import ClojureBuild.Proofs.World.Absolute
/-!
Paths with one absolute form.

The absolute form of a path has the components of the path, seen from the current directory.  Main
statements: two descents through the same names coincide exactly when their starts do, and two
directories that coincide have the same files below them.
-/

namespace ClojureBuild

namespace Path

/-- The components of a path as they are seen from a directory. -/
def seenFrom (cwd : List Component) : List Component → List Component
  | .root :: rest => .root :: rest
  | .here :: rest => cwd ++ rest
  | rest => cwd ++ rest

theorem seenFrom_append (cwd : List Component) {components : List Component}
    (hne : components ≠ []) (more : List Component) :
    seenFrom cwd (components ++ more) = seenFrom cwd components ++ more := by
  cases components with
  | nil => exact absurd rfl hne
  | cons first rest => cases first <;> simp [seenFrom]

theorem seenFrom_pieces (cwd : List Component) (pieces : List (List Char)) :
    seenFrom cwd (pieces.map componentOfPiece) = cwd ++ pieces.map componentOfPiece := by
  cases pieces with
  | nil => rfl
  | cons piece rest =>
      rw [List.map_cons, componentOfPiece]
      split <;> rfl

/-- Joining pieces that name something adds their components. -/
theorem components_foldl_join (start : Path) {pieces : List (List Char)}
    (h : ∀ piece ∈ pieces, significant piece = true ∧ '/' ∉ piece) {whole : Path}
    (hwhole : whole = (pieces.map String.ofList).foldl (fun q s => q.join ⟨s⟩) start) :
    whole.components = start.components ++ pieces.map componentOfPiece := by
  induction pieces generalizing start with
  | nil =>
      rw [hwhole]
      exact (List.append_nil _).symm
  | cons piece rest ih =>
      obtain ⟨⟨hpiece, hslash⟩, hrest⟩ := List.forall_mem_cons.1 h
      have hnotHere : piece ≠ ['.'] := by
        rintro rfl
        exact absurd hpiece (by decide)
      have hsplit : splitHead (String.ofList piece).toList = (.bare, piece) := by
        rw [String.toList_ofList, splitHead_of_relative hslash hnotHere]
      have hhead : (⟨String.ofList piece⟩ : Path).head = .bare := congrArg Prod.fst hsplit
      have hone : (⟨String.ofList piece⟩ : Path).components = [componentOfPiece piece] := by
        rw [components_eq, hhead, pieces, hsplit, Text.splitOn_of_not_mem hslash,
          List.filter_cons_of_pos hpiece]
        rfl
      rw [ih _ hrest hwhole, components_join start hhead, hone, List.append_assoc]
      rfl

/-- The absolute form of a path has its components, seen from the current directory. -/
theorem components_absolute? {cwd p q : Path} (h : absolute? cwd p = some q) :
    q.components = seenFrom cwd.components p.components := by
  obtain ⟨start, whole, hwhole, hend, hbegins⟩ := World.exists_start_of_absolute? h
  have hpieces := fun piece => @significant_of_mem_filter p piece
  have hjoined := components_foldl_join start hpieces hwhole
  have hq : q.components = whole.components := by
    rcases hend with rfl | rfl
    · rfl
    · have hnothing : (⟨""⟩ : Path).components = [] := by decide
      rw [components_join whole (by decide), hnothing, List.append_nil]
  rw [hq, hjoined, components_eq p]
  split at hbegins
  next hroot =>
    have hstart : start.components = [.root] := by
      rcases hbegins with rfl | rfl <;> decide
    rw [hstart, World.isAbsolute_iff.1 hroot]
    rfl
  next hroot =>
    subst hbegins
    cases hhead : p.head with
    | root => exact absurd (World.isAbsolute_iff.2 hhead) hroot
    | here => rfl
    | bare => exact (seenFrom_pieces start.components _).symm

end Path

namespace World

variable {w : World} {p q : Path}

/-- Two paths are made absolute to the same path. -/
def Coincide (w : World) (p q : Path) : Prop :=
  ∃ a b, absolutePath w p = .ok a ∧ absolutePath w q = .ok b ∧ a.same b = true

theorem coincide_iff (hp : p.text ≠ "") (hq : q.text ≠ "") :
    w.Coincide p q ↔
      Path.seenFrom w.cwdPath.components p.components =
        Path.seenFrom w.cwdPath.components q.components := by
  obtain ⟨a, ha⟩ := Path.exists_absolute? w.cwdPath hp
  obtain ⟨b, hb⟩ := Path.exists_absolute? w.cwdPath hq
  rw [← Path.components_absolute? ha, ← Path.components_absolute? hb]
  constructor
  · rintro ⟨a', b', ha', hb', hsame⟩
    rw [absolutePath_eq_ok_iff, ha, Option.some.injEq] at ha'
    rw [absolutePath_eq_ok_iff, hb, Option.some.injEq] at hb'
    rw [ha', hb']
    exact eq_of_beq hsame
  · intro h
    exact ⟨a, b, absolutePath_eq_ok_iff.2 ha, absolutePath_eq_ok_iff.2 hb, beq_iff_eq.2 h⟩

theorem coincide_descend_iff (hp : p.text ≠ "") (hq : q.text ≠ "") {names : List String}
    (hnames : ∀ name ∈ names, Path.IsName name) :
    w.Coincide (p.descend names) (q.descend names) ↔ w.Coincide p q := by
  rw [coincide_iff (text_descend_ne_empty hp hnames) (text_descend_ne_empty hq hnames),
    coincide_iff hp hq, Path.components_descend p hnames, Path.components_descend q hnames,
    Path.seenFrom_append _ (Path.components_ne_nil hp),
    Path.seenFrom_append _ (Path.components_ne_nil hq), List.append_cancel_right_eq]

/-- The components of a path from the root tell the place that it spells. -/
theorem placeFrom_of_same (hp : p.isAbsolute = true) (hq : q.isAbsolute = true)
    (h : p.same q = true) (cwd : Location) : p.placeFrom cwd = q.placeFrom cwd := by
  have hcomponents : p.components = q.components := eq_of_beq h
  rw [Path.components_eq, Path.components_eq, isAbsolute_iff.1 hp, isAbsolute_iff.1 hq,
    List.append_cancel_left_eq] at hcomponents
  have hpieces := Path.componentOfPiece_injective.list_map hcomponents
  rw [Path.placeFrom, Path.placeFrom, solidSteps_eq_pieces, solidSteps_eq_pieces, hp, hq,
    List.foldl_append, List.foldl_append, isAbsolute_iff.1 hp, isAbsolute_iff.1 hq,
    ← foldl_go_significant, hpieces, foldl_go_significant]

theorem Coincide.placeFrom_eq (hcwd : ∀ name ∈ w.cwd, Path.IsName name) (h : w.Coincide p q) :
    p.placeFrom w.cwd = q.placeFrom w.cwd := by
  obtain ⟨a, b, ha, hb, hsame⟩ := h
  rw [absolutePath_eq_ok_iff] at ha hb
  rw [← placeFrom_absolute? hcwd ha [], ← placeFrom_absolute? hcwd hb []]
  exact placeFrom_of_same (isAbsolute_of_absolute? ha) (isAbsolute_of_absolute? hb) hsame []

/-- A directory stands at the place that its path spells. -/
theorem exists_stat_of_isDir (hfree : w.LinkFree) (hdir : w.isDir p = true) :
    ∃ t, w.stat p = .ok (p.placeFrom w.cwd, .dir t) := by
  obtain ⟨loc, node, hstat, hnode⟩ := isDir_eq_true_iff.1 hdir
  obtain ⟨rfl, hplace⟩ := node?_placeFrom_of_stat (hfree.unlinked p) hstat
  have hat : w.isDirAt (p.placeFrom w.cwd) = true := by
    rw [isDirAt, hplace]
    exact hnode
  obtain ⟨t, ht⟩ := isDirAt_iff.1 hat
  rw [hplace, Option.some.injEq] at ht
  exact ⟨t, ht ▸ hstat⟩

/-- The files below a directory are those below its place. -/
theorem fileBelow_iff_of_isDir (hfree : w.LinkFree) (hdir : w.isDir p = true)
    {names : List String} :
    w.FileBelow p names ↔
      names ≠ [] ∧ (w.node? (names.reverse ++ p.placeFrom w.cwd)).any Node.isFile = true := by
  obtain ⟨t, hstat⟩ := exists_stat_of_isDir hfree hdir
  constructor
  · rintro ⟨hne, loc, t', hstat', hfile⟩
    rw [hstat] at hstat'
    cases hstat'
    exact ⟨hne, hfile⟩
  · rintro ⟨hne, hfile⟩
    exact ⟨hne, _, t, hstat, hfile⟩

theorem Coincide.fileBelow_iff (hfree : w.LinkFree) (hcwd : ∀ name ∈ w.cwd, Path.IsName name)
    (h : w.Coincide p q) (hp : w.isDir p = true) (hq : w.isDir q = true) {names : List String} :
    w.FileBelow p names ↔ w.FileBelow q names := by
  rw [fileBelow_iff_of_isDir hfree hp, fileBelow_iff_of_isDir hfree hq, h.placeFrom_eq hcwd]

end World

end ClojureBuild
