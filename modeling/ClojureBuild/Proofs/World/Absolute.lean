import ClojureBuild.Classpath
import ClojureBuild.Proofs.World.Places
/-!
Absolute paths and the directories above them.

The absolute form of a path spells the place that the path spells.  A path that begins at the root
and never goes up leads through the places above its own and through no others.  Main statements:
the absolute form of a path without a `..` is such a path, and so is every directory above it.
-/

namespace ClojureBuild

namespace World

variable {w : World}

/-! ### Steps and pieces -/

/-- The step that the head of a path asks for. -/
def stepsOfHead : Path.Head → List PathStep
  | .here => [.stay]
  | .root | .bare => []

theorem solidSteps_eq_pieces (p : Path) :
    solidSteps p = stepsOfHead p.head ++ p.pieces.filterMap (stepOfPiece ∘ String.ofList) := by
  rw [solidSteps_eq, Path.head, Path.pieces]
  generalize p.text.toList = text
  fun_cases Path.splitHead text with
  | case1 rest => simp [Text.splitOn, stepsOfHead, stepOfPiece]
  | case2 => decide
  | case3 rest => simp [Text.splitOn, stepsOfHead, stepOfPiece]
  | case4 text hroot hdot hhere => rfl

theorem isAbsolute_iff {p : Path} : p.isAbsolute = true ↔ p.head = .root := by
  rw [Path.isAbsolute, Path.head]
  generalize p.text.toList = text
  fun_cases Path.splitHead text with
  | case1 rest => simp
  | case2 => simp
  | case3 rest => simp
  | case4 text hroot hdot hhere =>
      cases text with
      | nil => simp
      | cons c rest =>
          have hc : c ≠ '/' := fun heq => hroot rest (by rw [heq])
          simp [hc]

/-- A piece that is passed over, or that says to stay, leads nowhere else. -/
theorem foldl_go_significant (pieces : List (List Char)) (loc : Location) :
    ((pieces.filter Path.significant).filterMap (stepOfPiece ∘ String.ofList)).foldl
        PathStep.go loc =
      (pieces.filterMap (stepOfPiece ∘ String.ofList)).foldl PathStep.go loc := by
  induction pieces generalizing loc with
  | nil => rfl
  | cons piece rest ih =>
      by_cases hempty : piece = []
      · subst hempty
        exact ih loc
      · by_cases hhere : piece = ['.']
        · subst hhere
          exact ih loc
        · have hkept : Path.significant piece = true := by
            simp [Path.significant, hempty, hhere]
          rw [List.filter_cons_of_pos hkept, List.filterMap_cons, List.filterMap_cons]
          cases (stepOfPiece ∘ String.ofList) piece with
          | none => exact ih loc
          | some step => exact ih (step.go loc)

theorem stepOfPiece_eq_up_iff {piece : List Char} :
    stepOfPiece (String.ofList piece) = some .up ↔ piece = ['.', '.'] := by
  constructor
  · intro h
    unfold stepOfPiece at h
    split at h
    · exact absurd h (by simp)
    · split at h
      · exact absurd h (by simp)
      · split at h
        next hup =>
            have hchars := congrArg String.toList hup
            rwa [String.toList_ofList] at hchars
        · exact absurd h (by simp)
  · rintro rfl
    decide

/-- The steps of a path go up exactly where its components do. -/
theorem up_mem_solidSteps_iff {p : Path} : .up ∈ solidSteps p ↔ .up ∈ p.components := by
  have hhead : .up ∉ stepsOfHead p.head ∧ .up ∉ p.head.components := by
    cases p.head <;> simp [stepsOfHead, Path.Head.components]
  rw [solidSteps_eq_pieces, Path.components_eq, List.mem_append, List.mem_append,
    or_iff_right hhead.1, or_iff_right hhead.2]
  simp only [List.mem_filterMap, List.mem_map, List.mem_filter, Function.comp_apply,
    stepOfPiece_eq_up_iff, Path.componentOfPiece]
  constructor
  · rintro ⟨piece, hpiece, rfl⟩
    exact ⟨_, ⟨hpiece, by decide⟩, rfl⟩
  · rintro ⟨piece, ⟨hpiece, -⟩, hup⟩
    refine ⟨piece, hpiece, ?_⟩
    split at hup
    next heq => exact heq
    · exact absurd hup (by simp)

/-! ### Absolute forms -/

theorem solidSteps_join (p : Path) {q : Path} (hq : q.text.toList.head? ≠ some '/') :
    solidSteps (p.join q) = solidSteps p ++ solidSteps q := by
  rw [solidSteps_eq, solidSteps_eq, solidSteps_eq, Path.join, String.toList_ofList]
  exact Path.filterMap_splitOn_joinChars _ rfl p.text.toList hq

theorem isAbsolute_join (p : Path) {q : Path} (hq : q.text.toList.head? ≠ some '/') :
    (p.join q).isAbsolute = p.isAbsolute := by
  rw [Path.isAbsolute, Path.isAbsolute, Path.join, String.toList_ofList,
    Path.joinChars_of_relative _ hq]
  cases p.text.toList with
  | nil => simpa [Path.gap] using hq
  | cons c rest => rfl

/-- Joining pieces one after the other adds the step of each. -/
theorem join_pieces (start : Path) {pieces : List (List Char)}
    (hpieces : ∀ piece ∈ pieces, '/' ∉ piece) {whole : Path}
    (hwhole : whole = (pieces.map String.ofList).foldl (fun q s => q.join ⟨s⟩) start) :
    solidSteps whole = solidSteps start ++ pieces.filterMap (stepOfPiece ∘ String.ofList) ∧
      whole.isAbsolute = start.isAbsolute := by
  induction pieces generalizing start with
  | nil =>
      subst hwhole
      exact ⟨(List.append_nil _).symm, rfl⟩
  | cons piece rest ih =>
      have hpiece := hpieces piece List.mem_cons_self
      have hrelative : (⟨String.ofList piece⟩ : Path).text.toList.head? ≠ some '/' := by
        rw [String.toList_ofList]
        exact fun hhead => hpiece (List.mem_of_mem_head? hhead)
      have hone : solidSteps ⟨String.ofList piece⟩ =
          [piece].filterMap (stepOfPiece ∘ String.ofList) := by
        rw [solidSteps_eq, String.toList_ofList, Text.splitOn_of_not_mem hpiece]
      obtain ⟨hsteps, habsolute⟩ := ih (start.join ⟨String.ofList piece⟩)
        (fun q hq => hpieces q (List.mem_cons_of_mem piece hq)) hwhole
      rw [hsteps, habsolute, solidSteps_join _ hrelative, isAbsolute_join _ hrelative, hone,
        List.append_assoc, ← List.filterMap_append]
      exact ⟨rfl, rfl⟩

/-- The absolute form of a path is made from a start, the root or the current directory, by joining
the pieces that name something, and keeps a separator at the end. -/
theorem exists_start_of_absolute? {cwd p q : Path} (h : Path.absolute? cwd p = some q) :
    ∃ start whole : Path,
      whole = ((p.pieces.filter Path.significant).map String.ofList).foldl
        (fun q s => q.join ⟨s⟩) start ∧
      (q = whole ∨ q = whole.join ⟨""⟩) ∧
      if p.isAbsolute then start = ⟨"/"⟩ ∨ start = ⟨"//"⟩ else start = cwd := by
  unfold Path.absolute? at h
  split at h
  · exact absurd h (by simp)
  · simp only at h
    obtain ⟨start, hwhole, hbegins⟩ : ∃ start : Path,
        some (if p.text.toList.getLast? = some '/' then
            (((p.pieces.filter Path.significant).map String.ofList).foldl
              (fun q s => q.join ⟨s⟩) start).join ⟨""⟩
          else ((p.pieces.filter Path.significant).map String.ofList).foldl
            (fun q s => q.join ⟨s⟩) start) = some q ∧
          if p.isAbsolute then start = ⟨"/"⟩ ∨ start = ⟨"//"⟩ else start = cwd := by
      refine ⟨_, h, ?_⟩
      by_cases habsolute : p.isAbsolute = true
      · rw [if_pos habsolute]
        obtain ⟨rest, hrest⟩ := List.head?_eq_some_iff.1 (eq_of_beq habsolute)
        rw [hrest]
        split
        · exact Or.inl rfl
        · exact Or.inr rfl
        · exact Or.inl rfl
        next hroot => exact absurd rfl (hroot rest)
      · rw [if_neg habsolute]
        split
        next heq => exact absurd (by rw [Path.isAbsolute, heq]; rfl) habsolute
        next heq => exact absurd (by rw [Path.isAbsolute, heq]; rfl) habsolute
        next heq => exact absurd (by rw [Path.isAbsolute, heq]; rfl) habsolute
        · rfl
    refine ⟨start, _, rfl, ?_, hbegins⟩
    rw [← Option.some.inj hwhole]
    split
    · exact Or.inr rfl
    · exact Or.inl rfl

/-- The absolute form of a path takes the steps of its start, and then those of the pieces that
name something. -/
theorem exists_of_absolute? {cwd p q : Path} (h : Path.absolute? cwd p = some q) :
    ∃ start : Path, q.isAbsolute = start.isAbsolute ∧
      solidSteps q = solidSteps start ++
        (p.pieces.filter Path.significant).filterMap (stepOfPiece ∘ String.ofList) ∧
      if p.isAbsolute then start.isAbsolute = true ∧ solidSteps start = [] else start = cwd := by
  obtain ⟨start, whole, hwhole, hend, hbegins⟩ := exists_start_of_absolute? h
  have hpieces : ∀ piece ∈ p.pieces.filter Path.significant, '/' ∉ piece :=
    fun piece hpiece => Text.not_mem_of_mem_splitOn (List.mem_filter.1 hpiece).1
  obtain ⟨hsteps, habsolute⟩ := join_pieces start hpieces hwhole
  have hempty : (⟨""⟩ : Path).text.toList.head? ≠ some '/' := by simp
  refine ⟨start, ?_, ?_, ?_⟩
  · rw [← habsolute]
    rcases hend with rfl | rfl
    · rfl
    · exact isAbsolute_join _ hempty
  · rw [← hsteps]
    rcases hend with rfl | rfl
    · rfl
    · rw [solidSteps_join _ hempty]
      exact List.append_nil _
  · split at hbegins
    next hroot =>
      rw [if_pos hroot]
      rcases hbegins with rfl | rfl <;> decide
    next hroot => rw [if_neg hroot, hbegins]

theorem toList_textOf {loc : Location} (hloc : loc ≠ []) :
    (textOf loc).toList = loc.reverse.flatMap fun name => '/' :: name.toList := by
  rw [textOf, if_neg hloc, String.toList_join, List.flatMap_map]
  simp

theorem isAbsolute_cwdPath (w : World) : w.cwdPath.isAbsolute = true := by
  rw [cwdPath, Path.isAbsolute]
  by_cases hroot : w.cwd = []
  · rw [hroot]
    decide
  · obtain ⟨name, names, hnames⟩ := List.exists_cons_of_ne_nil (List.reverse_ne_nil_iff.2 hroot)
    rw [toList_textOf hroot, hnames]
    rfl

theorem solidSteps_names {names : List String} (hnames : ∀ name ∈ names, Path.IsName name) :
    (Text.splitOn '/' (names.flatMap fun name => '/' :: name.toList)).filterMap
      (stepOfPiece ∘ String.ofList) = names.map .down := by
  induction names using List.reverseRecOn with
  | nil => rfl
  | append_singleton front last ih =>
      have hlast := hnames last (by simp)
      have hfront := ih fun name hname => hnames name (by simp [hname])
      rw [List.flatMap_append, List.flatMap_singleton, Text.splitOn_append_sep,
        List.filterMap_append, hfront, Text.splitOn_of_not_mem hlast.noSlash, List.map_append]
      simp [stepOfPiece_name hlast]

theorem solidSteps_cwdPath (hnames : ∀ name ∈ w.cwd, Path.IsName name) :
    solidSteps w.cwdPath = w.cwd.reverse.map .down := by
  by_cases hroot : w.cwd = []
  · rw [cwdPath, hroot]
    decide
  · rw [solidSteps_eq, cwdPath, toList_textOf hroot]
    exact solidSteps_names fun name hname => hnames name (List.mem_reverse.1 hname)

theorem foldl_go_down (names : List String) (loc : Location) :
    (names.map .down).foldl PathStep.go loc = names.reverse ++ loc := by
  induction names generalizing loc with
  | nil => rfl
  | cons name rest ih =>
      rw [List.map_cons, List.foldl_cons, ih, List.reverse_cons, List.append_assoc]
      rfl

theorem isAbsolute_of_absolute? {p q : Path} (h : Path.absolute? w.cwdPath p = some q) :
    q.isAbsolute = true := by
  obtain ⟨start, habsolute, -, hbegins⟩ := exists_of_absolute? h
  rw [habsolute]
  split at hbegins
  · exact hbegins.1
  · rw [hbegins, isAbsolute_cwdPath]

theorem text_ne_of_isAbsolute {p : Path} (h : p.isAbsolute = true) : p.text ≠ "" := by
  intro hempty
  rw [Path.isAbsolute, hempty] at h
  exact absurd h (by decide)

/-- The absolute form of a path spells the place that the path spells. -/
theorem placeFrom_absolute? (hnames : ∀ name ∈ w.cwd, Path.IsName name) {p q : Path}
    (h : Path.absolute? w.cwdPath p = some q) (cwd : Location) :
    q.placeFrom cwd = p.placeFrom w.cwd := by
  obtain ⟨start, habsolute, hsteps, hbegins⟩ := exists_of_absolute? h
  have hpieces : ∀ loc, (solidSteps p).foldl PathStep.go loc =
      ((p.pieces.filter Path.significant).filterMap (stepOfPiece ∘ String.ofList)).foldl
        PathStep.go loc := by
    intro loc
    rw [foldl_go_significant, solidSteps_eq_pieces, List.foldl_append]
    cases p.head <;> rfl
  rw [Path.placeFrom, Path.placeFrom, hpieces, hsteps, List.foldl_append, habsolute]
  split at hbegins
  next hroot => rw [hbegins.1, hbegins.2, if_pos hroot]; rfl
  next hroot =>
      rw [hbegins, isAbsolute_cwdPath, solidSteps_cwdPath hnames, if_pos rfl, if_neg hroot,
        foldl_go_down, List.reverse_reverse, List.append_nil]

theorem solidSteps_name {name : String} (hname : Path.IsName name) :
    solidSteps ⟨name⟩ = [.down name] := by
  rw [solidSteps_eq, Text.splitOn_of_not_mem hname.noSlash]
  simp [stepOfPiece_name hname]

/-- Going down a path adds a step down for each name. -/
theorem descend_steps (p : Path) {names : List String} (hnames : ∀ name ∈ names, Path.IsName name) :
    solidSteps (p.descend names) = solidSteps p ++ names.map .down ∧
      (p.descend names).isAbsolute = p.isAbsolute := by
  induction names generalizing p with
  | nil => exact ⟨(List.append_nil _).symm, rfl⟩
  | cons name rest ih =>
      have hname := hnames name List.mem_cons_self
      have hstep : solidSteps (p / name) = solidSteps p ++ [.down name] :=
        (solidSteps_join p hname.relative).trans (by rw [solidSteps_name hname])
      obtain ⟨hsteps, habsolute⟩ :=
        ih (p / name) fun n hn => hnames n (List.mem_cons_of_mem name hn)
      rw [Path.descend_cons, hsteps, habsolute, hstep, isAbsolute_div p hname, List.append_assoc]
      exact ⟨rfl, rfl⟩

/-! ### Paths that never go up -/

/-- A path that begins at the root and never goes up. -/
structure Rooted (p : Path) : Prop where
  absolute : p.isAbsolute = true
  noUp : .up ∉ solidSteps p

/-- The absolute form of a path without a `..` never goes up. -/
theorem rooted_of_absolute? (hnames : ∀ name ∈ w.cwd, Path.IsName name) {p q : Path}
    (hup : .up ∉ p.components) (h : Path.absolute? w.cwdPath p = some q) : Rooted q := by
  obtain ⟨start, -, hsteps, hbegins⟩ := exists_of_absolute? h
  have hpieces : .up ∉ (p.pieces.filter Path.significant).filterMap
      (stepOfPiece ∘ String.ofList) := by
    rw [← up_mem_solidSteps_iff, solidSteps_eq_pieces, List.mem_append] at hup
    intro hin
    obtain ⟨piece, hpiece, hstep⟩ := List.mem_filterMap.1 hin
    exact hup (Or.inr (List.mem_filterMap.2 ⟨piece, (List.mem_filter.1 hpiece).1, hstep⟩))
  refine ⟨isAbsolute_of_absolute? h, ?_⟩
  rw [hsteps]
  split at hbegins
  · rwa [hbegins.2]
  · rw [hbegins, solidSteps_cwdPath hnames, List.mem_append, not_or]
    exact ⟨by simp, hpieces⟩

namespace Rooted

variable {p : Path}

theorem placeFrom_eq (h : Rooted p) (cwd : Location) :
    p.placeFrom cwd = (solidSteps p).foldl PathStep.go [] := by
  rw [Path.placeFrom, h.absolute, if_pos rfl]

end Rooted

/-- Steps that do not go up lead to a place above the one where more of them lead. -/
theorem suffix_of_front {front steps : List PathStep} (hup : .up ∉ steps) (h : front <+: steps)
    (loc : Location) : front.foldl PathStep.go loc <:+ steps.foldl PathStep.go loc := by
  obtain ⟨back, rfl⟩ := h
  rw [List.foldl_append]
  replace hup : .up ∉ back := fun hin => hup (List.mem_append_right front hin)
  generalize front.foldl PathStep.go loc = start
  induction back generalizing start with
  | nil => exact List.suffix_rfl
  | cons step rest ih =>
      rw [List.mem_cons, not_or] at hup
      refine List.IsSuffix.trans ?_ (ih hup.2 (step.go start))
      cases step with
      | stay => exact List.suffix_rfl
      | up => exact absurd rfl hup.1
      | down name => exact List.suffix_cons name start

theorem solidSteps_assemble {pieces : List (List Char)} (h : ∀ piece ∈ pieces, '/' ∉ piece) :
    solidSteps (Path.assemble .root pieces) =
      pieces.filterMap (stepOfPiece ∘ String.ofList) := by
  have htext : (Path.assemble .root pieces).text.toList =
      [] ++ '/' :: Text.joinWith '/' pieces := by
    rw [Path.assemble, String.toList_ofList]
    rfl
  rw [solidSteps_eq, htext, Text.splitOn_append_sep]
  by_cases hpieces : pieces = []
  · subst hpieces
    decide
  · rw [Text.splitOn_joinWith hpieces h]
    rfl

/-- The directory that holds an absolute path takes the first of its steps. -/
theorem of_parent? {p parent : Path} (hp : p.isAbsolute = true) (h : p.parent? = some parent) :
    parent.isAbsolute = true ∧ solidSteps parent <+: solidSteps p := by
  have hhead := isAbsolute_iff.1 hp
  rw [Path.parent?, hhead] at h
  split at h
  · exact absurd h (by simp)
  next last front htrimmed =>
      have hkept : front.reverse <+: p.pieces := by
        have hwhole : Path.trimPieces p.pieces = front.reverse ++ [last] := by
          rw [← List.reverse_inj, htrimmed]
          simp
        have hfront : front.reverse <+: _ := hwhole ▸ List.prefix_append _ _
        exact hfront.trans (Path.trimPieces_front _)
      have hpieces := (Path.trimPieces_front front.reverse).trans hkept
      rw [← Option.some.inj h, solidSteps_assemble fun piece hpiece =>
        Text.not_mem_of_mem_splitOn (hpieces.subset hpiece)]
      refine ⟨by rw [Path.isAbsolute, Path.assemble, String.toList_ofList]; rfl, ?_⟩
      rw [solidSteps_eq_pieces, hhead]
      exact hpieces.filterMap _

/-- Every directory above an absolute path takes the first of its steps. -/
theorem of_mem_ancestors {p a : Path} (hp : p.isAbsolute = true) (ha : a ∈ ancestors p) :
    a.isAbsolute = true ∧ solidSteps a <+: solidSteps p := by
  rw [ancestors] at ha
  generalize p.text.length = n at ha
  induction n generalizing p with
  | zero =>
      obtain rfl := List.mem_singleton.1 ha
      exact ⟨hp, List.prefix_rfl⟩
  | succ n ih =>
      rw [ancestors.go] at ha
      split at ha
      next parent hparent =>
          obtain ⟨habsolute, hfront⟩ := of_parent? hp hparent
          rcases List.mem_cons.1 ha with rfl | ha
          · exact ⟨hp, List.prefix_rfl⟩
          · exact (ih habsolute ha).imp_right fun h => h.trans hfront
      · obtain rfl := List.mem_singleton.1 ha
        exact ⟨hp, List.prefix_rfl⟩

namespace Rooted

variable {p : Path}

theorem of_front {q : Path} (h : Rooted p) (hq : q.isAbsolute = true)
    (hfront : solidSteps q <+: solidSteps p) : Rooted q :=
  ⟨hq, fun hin => h.noUp (hfront.subset hin)⟩

theorem placeFrom_suffix {q : Path} (h : Rooted p) (hq : q.isAbsolute = true)
    (hfront : solidSteps q <+: solidSteps p) (cwd : Location) :
    q.placeFrom cwd <:+ p.placeFrom cwd := by
  rw [h.placeFrom_eq, (h.of_front hq hfront).placeFrom_eq]
  exact suffix_of_front h.noUp hfront []

theorem unlinked (h : Rooted p) (hclear : ∀ loc, loc <:+ p.placeFrom w.cwd → ∀ link : String,
    w.node? loc ≠ some (.link link)) : w.Unlinked p := by
  intro front hfront link
  refine hclear _ ?_ link
  rw [h.placeFrom_eq, h.absolute, if_pos rfl]
  exact suffix_of_front h.noUp hfront []

theorem descend {names : List String} (h : Rooted p) (hnames : ∀ name ∈ names, Path.IsName name) :
    Rooted (p.descend names) := by
  obtain ⟨hsteps, habsolute⟩ := descend_steps p hnames
  refine ⟨habsolute.trans h.absolute, ?_⟩
  rw [hsteps, List.mem_append, not_or]
  exact ⟨h.noUp, by simp⟩

end Rooted

theorem placeFrom_descend (p : Path) {names : List String}
    (hnames : ∀ name ∈ names, Path.IsName name) (cwd : Location) :
    (p.descend names).placeFrom cwd = names.reverse ++ p.placeFrom cwd := by
  obtain ⟨hsteps, habsolute⟩ := descend_steps p hnames
  rw [Path.placeFrom, hsteps, habsolute, List.foldl_append, foldl_go_down]
  rfl

end World

end ClojureBuild
