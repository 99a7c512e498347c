import ClojureBuild.Proofs.Path.Descent
import ClojureBuild.World.Walk
/-!
Paths in a tree without links.

In such a tree a path leads to the place that its text spells, or nowhere.  What a descent leads to
is decided by the tree alone, as long as the text of the path is not too long for the system.
-/

namespace ClojureBuild

/-- Whether a node is a link. -/
def Node.isLink : Node → Bool
  | .link _ => true
  | _ => false

/-- A name that the system lets an entry of a directory have. -/
structure EntryName (name : String) : Prop extends Path.IsName name where
  noNul : Char.ofNat 0 ∉ name.toList
  short : name.length ≤ World.nameLimit

instance (name : String) : Decidable (EntryName name) :=
  decidable_of_iff (Path.IsName name ∧ Char.ofNat 0 ∉ name.toList ∧
    name.length ≤ World.nameLimit)
    ⟨fun ⟨hname, hnul, hshort⟩ => ⟨hname, hnul, hshort⟩, fun h => ⟨h.toIsName, h.noNul, h.short⟩⟩

namespace World

/-- The nodes of the world are a tree of directories with proper names. -/
structure IsTree (w : World) : Prop where
  root : w.isDirAt [] = true
  parent : ∀ {name : String} {loc : Location} {node : Node},
    w.node? (name :: loc) = some node → w.isDirAt loc = true
  entry : ∀ {name : String} {loc : Location} {node : Node},
    w.node? (name :: loc) = some node → EntryName name

/-- Every entry of the world has a name. -/
def Named (w : World) : Prop :=
  ∀ (name : String) (loc : Location) (node : Node),
    w.node? (name :: loc) = some node → Path.IsName name

theorem IsTree.named {w : World} (htree : w.IsTree) : w.Named :=
  fun _ _ _ hnode => (htree.entry hnode).toIsName

/-- No link is in the world. -/
def LinkFree (w : World) : Prop :=
  ∀ {loc : Location} {node : Node}, w.node? loc = some node → node.isLink = false

variable {w : World}

theorem isDirAt_iff {loc : Location} : w.isDirAt loc = true ↔ ∃ t, w.node? loc = some (.dir t) := by
  rw [isDirAt, Option.any_eq_true]
  constructor
  · rintro ⟨node, hnode, hdir⟩
    cases node with
    | dir t => exact ⟨t, hnode⟩
    | file content t executable => simp [Node.isDir] at hdir
    | link target => simp [Node.isDir] at hdir
    | device t => simp [Node.isDir] at hdir
  · rintro ⟨t, ht⟩
    exact ⟨_, ht, rfl⟩

theorem entryAt_isSome_iff {loc : Location} {nodes : List (Location × Node)} :
    (∃ node, entryAt loc nodes = some node) ↔ ∃ node, (loc, node) ∈ nodes := by
  induction nodes with
  | nil => simp [entryAt]
  | cons entry rest ih =>
      obtain ⟨l, n⟩ := entry
      by_cases hl : l = loc
      · subst hl
        simp [entryAt]
      · simp only [entryAt, hl, ↓reduceIte, ih, List.mem_cons, Prod.mk.injEq]
        constructor
        · rintro ⟨node, hnode⟩
          exact ⟨node, Or.inr hnode⟩
        · rintro ⟨node, ⟨rfl, -⟩ | hnode⟩
          · exact absurd rfl hl
          · exact ⟨node, hnode⟩

theorem node?_isSome_iff {loc : Location} (hloc : loc ≠ []) :
    (∃ node, w.node? loc = some node) ↔ ∃ node, (loc, node) ∈ w.nodes := by
  rw [← entryAt_isSome_iff, node?]
  cases entryAt loc w.nodes with
  | none => simp [hloc]
  | some node => simp

/-- Whether the nodes are a tree can be checked entry by entry. -/
theorem isTree_iff :
    w.IsTree ↔ w.isDirAt [] = true ∧ ∀ entry ∈ w.nodes, ∀ name ∈ entry.1.head?,
      w.isDirAt entry.1.tail = true ∧ EntryName name := by
  constructor
  · rintro ⟨hroot, hparent, hentry⟩
    refine ⟨hroot, fun ⟨loc, node⟩ hmem name hname => ?_⟩
    obtain ⟨rest, rfl⟩ := List.head?_eq_some_iff.1 hname
    obtain ⟨found, hfound⟩ := (node?_isSome_iff (List.cons_ne_nil name rest)).2 ⟨node, hmem⟩
    exact ⟨hparent hfound, hentry hfound⟩
  · rintro ⟨hroot, hall⟩
    have hentry : ∀ {name : String} {loc : Location} {node : Node},
        w.node? (name :: loc) = some node → w.isDirAt loc = true ∧ EntryName name := by
      intro name loc node hnode
      obtain ⟨found, hmem⟩ := (node?_isSome_iff (List.cons_ne_nil name loc)).1 ⟨node, hnode⟩
      exact hall _ hmem name rfl
    exact ⟨hroot, fun hnode => (hentry hnode).1, fun hnode => (hentry hnode).2⟩

instance (w : World) : Decidable w.IsTree := decidable_of_iff _ isTree_iff.symm

/-- What holds of all nodes of the world can be checked entry by entry. -/
theorem forall_node_iff (p : Node → Bool) :
    (∀ {loc : Location} {node : Node}, w.node? loc = some node → p node = true) ↔
      (w.node? []).all p = true ∧ ∀ entry ∈ w.nodes, (w.node? entry.1).all p = true := by
  constructor
  · intro h
    have hall : ∀ loc, (w.node? loc).all p = true := by
      intro loc
      cases hnode : w.node? loc with
      | none => rfl
      | some node => exact h hnode
    exact ⟨hall [], fun entry _ => hall entry.1⟩
  · rintro ⟨hroot, hall⟩ loc node hnode
    by_cases hloc : loc = []
    · subst hloc
      rw [hnode] at hroot
      exact hroot
    · obtain ⟨found, hmem⟩ := (node?_isSome_iff hloc).1 ⟨node, hnode⟩
      have hp := hall _ hmem
      rw [hnode] at hp
      exact hp

theorem linkFree_iff :
    w.LinkFree ↔ (w.node? []).all (!·.isLink) = true ∧
      ∀ entry ∈ w.nodes, (w.node? entry.1).all (!·.isLink) = true := by
  rw [← forall_node_iff]
  simp only [LinkFree, Bool.not_eq_true']

instance (w : World) : Decidable w.LinkFree := decidable_of_iff _ linkFree_iff.symm

/-- Whatever has something below it is a directory. -/
theorem IsTree.above (htree : w.IsTree) {names : List String} {loc : Location} {node : Node}
    (hne : names ≠ []) (h : w.node? (names ++ loc) = some node) : w.isDirAt loc = true := by
  induction names generalizing node with
  | nil => exact absurd rfl hne
  | cons name rest ih =>
      have hparent := htree.parent h
      by_cases hrest : rest = []
      · subst hrest
        exact hparent
      · obtain ⟨t, ht⟩ := isDirAt_iff.1 hparent
        exact ih hrest ht

theorem IsTree.names (htree : w.IsTree) {names : List String} {loc : Location} {node : Node}
    (h : w.node? (names ++ loc) = some node) : ∀ name ∈ names, EntryName name := by
  induction names generalizing node with
  | nil => simp
  | cons name rest ih =>
      obtain ⟨t, ht⟩ := isDirAt_iff.1 (htree.parent h)
      intro other hother
      rcases List.mem_cons.1 hother with rfl | hrest
      · exact htree.entry h
      · exact ih ht other hrest

/-! ### Following steps without links -/

end World

/-- Where a step leads, whatever stands there. -/
def PathStep.go (loc : Location) : PathStep → Location
  | .stay => loc
  | .up => loc.tail
  | .down name => name :: loc

namespace World

variable {w : World}

section Steps

variable {follow : Bool} {jump : Location → List PathStep → Except OsError Spot}

theorem traverse_down_dir {name : String} {loc : Location} (rest : List PathStep)
    (hshort : name.length ≤ nameLimit) (hdir : w.isDirAt (name :: loc) = true) :
    w.traverse follow jump loc (.down name :: rest) =
      w.traverse follow jump (name :: loc) rest := by
  obtain ⟨t, ht⟩ := isDirAt_iff.1 hdir
  rw [traverse, if_neg (Nat.not_lt.2 hshort), ht]

theorem traverse_down_end (hfree : w.LinkFree) {name : String} {loc : Location} {node : Node}
    (hshort : name.length ≤ nameLimit) (hnode : w.node? (name :: loc) = some node) :
    w.traverse follow jump loc [.down name] = .ok (.taken (name :: loc)) := by
  have hlink := hfree hnode
  rw [traverse, if_neg (Nat.not_lt.2 hshort), hnode]
  cases node with
  | dir t => rfl
  | file content t executable => rfl
  | link target => simp [Node.isLink] at hlink
  | device t => rfl

theorem LinkFree.ne_link (hfree : w.LinkFree) {loc : Location} (target : String) :
    w.node? loc ≠ some (.link target) :=
  fun hlink => absurd (hfree hlink) (by simp [Node.isLink])

/-- All that a step down can do where no link is: end at a vacant place, enter a directory, or end
at something that is none. -/
theorem traverse_down_cases {name : String} {loc : Location} {rest : List PathStep} {spot : Spot}
    (hlink : ∀ target, w.node? (name :: loc) ≠ some (.link target))
    (h : w.traverse follow jump loc (.down name :: rest) = .ok spot) :
    name.length ≤ nameLimit ∧
      ((w.node? (name :: loc) = none ∧ rest = [] ∧ w.isDirAt loc = true ∧
          spot = .vacant loc name) ∨
        (w.isDirAt (name :: loc) = true ∧ w.traverse follow jump (name :: loc) rest = .ok spot) ∨
        (∃ node, w.node? (name :: loc) = some node ∧ node.isDir = false ∧ rest = [] ∧
          spot = .taken (name :: loc))) := by
  rw [traverse] at h
  split at h
  · exact absurd h (by simp)
  next hlong =>
    refine ⟨Nat.not_lt.1 hlong, ?_⟩
    cases hnode : w.node? (name :: loc) with
    | none =>
        simp only [hnode] at h
        split at h
        next hvacant =>
          cases h
          rw [Bool.and_eq_true, List.isEmpty_iff] at hvacant
          exact Or.inl ⟨rfl, hvacant.1, hvacant.2, rfl⟩
        next => exact absurd h (by simp)
    | some node =>
        cases node with
        | dir t =>
            simp only [hnode] at h
            exact Or.inr (Or.inl ⟨isDirAt_iff.2 ⟨t, hnode⟩, h⟩)
        | file content t executable =>
            simp only [hnode] at h
            split at h
            next hlast =>
              cases h
              exact Or.inr (Or.inr ⟨_, rfl, rfl, List.isEmpty_iff.1 hlast, rfl⟩)
            next => exact absurd h (by simp)
        | link target => exact absurd hnode (hlink target)
        | device t =>
            simp only [hnode] at h
            split at h
            next hlast =>
              cases h
              exact Or.inr (Or.inr ⟨_, rfl, rfl, List.isEmpty_iff.1 hlast, rfl⟩)
            next => exact absurd h (by simp)

/-- Behind a directory a look-up goes on from there. -/
theorem traverse_append (hfree : w.LinkFree) {steps : List PathStep} (more : List PathStep)
    {loc found : Location} (h : w.traverse follow jump loc steps = .ok (.taken found))
    (hdir : w.isDirAt found = true) :
    w.traverse follow jump loc (steps ++ more) = w.traverse follow jump found more := by
  induction steps generalizing loc with
  | nil =>
      rw [traverse] at h
      cases h
      rfl
  | cons step rest ih =>
      cases step with
      | stay => exact @ih loc h
      | up => exact @ih loc.tail h
      | down name =>
          obtain ⟨hshort, hcases⟩ := traverse_down_cases hfree.ne_link h
          rcases hcases with ⟨-, -, -, hspot⟩ | ⟨hin, hrest⟩ | ⟨node, hnode, hnot, rfl, hspot⟩
          · cases hspot
          · rw [List.cons_append, traverse_down_dir _ hshort hin]
            exact ih hrest
          · cases hspot
            obtain ⟨t, ht⟩ := isDirAt_iff.1 hdir
            rw [hnode] at ht
            cases ht
            simp [Node.isDir] at hnot

/-- A look-up that goes further found something on its way. -/
theorem exists_of_traverse_append (hfree : w.LinkFree) {steps more : List PathStep}
    (hmore : more ≠ []) {loc found : Location}
    (h : w.traverse follow jump loc (steps ++ more) = .ok (.taken found)) :
    ∃ mid, w.traverse follow jump loc steps = .ok (.taken mid) ∧
      w.traverse follow jump mid more = .ok (.taken found) := by
  induction steps generalizing loc with
  | nil => exact ⟨loc, rfl, h⟩
  | cons step rest ih =>
      cases step with
      | stay => exact @ih loc h
      | up => exact @ih loc.tail h
      | down name =>
          obtain ⟨hshort, hcases⟩ := traverse_down_cases hfree.ne_link h
          rcases hcases with ⟨-, -, -, hspot⟩ | ⟨hin, hrest⟩ | ⟨node, -, -, hend, -⟩
          · cases hspot
          · obtain ⟨mid, hmid, hlast⟩ := ih hrest
            exact ⟨mid, by rw [traverse_down_dir _ hshort hin, hmid], hlast⟩
          · exact absurd (List.append_eq_nil_iff.1 hend).2 hmore

end Steps

/-! ### The steps of a descent -/

/-- The steps of a path without a demand for a directory at its end. -/
def solidSteps (p : Path) : List PathStep :=
  (Text.splitString '/' p.text).filterMap stepOfPiece

/-- The place that a path spells. -/
def spelled (w : World) (p : Path) : Location :=
  (stepsOf p.text).foldl PathStep.go (if p.isAbsolute then [] else w.cwd)

theorem stepsOf_eq (p : Path) :
    stepsOf p.text = solidSteps p ∨ stepsOf p.text = solidSteps p ++ [.stay] := by
  unfold stepsOf solidSteps
  by_cases hslash : p.text.toList.getLast? = some '/'
  · exact Or.inr (if_pos hslash)
  · exact Or.inl (if_neg hslash)

theorem stepOfPiece_name {name : String} (hname : Path.IsName name) :
    stepOfPiece name = some (.down name) := by
  have hempty : name ≠ "" := by
    rintro rfl
    exact hname.nonempty rfl
  have hhere : name ≠ "." := by
    rintro rfl
    exact hname.notHere rfl
  have hup : name ≠ ".." := by
    rintro rfl
    exact hname.notUp rfl
  simp [stepOfPiece, hempty, hhere, hup]

/-- A name behind a path is one more step down. -/
theorem stepsOf_div (p : Path) {name : String} (hname : Path.IsName name) :
    stepsOf (p / name).text = solidSteps p ++ [.down name] := by
  have hlast : (p / name).text.toList.getLast? ≠ some '/' := by
    apply Path.getLast?_of_gap
    rw [Path.gap_div p hname]
    exact List.cons_ne_nil _ _
  have hsplit : (Text.splitString '/' (p / name).text).filterMap stepOfPiece =
      solidSteps p ++ [.down name] := by
    have hpieces := Path.filterMap_splitOn_joinChars (stepOfPiece ∘ String.ofList) rfl
      p.text.toList hname.relative
    rw [← Path.text_div, Text.splitOn_of_not_mem hname.noSlash] at hpieces
    simp only [solidSteps, Text.splitString, List.filterMap_map, hpieces]
    simp [stepOfPiece_name hname]
  rw [stepsOf, if_neg hlast, hsplit]

theorem isAbsolute_div (p : Path) {name : String} (hname : Path.IsName name) :
    (p / name).isAbsolute = p.isAbsolute := by
  unfold Path.isAbsolute
  rw [Path.text_div, Path.joinChars_of_relative _ hname.relative]
  cases htext : p.text.toList with
  | nil =>
      have hhead := hname.relative
      simp only [Path.gap, true_or, ↓reduceIte, List.nil_append, List.head?_nil]
      simpa using hhead
  | cons c rest => simp

/-! ### Asking the system -/

/-- A path whose text the system takes. -/
structure Askable (p : Path) : Prop where
  nonempty : p.text ≠ ""
  noNul : Char.ofNat 0 ∉ p.text.toList
  short : p.text.length < pathLimit

/-- A path is looked up by following its steps, once its text is taken. -/
theorem resolve_eq_ok {follow : Bool} {p : Path} {spot : Spot} :
    w.resolve follow p = .ok spot ↔
      Askable p ∧ w.traverse follow (w.resolveFrom follow (linkLimit - 1))
        (if p.isAbsolute then [] else w.cwd) (stepsOf p.text) = .ok spot := by
  unfold resolve
  by_cases hempty : p.text = ""
  · have hnot : ¬ Askable p := fun h => h.nonempty hempty
    simp [hempty, hnot]
  · by_cases hnul : Char.ofNat 0 ∈ p.text.toList
    · have hnot : ¬ Askable p := fun h => h.noNul hnul
      simp [hempty, hnul, hnot]
    · by_cases hlong : pathLimit ≤ p.text.length
      · have hnot : ¬ Askable p := fun h => absurd h.short (Nat.not_lt.2 hlong)
        simp [hempty, hnul, hlong, hnot]
      · have hask : Askable p := ⟨hempty, hnul, Nat.not_le.1 hlong⟩
        simp only [String.isEmpty_iff, hempty, List.contains_eq_mem, hnul, decide_false, hlong,
          ↓reduceIte, Bool.false_eq_true, hask, true_and]
        rfl

theorem stat_eq_ok {p : Path} {loc : Location} {node : Node} :
    w.stat p = .ok (loc, node) ↔
      w.resolve true p = .ok (.taken loc) ∧ w.node? loc = some node := by
  unfold stat
  rcases w.resolve true p with cause | spot
  · simp [bind, Except.bind]
  · cases spot with
    | vacant parent name => simp [bind, Except.bind]
    | taken found =>
        simp only [bind, Except.bind, Except.ok.injEq, Spot.taken.injEq]
        constructor
        · intro h
          split at h
          next hnode =>
            cases h
            exact ⟨rfl, hnode⟩
          next => exact absurd h (by simp)
        · rintro ⟨rfl, hnode⟩
          simp [hnode]

theorem askable_of_stat {p : Path} {found : Location × Node} (h : w.stat p = .ok found) :
    Askable p :=
  (resolve_eq_ok.1 (stat_eq_ok.1 h).1).1

theorem isDir_eq_true_iff {p : Path} :
    w.isDir p = true ↔ ∃ loc node, w.stat p = .ok (loc, node) ∧ node.isDir = true := by
  rw [isDir]
  rcases w.stat p with cause | ⟨loc, node⟩ <;> simp

theorem isFile_eq_true_iff {p : Path} :
    w.isFile p = true ↔ ∃ loc node, w.stat p = .ok (loc, node) ∧ node.isFile = true := by
  rw [isFile]
  rcases w.stat p with cause | ⟨loc, node⟩ <;> simp

theorem isDir_of_isFile {p : Path} (h : w.isFile p = true) : w.isDir p = false := by
  obtain ⟨loc, node, hstat, hfile⟩ := isFile_eq_true_iff.1 h
  rw [isDir, hstat]
  cases node <;> simp [Node.isFile, Node.isDir] at hfile ⊢

theorem text_div_append (p : Path) {name : String} (hname : Path.IsName name) :
    (p / name).text = p.text ++ (String.ofList (Path.gap p.text.toList) ++ name) := by
  rw [← String.toList_inj, Path.text_div, Path.joinChars_of_relative _ hname.relative]
  simp

theorem Askable.of_div {p : Path} {name : String} (hname : Path.IsName name)
    (h : Askable (p / name)) (hp : p.text ≠ "") : Askable p := by
  have htext := text_div_append p hname
  refine ⟨hp, ?_, ?_⟩
  · intro hnul
    apply h.noNul
    rw [htext, String.toList_append]
    exact List.mem_append_left _ hnul
  · have hshort := h.short
    rw [htext, String.length_append] at hshort
    omega

theorem Askable.div {p : Path} {name : String} (hname : EntryName name) (h : Askable p)
    (hshort : (p / name).text.length < pathLimit) : Askable (p / name) := by
  have htext := text_div_append p hname.toIsName
  refine ⟨?_, ?_, hshort⟩
  · rw [htext]
    simp [h.nonempty]
  · rw [htext]
    simp only [String.toList_append, String.toList_ofList, List.mem_append, not_or]
    refine ⟨h.noNul, ?_, hname.noNul⟩
    intro hgap
    unfold Path.gap at hgap
    split at hgap
    · simp at hgap
    · exact absurd hgap (by decide)

/-- A look-up that finds something does so without the demand for a directory at the end. -/
theorem traverse_solidSteps (hfree : w.LinkFree) {follow : Bool}
    {jump : Location → List PathStep → Except OsError Spot} {p : Path} {start loc : Location}
    (h : w.traverse follow jump start (stepsOf p.text) = .ok (.taken loc)) :
    w.traverse follow jump start (solidSteps p) = .ok (.taken loc) := by
  rcases stepsOf_eq p with hsteps | hsteps
  · rwa [hsteps] at h
  · rw [hsteps] at h
    obtain ⟨mid, hmid, hstay⟩ := exists_of_traverse_append hfree (List.cons_ne_nil _ _) h
    rw [traverse, traverse] at hstay
    cases hstay
    exact hmid

theorem traverse_of_solidSteps (hfree : w.LinkFree) {follow : Bool}
    {jump : Location → List PathStep → Except OsError Spot} {p : Path} {start loc : Location}
    (h : w.traverse follow jump start (solidSteps p) = .ok (.taken loc))
    (hdir : w.isDirAt loc = true) :
    w.traverse follow jump start (stepsOf p.text) = .ok (.taken loc) := by
  rcases stepsOf_eq p with hsteps | hsteps
  · rwa [hsteps]
  · rw [hsteps, traverse_append hfree _ h hdir, traverse, traverse]

/-- What stands in a directory is found by its name behind the path of the directory. -/
theorem stat_div (hfree : w.LinkFree) {p : Path} {name : String} {loc : Location} {t : Int}
    {node : Node} (hname : EntryName name) (hp : w.stat p = .ok (loc, .dir t))
    (hnode : w.node? (name :: loc) = some node)
    (hshort : (p / name).text.length < pathLimit) :
    w.stat (p / name) = .ok (name :: loc, node) := by
  obtain ⟨hresolve, hdir⟩ := stat_eq_ok.1 hp
  obtain ⟨hask, htraverse⟩ := resolve_eq_ok.1 hresolve
  have hsolid := traverse_solidSteps hfree htraverse
  refine stat_eq_ok.2 ⟨resolve_eq_ok.2 ⟨hask.div hname hshort, ?_⟩, hnode⟩
  rw [stepsOf_div p hname.toIsName, isAbsolute_div p hname.toIsName,
    traverse_append hfree _ hsolid (isDirAt_iff.2 ⟨t, hdir⟩)]
  exact traverse_down_end hfree hname.short hnode

/-- What is found by a name behind a path stands in the directory that the path leads to. -/
theorem exists_of_stat_div (hfree : w.LinkFree) (htree : w.IsTree) {p : Path} {name : String}
    {found : Location} {node : Node} (hname : Path.IsName name) (hp : p.text ≠ "")
    (h : w.stat (p / name) = .ok (found, node)) :
    ∃ loc t, found = name :: loc ∧ w.stat p = .ok (loc, .dir t) := by
  obtain ⟨hresolve, hnode⟩ := stat_eq_ok.1 h
  obtain ⟨hask, htraverse⟩ := resolve_eq_ok.1 hresolve
  rw [stepsOf_div p hname, isAbsolute_div p hname] at htraverse
  obtain ⟨loc, hloc, hlast⟩ := exists_of_traverse_append hfree (List.cons_ne_nil _ _) htraverse
  have hfound : found = name :: loc := by
    rcases (traverse_down_cases hfree.ne_link hlast).2 with ⟨-, -, -, hspot⟩ | ⟨-, hrest⟩ |
      ⟨_, -, -, -, hspot⟩
    · cases hspot
    · rw [traverse] at hrest
      cases hrest
      rfl
    · cases hspot
      rfl
  subst hfound
  have hdir := htree.parent hnode
  obtain ⟨t, ht⟩ := isDirAt_iff.1 hdir
  have hwhole := traverse_of_solidSteps hfree hloc hdir
  exact ⟨loc, t, rfl, stat_eq_ok.2 ⟨resolve_eq_ok.2 ⟨hask.of_div hname hp, hwhole⟩, ht⟩⟩

theorem text_descend_ne_empty {p : Path} (hp : p.text ≠ "") {names : List String}
    (hnames : ∀ name ∈ names, Path.IsName name) : (p.descend names).text ≠ "" := by
  induction names generalizing p with
  | nil => exact hp
  | cons name rest ih =>
      have hname := hnames name List.mem_cons_self
      apply ih _ fun n hn => hnames n (List.mem_cons_of_mem name hn)
      rw [text_div_append p hname]
      simp [hp]

theorem length_le_div (p : Path) {name : String} (hname : Path.IsName name) :
    p.text.length ≤ (p / name).text.length := by
  rw [text_div_append p hname, String.length_append]
  omega

theorem length_le_descend (p : Path) {names : List String}
    (hnames : ∀ name ∈ names, Path.IsName name) :
    p.text.length ≤ (p.descend names).text.length := by
  induction names generalizing p with
  | nil => exact Nat.le_refl _
  | cons name rest ih =>
      obtain ⟨hname, hrest⟩ := List.forall_mem_cons.1 hnames
      exact (length_le_div p hname).trans (ih (p / name) hrest)

/-- What stands below a directory is found by going down to it. -/
theorem stat_descend (hfree : w.LinkFree) (htree : w.IsTree) {p : Path} {names : List String}
    {loc : Location} {t : Int} {node : Node} (hp : w.stat p = .ok (loc, .dir t))
    (hnode : w.node? (names.reverse ++ loc) = some node)
    (hshort : (p.descend names).text.length < pathLimit) :
    w.stat (p.descend names) = .ok (names.reverse ++ loc, node) := by
  induction names using List.reverseRecOn generalizing node with
  | nil =>
      have hdir := node?_of_stat hp
      rw [List.reverse_nil, List.nil_append, hdir] at hnode
      cases hnode
      exact hp
  | append_singleton front last ih =>
      rw [List.reverse_append, List.reverse_singleton, List.singleton_append,
        List.cons_append] at hnode ⊢
      have hlast := htree.entry hnode
      obtain ⟨t', ht'⟩ := isDirAt_iff.1 (htree.parent hnode)
      rw [Path.descend_concat] at hshort ⊢
      have hfront := ih ht' (Nat.lt_of_le_of_lt (length_le_div _ hlast.toIsName) hshort)
      exact stat_div hfree hlast hfront hnode hshort

/-- What is found by going down stands below the directory that the path leads to. -/
theorem exists_of_stat_descend (hfree : w.LinkFree) (htree : w.IsTree) {p : Path}
    {names : List String} {found : Location} {node : Node} (hp : p.text ≠ "") (hne : names ≠ [])
    (hnames : ∀ name ∈ names, Path.IsName name) (h : w.stat (p.descend names) = .ok (found, node)) :
    ∃ loc t, found = names.reverse ++ loc ∧ w.stat p = .ok (loc, .dir t) := by
  induction names using List.reverseRecOn generalizing found node with
  | nil => exact absurd rfl hne
  | append_singleton front last ih =>
      have hlast := hnames last (by simp)
      have hfront : ∀ name ∈ front, Path.IsName name := fun name hn => hnames name (by simp [hn])
      rw [Path.descend_concat] at h
      obtain ⟨loc, t, rfl, hstat⟩ :=
        exists_of_stat_div hfree htree hlast (text_descend_ne_empty hp hfront) h
      by_cases hempty : front = []
      · subst hempty
        exact ⟨loc, t, by simp, hstat⟩
      · obtain ⟨base, t', rfl, hbase⟩ := ih hempty hfront hstat
        exact ⟨base, t', by simp, hbase⟩

/-- A file lies below a path: the path leads to a directory, and the names lead from there to the
file. -/
def FileBelow (w : World) (root : Path) (names : List String) : Prop :=
  names ≠ [] ∧ ∃ loc t, w.stat root = .ok (loc, .dir t) ∧
    (w.node? (names.reverse ++ loc)).any Node.isFile = true

theorem FileBelow.names (htree : w.IsTree) {root : Path} {names : List String}
    (h : w.FileBelow root names) : ∀ name ∈ names, EntryName name := by
  obtain ⟨-, loc, t, -, hfile⟩ := h
  obtain ⟨node, hnode, -⟩ := (Option.any_eq_true _ _).1 hfile
  intro name hname
  exact htree.names hnode name (List.mem_reverse.2 hname)

/-- Asking whether a path is a file finds those below a root whose text is not too long. -/
theorem isFile_descend_iff (hfree : w.LinkFree) (htree : w.IsTree) {root : Path}
    {names : List String} (hroot : root.text ≠ "") (hne : names ≠ [])
    (hnames : ∀ name ∈ names, Path.IsName name) :
    w.isFile (root.descend names) = true ↔
      w.FileBelow root names ∧ (root.descend names).text.length < pathLimit := by
  constructor
  · intro h
    obtain ⟨place, node, hstat, hfile⟩ := isFile_eq_true_iff.1 h
    obtain ⟨loc, t, rfl, hbase⟩ := exists_of_stat_descend hfree htree hroot hne hnames hstat
    refine ⟨⟨hne, loc, t, hbase, ?_⟩, (askable_of_stat hstat).short⟩
    rw [(stat_eq_ok.1 hstat).2]
    exact hfile
  · rintro ⟨⟨-, loc, t, hbase, hfile⟩, hshort⟩
    obtain ⟨node, hnode, hisFile⟩ := (Option.any_eq_true _ _).1 hfile
    exact isFile_eq_true_iff.2 ⟨_, node, stat_descend hfree htree hbase hnode hshort, hisFile⟩

end World

end ClojureBuild
