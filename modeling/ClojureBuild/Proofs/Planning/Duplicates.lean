import ClojureBuild.Proofs.Planning.Plan
/-!
Which duplicate ends a plan.

Two loops look for clashes.  The survey asks which roots hold the source file of a requested unit;
the mirroring asks which place below the target a file claims.  Main statements: each loop names the
first clash in its own order, and the mirroring clashes exactly when two positions of the roots show
a source that is not compiled at the same names.  A root spelled `-` shows nothing.
-/

namespace ClojureBuild

/-! ### Two positions, and the first element -/

section Lists

variable {α : Type} {P : α → Prop} {x y : α} {xs : List α}

/-- Two positions of a list hold elements with a property. -/
def HeldTwice (P : α → Prop) (xs : List α) : Prop :=
  ∃ i j : Fin xs.length, i < j ∧ P xs[i] ∧ P xs[j]

theorem heldTwice_iff_not_pairwise :
    HeldTwice P xs ↔ ¬ xs.Pairwise fun x y => ¬ (P x ∧ P y) := by
  rw [List.pairwise_iff_getElem]
  constructor
  · rintro ⟨i, j, hlt, hboth⟩ hnone
    exact hnone i j i.isLt j.isLt hlt hboth
  · intro hsome
    by_contra hnone
    refine hsome fun i j hi hj hlt hboth => hnone ?_
    exact ⟨⟨i, hi⟩, ⟨j, hj⟩, hlt, hboth⟩

/-- An element is the first of a list that has a property. -/
def FirstIn (P : α → Prop) (xs : List α) (x : α) : Prop :=
  P x ∧ ∃ front back, xs = front ++ x :: back ∧ ∀ y ∈ front, ¬ P y

theorem firstIn_cons_of_pos (hx : P x) : FirstIn P (x :: xs) y ↔ y = x := by
  constructor
  · rintro ⟨-, front, back, heq, hfront⟩
    cases front with
    | nil => exact (List.cons.inj heq).1.symm
    | cons first rest =>
        have hfirst := (List.cons.inj heq).1
        exact absurd (hfirst ▸ hx) (hfront first List.mem_cons_self)
  · rintro rfl
    exact ⟨hx, [], xs, rfl, by simp⟩

theorem firstIn_cons_of_neg (hx : ¬ P x) : FirstIn P (x :: xs) y ↔ FirstIn P xs y := by
  constructor
  · rintro ⟨hy, front, back, heq, hfront⟩
    cases front with
    | nil =>
        have hfirst := (List.cons.inj heq).1
        exact absurd (hfirst ▸ hy) hx
    | cons first rest =>
        exact ⟨hy, rest, back, (List.cons.inj heq).2,
          fun z hz => hfront z (List.mem_cons_of_mem first hz)⟩
  · rintro ⟨hy, front, back, rfl, hfront⟩
    refine ⟨hy, x :: front, back, rfl, fun z hz => ?_⟩
    rcases List.mem_cons.1 hz with rfl | hz
    · exact hx
    · exact hfront z hz

theorem exists_firstIn_iff : (∃ x, FirstIn P xs x) ↔ ∃ x ∈ xs, P x := by
  induction xs with
  | nil =>
      constructor
      · rintro ⟨x, -, front, back, heq, -⟩
        exact absurd heq (by simp)
      · rintro ⟨x, hx, -⟩
        exact absurd hx List.not_mem_nil
  | cons x rest ih =>
      by_cases hx : P x
      · simp [firstIn_cons_of_pos hx, hx]
      · simpa [firstIn_cons_of_neg hx, hx] using ih

end Lists

/-! ### The survey -/

/-- A unit has its source file below two positions of the roots. -/
def World.HoldsTwice (w : World) (roots : List Path) (u : UnitId) : Prop :=
  HeldTwice (fun root => w.isFile (u.sourceFile root) = true) roots

theorem World.holdsTwice_iff {w : World} {roots : List Path} {u : UnitId} :
    w.HoldsTwice roots u ↔ ¬ (holders w u roots).length ≤ 1 := by
  rw [HoldsTwice, heldTwice_iff_not_pairwise, holders, length_filter_le_one_iff]

/-- A survey ends with the first unit that has its source below two roots. -/
theorem Survey.failure_eq_some_iff {w : World} {roots : List Path} {units : List UnitId}
    {e : BuildError} :
    (ofUnits w roots units).failure = some e ↔
      ∃ u, FirstIn (w.HoldsTwice roots) units u ∧ e = .duplicateNamespace u := by
  induction units with
  | nil =>
      constructor
      · intro h
        exact absurd h (by simp [ofUnits])
      · rintro ⟨u, ⟨-, front, back, heq, -⟩, -⟩
        exact absurd heq (by simp)
  | cons unit rest ih =>
      by_cases hone : (holders w unit roots).length ≤ 1
      · have hnot : ¬ w.HoldsTwice roots unit := by
          rw [World.holdsTwice_iff]
          exact not_not_intro hone
        rw [ofUnits, locate_eq_ok hone]
        simpa only [firstIn_cons_of_neg hnot] using ih
      · have htwice : w.HoldsTwice roots unit := World.holdsTwice_iff.2 hone
        rw [ofUnits, locate_eq_error hone]
        simp only [firstIn_cons_of_pos htwice, exists_eq_left, Option.some.injEq]
        exact eq_comm

theorem Survey.failure_eq_none_iff_not_holdsTwice {w : World} {roots : List Path}
    {units : List UnitId} :
    (ofUnits w roots units).failure = none ↔ ∀ u ∈ units, ¬ w.HoldsTwice roots u := by
  simp only [failure_eq_none_iff, World.holdsTwice_iff, not_not]

/-! ### The mirroring -/

/-- A root shows a Clojure file at these names, and its unit is not compiled.  What is spelled `-`
is no place for a walk, and a walk opens directories by their paths. -/
def World.Mirrors (w : World) (done : List UnitId) (names : List String) (root : Path) : Prop :=
  root.same ⟨"-"⟩ = false ∧ w.ClojureBelow root names ∧ World.Opens root names ∧
    ∃ u, unitOf root (root.descend names) = some u ∧ u ∉ done

namespace Mirror

variable {w : World} {done : List UnitId} {target : Path} {roots : List Path}

/-- A copy is the first of a list that goes to a place which an earlier one has claimed. -/
def FirstClaimed (copies : List MirrorCopy) (c : MirrorCopy) : Prop :=
  ∃ front back, copies = front ++ c :: back ∧ front.Pairwise Apart ∧
    ∃ d ∈ front, d.target.same c.target = true

/-- The unit of the first copy of a list that goes to a place which is claimed from the start or by
an earlier copy. -/
def FirstClash (claimed : List Path) (copies : List MirrorCopy) (u : UnitId) : Prop :=
  ∃ front c back, copies = front ++ c :: back ∧ c.unit = u ∧ front.Pairwise Apart ∧
    (∀ p ∈ claimed, ∀ d ∈ front, p.same d.target = false) ∧
      ((∃ p ∈ claimed, p.same c.target = true) ∨ ∃ d ∈ front, d.target.same c.target = true)

theorem not_firstClash_nil {claimed : List Path} {u : UnitId} : ¬ FirstClash claimed [] u := by
  rintro ⟨front, c, back, heq, -⟩
  exact absurd heq (by simp)

theorem firstClash_cons_of_taken {claimed : List Path} {c : MirrorCopy} {rest : List MirrorCopy}
    {u : UnitId} (htaken : ∃ p ∈ claimed, p.same c.target = true) :
    FirstClash claimed (c :: rest) u ↔ c.unit = u := by
  constructor
  · rintro ⟨front, c', back, heq, rfl, -, hclear, -⟩
    cases front with
    | nil => exact congrArg MirrorCopy.unit (List.cons.inj heq).1
    | cons first others =>
        obtain ⟨p, hp, hsame⟩ := htaken
        obtain rfl := (List.cons.inj heq).1
        have hapart := hclear p hp c List.mem_cons_self
        exact absurd (hsame.symm.trans hapart) (by simp)
  · rintro rfl
    exact ⟨[], c, rest, rfl, rfl, List.Pairwise.nil, by simp, Or.inl htaken⟩

/-- The place of a copy in front counts as claimed from then on. -/
theorem firstClash_cons_of_free {claimed : List Path} {c : MirrorCopy} {rest : List MirrorCopy}
    {u : UnitId} (hfree : ∀ p ∈ claimed, p.same c.target = false) :
    FirstClash claimed (c :: rest) u ↔ FirstClash (c.target :: claimed) rest u := by
  constructor
  · rintro ⟨front, c', back, heq, hunit, hpairs, hclear, hclash⟩
    cases front with
    | nil =>
        obtain rfl := (List.cons.inj heq).1
        rcases hclash with ⟨p, hp, hsame⟩ | ⟨d, hd, -⟩
        · exact absurd (hsame.symm.trans (hfree p hp)) (by simp)
        · exact absurd hd List.not_mem_nil
    | cons first others =>
        obtain ⟨rfl, hrest⟩ := List.cons.inj heq
        obtain ⟨hfirst, hothers⟩ := List.pairwise_cons.1 hpairs
        refine ⟨others, c', back, hrest, hunit, hothers, fun p hp d hd => ?_, ?_⟩
        · rcases List.mem_cons.1 hp with rfl | hp
          · exact hfirst d hd
          · exact hclear p hp d (List.mem_cons_of_mem _ hd)
        · rcases hclash with ⟨p, hp, hsame⟩ | ⟨d, hd, hsame⟩
          · exact Or.inl ⟨p, List.mem_cons_of_mem _ hp, hsame⟩
          · rcases List.mem_cons.1 hd with rfl | hd
            · exact Or.inl ⟨d.target, List.mem_cons_self, hsame⟩
            · exact Or.inr ⟨d, hd, hsame⟩
  · rintro ⟨front, c', back, heq, hunit, hpairs, hclear, hclash⟩
    have hfirst : ∀ d ∈ front, Apart c d := hclear c.target List.mem_cons_self
    refine ⟨c :: front, c', back, by rw [heq, List.cons_append], hunit,
      List.pairwise_cons.2 ⟨hfirst, hpairs⟩, fun p hp d hd => ?_, ?_⟩
    · rcases List.mem_cons.1 hd with rfl | hd
      · exact hfree p hp
      · exact hclear p (List.mem_cons_of_mem _ hp) d hd
    · rcases hclash with ⟨p, hp, hsame⟩ | ⟨d, hd, hsame⟩
      · rcases List.mem_cons.1 hp with rfl | hp
        · exact Or.inr ⟨c, List.mem_cons_self, hsame⟩
        · exact Or.inl ⟨p, hp, hsame⟩
      · exact Or.inr ⟨d, List.mem_cons_of_mem c hd, hsame⟩

/-- Steps end with the first copy that clashes. -/
theorem duplicate_takeSteps_eq_some_iff {claimed : List Path} {steps : List MirrorStep}
    {u : UnitId} :
    (takeSteps claimed steps).duplicate = some u ↔
      FirstClash claimed (steps.filterMap MirrorStep.copy?) u := by
  induction steps generalizing claimed with
  | nil => exact ⟨fun h => absurd h (by simp [takeSteps]), fun h => absurd h not_firstClash_nil⟩
  | cons step rest ih =>
      cases step with
      | aside s => exact ih
      | copy c =>
          rw [filterMap_copy?_cons]
          by_cases htaken : claimed.any (·.same c.target) = true
          · rw [takeSteps_taken rest htaken, Option.some.injEq]
            exact (firstClash_cons_of_taken (List.any_eq_true.1 htaken)).symm
          · have hfree : ∀ p ∈ claimed, p.same c.target = false := by simpa using htaken
            rw [takeSteps_free rest htaken]
            exact ih.trans (firstClash_cons_of_free hfree).symm

/-- A mirroring ends with the first copy whose place an earlier one has claimed. -/
theorem duplicate_eq_some_iff {u : UnitId} :
    (ofRoots w done target roots).duplicate = some u ↔
      ∃ c, FirstClaimed (roots.flatMap (askedBelow w done target)) c ∧ c.unit = u := by
  rw [ofRoots, duplicate_takeSteps_eq_some_iff, filterMap_copy?_allSteps]
  constructor
  · rintro ⟨front, c, back, heq, hunit, hpairs, -, hclash⟩
    refine ⟨c, ⟨front, back, heq, hpairs, ?_⟩, hunit⟩
    exact hclash.resolve_left (by simp)
  · rintro ⟨c, ⟨front, back, heq, hpairs, hclash⟩, hunit⟩
    exact ⟨front, c, back, heq, hunit, hpairs, by simp, Or.inr hclash⟩

theorem askedBelow_eq_nil {root : Path} (h : root.same ⟨"-"⟩ = true) :
    askedBelow w done target root = [] := by
  have hnothing : w.filesUnder true root = [] := by
    rw [World.filesUnder, World.walk, if_pos h]
    rfl
  rw [askedBelow, hnothing]
  rfl

/-- The copies below a root are those of the files that it shows. -/
theorem mem_askedBelow_iff_mirrors (hfree : w.LinkFree) (htree : w.IsTree) {root : Path}
    (hroot : root.text ≠ "") {c : MirrorCopy} :
    c ∈ askedBelow w done target root ↔
      ∃ names, w.Mirrors done names root ∧ unitOf root (root.descend names) = some c.unit ∧
        c.source = root.descend names ∧ c.target = target.descend names := by
  cases hplace : root.same ⟨"-"⟩ with
  | true =>
      rw [askedBelow_eq_nil hplace]
      simp [World.Mirrors, hplace]
  | false =>
      rw [mem_askedBelow_iff hfree htree ⟨hroot, hplace⟩]
      constructor
      · rintro ⟨names, u, hbelow, hopens, hunit, hmem, rfl⟩
        exact ⟨names, ⟨hplace, hbelow, hopens, u, hunit, hmem⟩, hunit, rfl, rfl⟩
      · rintro ⟨names, ⟨-, hbelow, hopens, u, hunit, hmem⟩, hsame, hsource, htarget⟩
        rw [hunit, Option.some.injEq] at hsame
        refine ⟨names, u, hbelow, hopens, hunit, hmem, ?_⟩
        rw [hsame, ← hsource, ← htarget]

theorem descend_same_iff_of_mirrors (htree : w.IsTree) {root root' : Path}
    {names names' : List String} (h : w.Mirrors done names root)
    (h' : w.Mirrors done names' root') :
    (target.descend names).same (target.descend names') = true ↔ names = names' :=
  Path.descend_same_iff target (fun name hname => (h.2.1.1.names htree name hname).toIsName)
    (fun name hname => (h'.2.1.1.names htree name hname).toIsName)

/-- A mirroring meets no duplicate when no names are shown by two positions of the roots. -/
theorem duplicate_eq_none_iff_mirrors (hfree : w.LinkFree) (htree : w.IsTree)
    (hroots : ∀ root ∈ roots, root.text ≠ "") :
    (ofRoots w done target roots).duplicate = none ↔
      ∀ names, ¬ HeldTwice (w.Mirrors done names) roots := by
  have hwithin : ∀ root ∈ roots, (askedBelow w done target root).Pairwise Apart :=
    fun root _ => pairwise_askedBelow htree root
  rw [duplicate_eq_none_iff, List.pairwise_flatMap, and_iff_right hwithin]
  constructor
  · rintro hapart names ⟨i, j, hlt, hmirrors, hmirrors'⟩
    obtain ⟨-, -, -, u, hunit, -⟩ := id hmirrors
    obtain ⟨-, -, -, u', hunit', -⟩ := id hmirrors'
    have hc : (⟨u, _, _⟩ : MirrorCopy) ∈ askedBelow w done target roots[i] :=
      (mem_askedBelow_iff_mirrors hfree htree (hroots _ (List.getElem_mem i.isLt))).2
        ⟨names, hmirrors, hunit, rfl, rfl⟩
    have hc' : (⟨u', _, _⟩ : MirrorCopy) ∈ askedBelow w done target roots[j] :=
      (mem_askedBelow_iff_mirrors hfree htree (hroots _ (List.getElem_mem j.isLt))).2
        ⟨names, hmirrors', hunit', rfl, rfl⟩
    have hdifferent := List.pairwise_iff_getElem.1 hapart i j i.isLt j.isLt hlt _ hc _ hc'
    exact absurd ((descend_same_iff_of_mirrors htree hmirrors hmirrors').2 rfl)
      (Bool.eq_false_iff.1 hdifferent)
  · intro hclash
    rw [List.pairwise_iff_getElem]
    intro i j hi hj hlt c hc c' hc'
    obtain ⟨names, hmirrors, -, -, htarget⟩ :=
      (mem_askedBelow_iff_mirrors hfree htree (hroots _ (List.getElem_mem hi))).1 hc
    obtain ⟨names', hmirrors', -, -, htarget'⟩ :=
      (mem_askedBelow_iff_mirrors hfree htree (hroots _ (List.getElem_mem hj))).1 hc'
    rw [Apart, Bool.eq_false_iff, htarget, htarget', ne_eq,
      descend_same_iff_of_mirrors htree hmirrors hmirrors']
    rintro rfl
    exact hclash names ⟨⟨i, hi⟩, ⟨j, hj⟩, hlt, hmirrors, hmirrors'⟩

end Mirror

end ClojureBuild
