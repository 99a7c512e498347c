import ClojureBuild.Proofs.Planning.Registration
/-!
Registering the mirrored sources.

A candidate is a source file below a root whose unit is not done, with its path from that root.  The
registration takes the candidates in order and claims a place for each.  Main statements:
registration is the mirroring of a plan; if the relative paths of the candidates differ it adds one
copy for each of them, and otherwise it ends at the first whose path an earlier candidate has, which
belongs to an earlier position of the roots.
-/

namespace ClojureBuild

/-- A list that is not pairwise related has a front that is, and an element right behind it that
some element of the front is not related to. -/
theorem exists_front_of_not_pairwise {α : Type} {R : α → α → Prop} {xs : List α}
    (h : ¬ xs.Pairwise R) :
    ∃ front x back, xs = front ++ x :: back ∧ front.Pairwise R ∧ ∃ y ∈ front, ¬ R y x := by
  induction xs using List.reverseRecOn with
  | nil => exact absurd List.Pairwise.nil h
  | append_singleton rest last ih =>
      by_cases hrest : rest.Pairwise R
      · refine ⟨rest, last, [], rfl, hrest, ?_⟩
        by_contra hnone
        push Not at hnone
        have hlast : ∀ y ∈ rest, ∀ z ∈ [last], R y z := by simpa using hnone
        exact h (List.pairwise_append.2 ⟨hrest, List.pairwise_singleton R last, hlast⟩)
      · obtain ⟨front, x, back, rfl, hfront, hclash⟩ := ih hrest
        exact ⟨front, x, back ++ [last], by simp, hfront, hclash⟩

variable {ε : Type}

/-! ### Claiming places -/

/-- The rule that makes a copy. -/
def MirrorCopy.rule (c : MirrorCopy) : Rules.Rule := ⟨c.target, c.source, .copy⟩

namespace Mirror

/-- Copies to different places, none of them claimed, are registered in order, and their places are
claimed from then on. -/
theorem claimCopies_append {claimed : List Path} {front : List MirrorCopy}
    (hapart : front.Pairwise Apart)
    (hfree : ∀ p ∈ claimed, ∀ c ∈ front, p.same c.target = false) (back : List MirrorCopy)
    (g : Rules.Graph ε) :
    claimCopies claimed (front ++ back) g =
      claimCopies (front.reverse.map MirrorCopy.target ++ claimed) back
        (g.addRules (front.map MirrorCopy.rule)) := by
  induction front generalizing claimed g with
  | nil => simp [Rules.Graph.addRules]
  | cons c rest ih =>
      obtain ⟨hfirst, hrest⟩ := List.pairwise_cons.1 hapart
      have hnone : ¬ claimed.any (·.same c.target) = true := by
        simpa using fun p hp => hfree p hp c List.mem_cons_self
      have hfree' : ∀ p ∈ c.target :: claimed, ∀ d ∈ rest, p.same d.target = false := by
        intro p hp d hd
        rcases List.mem_cons.1 hp with rfl | hp
        · exact hfirst d hd
        · exact hfree p hp d (List.mem_cons_of_mem c hd)
      rw [List.cons_append, claimCopies, if_neg hnone, ih hrest hfree']
      simp [Rules.Graph.copy, Rules.Graph.addRules, MirrorCopy.rule]

/-- Claiming places is taking the steps of a mirroring. -/
theorem claimCopies_eq (claimed : List Path) (steps : List MirrorStep) (g : Rules.Graph ε) :
    claimCopies claimed (steps.filterMap MirrorStep.copy?) g =
      ((takeSteps claimed steps).result.map (claimed.length + ·),
        g.addRules (takeSteps claimed steps).rules) := by
  induction steps generalizing claimed g with
  | nil => simp [takeSteps, claimCopies, result, copies, rules, Rules.Graph.addRules, Except.map]
  | cons step rest ih =>
      cases step with
      | aside s => exact ih claimed g
      | copy c =>
          rw [filterMap_copy?_cons, claimCopies]
          by_cases htaken : claimed.any (·.same c.target) = true
          · rw [if_pos htaken, takeSteps_taken rest htaken]
            simp [result, copies, rules, Rules.Graph.addRules, Except.map]
          · rw [if_neg htaken, takeSteps_free rest htaken, ih]
            refine Prod.ext ?_ ?_
            · rw [result, result]
              cases (takeSteps (c.target :: claimed) rest).duplicate with
              | some unit => rfl
              | none =>
                  exact congrArg Except.ok (Nat.succ_add_eq_add_succ claimed.length _)
            · simp [rules, copies, filterMap_copy?_cons, Rules.Graph.copy, Rules.Graph.addRules]

end Mirror

/-- Registration is the mirroring, whose rules come behind those of the graph. -/
theorem registerCopies_eq (w : World) (roots : List Path) (done : List UnitId) (target : Path)
    (g : Rules.Graph ε) :
    registerCopies w roots done target g =
      ((Mirror.ofRoots w done target roots).result,
        g.addRules (Mirror.ofRoots w done target roots).rules) := by
  rw [registerCopies]
  change claimCopies [] (roots.flatMap (Mirror.askedBelow w done target)) g = _
  rw [← Mirror.filterMap_copy?_allSteps, Mirror.claimCopies_eq, Mirror.ofRoots]
  cases (Mirror.takeSteps [] (Mirror.allSteps w done target roots)).result with
  | error e => rfl
  | ok n => simp [Except.map]

theorem Planned.graph_eq_registered {w : World} {o : CompileOptions} {request : CompileRequest}
    {plan : CompilePlan} (hplan : Planned w o request plan) (run : Runner) :
    plan.graph run =
      (registerCopies w (sourceRoots w request.sources) plan.libs plan.target
        (register w (sourceRoots w request.sources) plan.target 0 plan.libs
          (Rules.Graph.empty.addAction
            (compileAction run plan.invocation plan.target)).1).2).2 := by
  rw [hplan.graph_eq run, registerCopies_eq, hplan.mirror]

/-! ### Candidates -/

/-- A source that is to be copied: the position of its root, its unit, its file and the path of the
file from that root. -/
structure Candidate where
  position : Nat
  unit : UnitId
  source : Path
  relative : Path

namespace Candidate

/-- The copy that a candidate asks for. -/
def copy (target : Path) (c : Candidate) : MirrorCopy :=
  ⟨c.unit, c.source, target.join c.relative⟩

/-- Two candidates have different paths below their roots. -/
def Differ (c d : Candidate) : Prop := c.relative.same d.relative = false

end Candidate

namespace World

variable (w : World) (done : List UnitId)

/-- The candidates below a root, in the order of the walk, which shows hidden names too. -/
def candidatesBelow (root : Path) (position : Nat) : List Candidate :=
  (w.filesUnder true root).filterMap fun file => do
    let unit ← unitOf root file
    let relative ← Path.below? root file
    if unit ∈ done then none else some ⟨position, unit, file, relative⟩

/-- The candidates below all roots, root by root. -/
def candidates (roots : List Path) : List Candidate :=
  roots.zipIdx.flatMap fun (root, position) => w.candidatesBelow done root position

end World

namespace World

variable {w : World} {done : List UnitId} {roots : List Path}

theorem map_copy_candidatesBelow (target root : Path) (position : Nat) :
    (w.candidatesBelow done root position).map (Candidate.copy target) =
      Mirror.askedBelow w done target root := by
  rw [candidatesBelow, List.map_filterMap, Mirror.askedBelow]
  refine congrArg (List.filterMap · _) (funext fun file => ?_)
  rw [MirrorCopy.ofFile?]
  cases unitOf root file with
  | none => rfl
  | some unit =>
      cases hbelow : Path.below? root file with
      | none => simp
      | some relative =>
          by_cases hdone : unit ∈ done
          · simp [hdone]
          · simp [hdone, Candidate.copy]

theorem map_copy_candidates (target : Path) :
    (w.candidates done roots).map (Candidate.copy target) =
      roots.flatMap (Mirror.askedBelow w done target) := by
  rw [candidates, List.map_flatMap]
  simp only [map_copy_candidatesBelow]
  conv_rhs => rw [← List.zipIdx_map_fst 0 roots, List.flatMap_map]

/-- A candidate is reached from its root by names, and they are its path from there. -/
theorem exists_names_of_mem_candidatesBelow (htree : w.IsTree) (target : Path) {root : Path}
    {position : Nat} {c : Candidate} (hc : c ∈ w.candidatesBelow done root position) :
    c.position = position ∧
      ∃ names, (∀ name ∈ names, Path.IsName name) ∧ c.relative = Path.ofPieces names ∧
        target.join c.relative = target.descend names := by
  obtain ⟨file, hfile, hask⟩ := List.mem_filterMap.1 hc
  obtain ⟨unit, hunit, hrest⟩ := Option.bind_eq_some_iff.1 hask
  obtain ⟨relative, hbelow, hsome⟩ := Option.bind_eq_some_iff.1 hrest
  obtain ⟨names, hne, hnames, rfl⟩ := exists_descend_of_unitOf htree hfile hunit
  rw [Path.below?_descend root hnames hne] at hbelow
  obtain rfl := Option.some.inj hbelow
  obtain rfl := Option.some.inj (Option.ite_none_left_eq_some.1 hsome).2
  exact ⟨rfl, names, hnames, rfl, Path.join_ofPieces target hne hnames⟩

/-- The copies of two candidates go to different places exactly when their paths differ. -/
theorem apart_copy_iff (htree : w.IsTree) (target : Path) {c d : Candidate}
    (hc : c ∈ w.candidates done roots) (hd : d ∈ w.candidates done roots) :
    Mirror.Apart (c.copy target) (d.copy target) ↔ c.Differ d := by
  obtain ⟨⟨root, position⟩, -, hc⟩ := List.mem_flatMap.1 hc
  obtain ⟨⟨root', position'⟩, -, hd⟩ := List.mem_flatMap.1 hd
  obtain ⟨-, names, hnames, hrelative, hplace⟩ :=
    exists_names_of_mem_candidatesBelow htree target hc
  obtain ⟨-, names', hnames', hrelative', hplace'⟩ :=
    exists_names_of_mem_candidatesBelow htree target hd
  rw [Mirror.Apart, Candidate.Differ, Candidate.copy, Candidate.copy, Bool.eq_false_iff,
    Bool.eq_false_iff, hplace, hplace', ne_eq, Path.descend_same_iff target hnames hnames',
    hrelative, hrelative', Path.ofPieces_eq_descend, Path.ofPieces_eq_descend, ne_eq,
    Path.descend_same_iff _ hnames hnames']

/-- Candidates with one path belong to different positions of the roots, in their order. -/
theorem candidates_ordered (htree : w.IsTree) (done : List UnitId) (roots : List Path) :
    (w.candidates done roots).Pairwise fun c d => ¬ c.Differ d → c.position < d.position := by
  rw [candidates, List.pairwise_flatMap]
  constructor
  · rintro ⟨root, position⟩ hroot
    have hapart : (Mirror.askedBelow w done ⟨""⟩ root).Pairwise Mirror.Apart :=
      Mirror.pairwise_askedBelow htree root
    rw [← map_copy_candidatesBelow ⟨""⟩ root position, List.pairwise_map] at hapart
    refine hapart.imp_of_mem fun {c d} hc hd hcd hsame => absurd ?_ hsame
    have hmem : ∀ c ∈ w.candidatesBelow done root position, c ∈ w.candidates done roots :=
      fun c hc => List.mem_flatMap.2 ⟨_, hroot, hc⟩
    exact (apart_copy_iff htree ⟨""⟩ (hmem c hc) (hmem d hd)).1 hcd
  · have hpositions : roots.zipIdx.Pairwise fun entry entry' => entry.2 < entry'.2 := by
      rw [← List.pairwise_map (f := Prod.snd) (R := (· < ·)), List.zipIdx_map_snd]
      exact List.pairwise_lt_range'
    refine hpositions.imp fun hlt c hc d hd _ => ?_
    rw [(exists_names_of_mem_candidatesBelow htree ⟨""⟩ hc).1,
      (exists_names_of_mem_candidatesBelow htree ⟨""⟩ hd).1]
    exact hlt

end World

/-! ### Registering -/

namespace Candidate

/-- The rule for a candidate: its file is copied to its path below the target. -/
def rule (target : Path) (c : Candidate) : Rules.Rule := ⟨target.join c.relative, c.source, .copy⟩

theorem map_rule_copy (target : Path) (cs : List Candidate) :
    (cs.map (copy target)).map MirrorCopy.rule = cs.map (rule target) := by
  rw [List.map_map]
  rfl

end Candidate

section

variable {w : World} {done : List UnitId} {roots : List Path} {target : Path} {g : Rules.Graph ε}

theorem registerCopies_eq_claimCopies :
    registerCopies w roots done target g =
      claimCopies [] ((w.candidates done roots).map (Candidate.copy target)) g := by
  rw [World.map_copy_candidates]
  rfl

theorem World.pairwise_copy (htree : w.IsTree) (target : Path) {front back : List Candidate}
    (heq : w.candidates done roots = front ++ back) (hdiffer : front.Pairwise Candidate.Differ) :
    (front.map (Candidate.copy target)).Pairwise Mirror.Apart := by
  have hmem : ∀ c ∈ front, c ∈ w.candidates done roots :=
    fun c hc => heq ▸ List.mem_append_left back hc
  rw [List.pairwise_map]
  exact hdiffer.imp_of_mem fun hc hd => (apart_copy_iff htree target (hmem _ hc) (hmem _ hd)).2

theorem registerCopies_of_differ (htree : w.IsTree)
    (hdiffer : (w.candidates done roots).Pairwise Candidate.Differ) :
    registerCopies w roots done target g =
      (.ok (w.candidates done roots).length,
        g.addRules ((w.candidates done roots).map (Candidate.rule target))) := by
  have hapart := World.pairwise_copy htree target (List.append_nil _).symm hdiffer
  rw [registerCopies_eq_claimCopies, ← List.append_nil (List.map _ _),
    Mirror.claimCopies_append hapart (by simp), claimCopies, Candidate.map_rule_copy]
  simp

/-- The first candidate with the path of an earlier one ends the registration. -/
theorem registerCopies_of_clash (htree : w.IsTree) {front back : List Candidate} {c d : Candidate}
    (heq : w.candidates done roots = front ++ c :: back)
    (hdiffer : front.Pairwise Candidate.Differ) (hd : d ∈ front) (hclash : ¬ d.Differ c) :
    registerCopies w roots done target g =
      (.error (.duplicateNamespace c.unit), g.addRules (front.map (Candidate.rule target))) := by
  have hapart := World.pairwise_copy htree target heq hdiffer
  have hmem : ∀ x ∈ front ++ [c], x ∈ w.candidates done roots := by
    intro x hx
    rw [heq, List.append_cons]
    exact List.mem_append_left back hx
  have hsame : (d.copy target).target.same (c.copy target).target = true := by
    rw [← World.apart_copy_iff htree target (hmem d (by simp [hd])) (hmem c (by simp)),
      Mirror.Apart, Bool.not_eq_false] at hclash
    exact hclash
  have htaken : ((front.map (Candidate.copy target)).reverse.map MirrorCopy.target ++ []).any
      (·.same (c.copy target).target) = true :=
    List.any_eq_true.2 ⟨(d.copy target).target, by simpa using ⟨d, hd, rfl⟩, hsame⟩
  rw [registerCopies_eq_claimCopies, heq, List.map_append, List.map_cons,
    Mirror.claimCopies_append hapart (by simp), claimCopies, if_pos htaken,
    Candidate.map_rule_copy]
  rfl

end

/-- What registration gives and what it leaves of a graph. -/
structure RegistersCandidates (w : World) (roots : List Path) (done : List UnitId) (target : Path)
    (g : Rules.Graph ε) (result : Except BuildError Nat) (g' : Rules.Graph ε) : Prop where
  actions : g'.actions = g.actions
  /-- If all paths differ, each candidate has its rule. -/
  complete : (w.candidates done roots).Pairwise Candidate.Differ →
    result = .ok (w.candidates done roots).length ∧
      g'.rules = g.rules ++ (w.candidates done roots).map (Candidate.rule target)
  /-- Otherwise the first candidate with the path of an earlier one ends the registration; the
  earlier one belongs to an earlier position. -/
  clash : ¬ (w.candidates done roots).Pairwise Candidate.Differ →
    ∃ front c back, w.candidates done roots = front ++ c :: back ∧
      front.Pairwise Candidate.Differ ∧ (∃ d ∈ front, ¬ d.Differ c) ∧
      (∀ d ∈ front, ¬ d.Differ c → d.position < c.position) ∧
      result = .error (.duplicateNamespace c.unit) ∧
      g'.rules = g.rules ++ front.map (Candidate.rule target)
  /-- What is added goes to different places. -/
  apart : ∃ added, g'.rules = g.rules ++ added ∧
    added.Pairwise fun r r' => r.target.same r'.target = false

/-- Registration adds exactly the rules of the candidates in front of the first whose relative path
an earlier one has, which is its error; without such a candidate it adds and counts them all. -/
theorem registerCopies_exact (w : World) (htree : w.IsTree) (roots : List Path)
    (done : List UnitId) (target : Path) (g : Rules.Graph ε) :
    RegistersCandidates w roots done target g (registerCopies w roots done target g).1
      (registerCopies w roots done target g).2 := by
  have hpairs : ∀ {front back}, w.candidates done roots = front ++ back →
      front.Pairwise Candidate.Differ → (front.map (Candidate.rule target)).Pairwise
        fun r r' => r.target.same r'.target = false := by
    intro front back heq hdiffer
    have hapart := World.pairwise_copy htree target heq hdiffer
    rw [List.pairwise_map] at hapart ⊢
    exact hapart
  by_cases hall : (w.candidates done roots).Pairwise Candidate.Differ
  · rw [registerCopies_of_differ htree hall]
    exact ⟨rfl, fun _ => ⟨rfl, rfl⟩, fun hnot => absurd hall hnot,
      ⟨_, rfl, hpairs (List.append_nil _).symm hall⟩⟩
  · obtain ⟨front, c, back, heq, hfront, d, hd, hclash⟩ := exists_front_of_not_pairwise hall
    have hearlier : ∀ d ∈ front, ¬ d.Differ c → d.position < c.position := by
      have hordered := World.candidates_ordered htree done roots
      rw [heq, List.pairwise_append] at hordered
      exact fun d hd => hordered.2.2 d hd c List.mem_cons_self
    rw [registerCopies_of_clash htree heq hfront hd hclash]
    exact ⟨rfl, fun h => absurd h hall,
      fun _ => ⟨front, c, back, heq, hfront, ⟨d, hd, hclash⟩, hearlier, rfl, rfl⟩,
      ⟨_, rfl, hpairs heq hfront⟩⟩

/-- A tree in which two roots hold a file of one name, and one of them a hidden file. -/
def overlappingRoots : World where
  nodes := [(["a"], .dir 0), ([".gen", "a"], .dir 0),
    (["y.clj", ".gen", "a"], .file ByteArray.empty 0 false),
    (["x.clj", "a"], .file ByteArray.empty 0 false), (["b"], .dir 0),
    (["x.clj", "b"], .file ByteArray.empty 0 false),
    (["z.clj", "b"], .file ByteArray.empty 0 false)]
  cwd := []
  clock := 1

/-- The hidden file and the first of the two are registered, in front of the second. -/
theorem registerCopies_exact_overlapping :
    overlappingRoots.IsTree ∧
      (registerCopies overlappingRoots [⟨"a"⟩, ⟨"b"⟩] [] ⟨"out"⟩
        (Rules.Graph.empty : Rules.Graph Empty)).2.rules =
          [⟨⟨"out/.gen/y.clj"⟩, ⟨"a/.gen/y.clj"⟩, .copy⟩, ⟨⟨"out/x.clj"⟩, ⟨"a/x.clj"⟩, .copy⟩] ∧
      RegistersCandidates overlappingRoots [⟨"a"⟩, ⟨"b"⟩] [] ⟨"out"⟩
        (Rules.Graph.empty : Rules.Graph Empty) (.error (.duplicateNamespace ⟨"x"⟩))
        (registerCopies overlappingRoots [⟨"a"⟩, ⟨"b"⟩] [] ⟨"out"⟩ Rules.Graph.empty).2 := by
  have htree : overlappingRoots.IsTree := by decide +kernel
  have hexact := registerCopies_exact overlappingRoots htree [⟨"a"⟩, ⟨"b"⟩] [] ⟨"out"⟩
    (Rules.Graph.empty : Rules.Graph Empty)
  have hresult : (registerCopies overlappingRoots [⟨"a"⟩, ⟨"b"⟩] [] ⟨"out"⟩
      (Rules.Graph.empty : Rules.Graph Empty)).1 = .error (.duplicateNamespace ⟨"x"⟩) := by
    decide +kernel
  rw [hresult] at hexact
  exact ⟨htree, by decide +kernel, hexact⟩

end ClojureBuild
