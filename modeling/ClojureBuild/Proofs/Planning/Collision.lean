import ClojureBuild.Proofs.Planning.Identifier
import ClojureBuild.Proofs.Planning.Partition
import ClojureBuild.Proofs.Planning.Registration
import Mathlib.Tactic.TFAE
/-!
Identifiers that meet.

In a path `_` is written for `-`, so two identifiers go to one place exactly when they differ in
nothing else, and then below every root and every target.  Main statement: this is the only way to
meet.  So the rules for distinct identifiers without `_` have distinct targets, and a copy, which
keeps the extension of its source, goes to none of them.
-/

namespace ClojureBuild

namespace UnitId

variable {u v : UnitId}

theorem toPath_eq_iff (hu : '/' ∉ u.text.toList) (hv : '/' ∉ v.text.toList) :
    u.toPath = v.toPath ↔ u.hyphenated = v.hyphenated := by
  constructor
  · intro h
    rw [← ofPath_toPath_eq hu, ← ofPath_toPath_eq hv, h]
  · intro h
    rw [← toPath_hyphenated u, ← toPath_hyphenated v, h]

/-- The places of two identifiers, below one root and one target, agree together, as texts and by
their components, and they agree exactly when the identifiers do so up to underscores. -/
theorem places_tfae (hu : Dotted u.text) (hv : Dotted v.text) (root target : Path) :
    [u.sourceFile root = v.sourceFile root, (u.sourceFile root).same (v.sourceFile root) = true,
      u.initArtifact target = v.initArtifact target,
      (u.initArtifact target).same (v.initArtifact target) = true,
      u.hyphenated = v.hyphenated].TFAE := by
  obtain ⟨n, hn⟩ := SourceName.exists_segments hu
  obtain ⟨n', hn'⟩ := SourceName.exists_segments hv
  have hnames : n = n' ↔ u.hyphenated = v.hyphenated := by
    rw [← toPath_eq_iff hu.noSlash hv.noSlash]
    constructor
    · rintro rfl
      rw [← Text.joinStrings_splitString '/' u.toPath, ← hn, hn', Text.joinStrings_splitString]
    · intro h
      apply SourceName.ext_segments
      rw [hn, hn', h]
  have hsame : ∀ p q : Path, p = q → p.same q = true := by
    rintro p q rfl
    exact beq_self_eq_true _
  -- both places are descents, and each of them spells the names
  rw [← hnames, sourceFile_eq hn, sourceFile_eq hn', initArtifact_eq hn, initArtifact_eq hn']
  tfae_have 1 → 2 := hsame _ _
  tfae_have 2 → 5 := fun h =>
    SourceName.file_injective ((Path.descend_same_iff root n.file_isName n'.file_isName).1 h)
  tfae_have 3 → 4 := hsame _ _
  tfae_have 4 → 5 := fun h =>
    SourceName.loader_injective
      ((Path.descend_same_iff target n.loader_isName n'.loader_isName).1 h)
  tfae_have 5 → 1 := by
    rintro rfl
    rfl
  tfae_have 5 → 3 := by
    rintro rfl
    rfl
  tfae_finish

theorem initArtifact_apart (hu : Dotted u.text) (hv : Dotted v.text) (hunder : '_' ∉ u.text.toList)
    (hunder' : '_' ∉ v.text.toList) (hne : u ≠ v) (target : Path) :
    (u.initArtifact target).same (v.initArtifact target) = false := by
  rw [Bool.eq_false_iff]
  intro hsame
  have hhyphens := ((places_tfae hu hv target target).out 3 4).1 hsame
  rw [hyphenated_eq_self hunder, hyphenated_eq_self hunder'] at hhyphens
  exact hne hhyphens

end UnitId

/-! ### Copies -/

namespace Mirror

variable {w : World} {done : List UnitId} {target : Path} {roots : List Path} {c : MirrorCopy}

/-- The steps that are taken are the first of all steps. -/
theorem steps_takeSteps_front (claimed : List Path) (steps : List MirrorStep) :
    (takeSteps claimed steps).steps <+: steps := by
  induction steps generalizing claimed with
  | nil => exact List.nil_prefix
  | cons step rest ih =>
      cases step with
      | aside s => exact List.cons_prefix_cons.2 ⟨rfl, ih claimed⟩
      | copy c =>
          by_cases htaken : claimed.any (·.same c.target) = true
          · rw [takeSteps_taken rest htaken]
            exact List.nil_prefix
          · rw [takeSteps_free rest htaken]
            exact List.cons_prefix_cons.2 ⟨rfl, ih (c.target :: claimed)⟩

theorem exists_of_mem_copies (hc : c ∈ (ofRoots w done target roots).copies) :
    ∃ root ∈ roots, c ∈ askedBelow w done target root := by
  have hall : c ∈ (allSteps w done target roots).filterMap MirrorStep.copy? :=
    ((steps_takeSteps_front [] _).filterMap MirrorStep.copy?).subset hc
  rw [filterMap_copy?_allSteps, List.mem_flatMap] at hall
  exact hall

theorem exists_names_of_mem_askedBelow (htree : w.IsTree) {root : Path}
    (hc : c ∈ askedBelow w done target root) :
    ∃ names, (∀ name ∈ names, Path.IsName name) ∧ c.target = target.descend names ∧
      hasExtension UnitId.sourceExtension (root.descend names) = true := by
  obtain ⟨p, hp, hask⟩ := List.mem_filterMap.1 hc
  obtain ⟨names, hnames, rfl, htarget⟩ := exists_descend_of_ofFile? htree hp hask
  obtain ⟨u, -, hunit, -⟩ := ofFile?_eq_some_iff.1 hask
  exact ⟨names, hnames, htarget, hasExtension_of_unitOf hunit⟩

end Mirror

theorem SourceName.extension?_loader (n : SourceName) (root : Path) :
    (root.descend n.loader).extension? = some "class" := by
  have htext : (n.base ++ "__init.class").toList =
      (n.base ++ "__init").toList ++ '.' :: "class".toList := by simp
  rw [loader, Path.descend_concat]
  exact Path.extension?_div_of_append _ (n.plain_base.append (by decide)) (by simp) (by decide)
    htext

/-- No copy goes to the loader of an identifier. -/
theorem UnitId.initArtifact_apart_copy {u : UnitId} (hu : Dotted u.text) {w : World}
    (htree : w.IsTree) {done : List UnitId} {target : Path} {roots : List Path} {c : MirrorCopy}
    (hc : c ∈ (Mirror.ofRoots w done target roots).copies) :
    (u.initArtifact target).same c.target = false := by
  obtain ⟨n, hn⟩ := SourceName.exists_segments hu
  obtain ⟨root, -, hasked⟩ := Mirror.exists_of_mem_copies hc
  obtain ⟨names, hnames, htarget, hext⟩ := Mirror.exists_names_of_mem_askedBelow htree hasked
  rw [Bool.eq_false_iff, initArtifact_eq hn, htarget, ne_eq,
    Path.descend_same_iff target n.loader_isName hnames]
  -- a copy has the extension of its source, and a loader another one
  rintro rfl
  rw [hasExtension, n.extension?_loader] at hext
  exact absurd hext (by decide)

/-! ### The rules of a request -/

/-- What is found of a unit carries its identifier. -/
theorem id_of_findUnit? {w : World} {roots : List Path} {unit : UnitId} {x : LocatedUnit}
    (h : findUnit? w roots unit = some x) : x.id = unit := by
  rw [findUnit?] at h
  cases hlocate : locate w roots unit with
  | error e =>
      rw [hlocate] at h
      exact absurd h (by simp [Except.toOption])
  | ok found =>
      rw [hlocate] at h
      obtain rfl : found = some x := h
      rw [(((locatesByCount w roots unit).some_iff x).1 hlocate).2.2.2]

namespace Survey

variable {w : World} {roots : List Path} {units : List UnitId} {target : Path} {action : Nat}

theorem exists_of_mem_rules {r : Rules.Rule}
    (hr : r ∈ (ofUnits w roots units).rules target action) :
    ∃ u ∈ units, r.target = u.initArtifact target := by
  obtain ⟨x, hx, rfl⟩ := List.mem_map.1 hr
  rw [located_eq_takeWhile] at hx
  obtain ⟨u, hu, hfound⟩ := List.mem_filterMap.1 hx
  refine ⟨u, (List.takeWhile_prefix _).subset hu, ?_⟩
  rw [target_ruleFor, id_of_findUnit? hfound]

theorem pairwise_rules (h : units.Pairwise fun u v =>
      (u.initArtifact target).same (v.initArtifact target) = false) :
    ((ofUnits w roots units).rules target action).Pairwise fun r r' =>
      r.target.same r'.target = false := by
  rw [rules, List.pairwise_map, located_eq_takeWhile, List.pairwise_filterMap]
  refine (h.sublist (List.takeWhile_sublist _)).imp fun hapart x hx y hy => ?_
  rw [target_ruleFor, target_ruleFor, id_of_findUnit? hx, id_of_findUnit? hy]
  exact hapart

end Survey

/-- The rules that registration adds to a graph go to different places, and no copy below the same
target goes to any of them. -/
def RegistersApart {ε : Type} (target : Path) (g g' : Rules.Graph ε) : Prop :=
  ∃ added, g' = g.addRules added ∧
    added.Pairwise (fun r r' => r.target.same r'.target = false) ∧
    ∀ (w : World) (done : List UnitId) (roots : List Path), w.IsTree →
      ∀ r ∈ added, ∀ c ∈ (Mirror.ofRoots w done target roots).rules,
        r.target.same c.target = false

variable {ε : Type}

/-- Two identifiers have one source file, and one loader, exactly when they agree up to underscores.
So distinct identifiers without `_` are registered with targets apart, also from all copies. -/
theorem places_collide_iff :
    (∀ (text text' : String) (u v : UnitId), UnitId.parse text = .ok u →
      UnitId.parse text' = .ok v →
      ∀ root target : Path,
        [u.sourceFile root = v.sourceFile root,
          (u.sourceFile root).same (v.sourceFile root) = true,
          u.initArtifact target = v.initArtifact target,
          (u.initArtifact target).same (v.initArtifact target) = true,
          u.hyphenated = v.hyphenated].TFAE) ∧
    ∀ (w : World) (roots : List Path) (target : Path) (action : Nat) (units : List UnitId)
      (g : Rules.Graph ε), units.Nodup →
      (∀ u ∈ units, (∃ text, UnitId.parse text = .ok u) ∧ '_' ∉ u.text.toList) →
      RegistersApart target g (register w roots target action units g).2 := by
  refine ⟨fun text text' u v hu hv root target => UnitId.places_tfae (UnitId.dotted_of_parse hu)
    (UnitId.dotted_of_parse hv) root target, fun w roots target action units g hnodup hunits => ?_⟩
  have hdotted : ∀ u ∈ units, UnitId.Dotted u.text := by
    intro u hu
    obtain ⟨text, hparse⟩ := (hunits u hu).1
    exact UnitId.dotted_of_parse hparse
  have hapart : units.Pairwise fun u v =>
      (u.initArtifact target).same (v.initArtifact target) = false :=
    hnodup.imp_of_mem fun hu hv hne => UnitId.initArtifact_apart (hdotted _ hu) (hdotted _ hv)
      (hunits _ hu).2 (hunits _ hv).2 hne target
  refine ⟨_, congrArg Prod.snd (register_eq w roots target action units g),
    Survey.pairwise_rules hapart, fun w' done roots' htree r hr c hc => ?_⟩
  obtain ⟨u, hu, htarget⟩ := Survey.exists_of_mem_rules hr
  obtain ⟨copy, hcopy, rfl⟩ := List.mem_map.1 hc
  rw [htarget]
  exact UnitId.initArtifact_apart_copy (hdotted u hu) htree hcopy

/-- A tree with three source files, two of which are requested. -/
def threeSources : World where
  nodes := [(["src"], .dir 0), (["a.clj", "src"], .file ByteArray.empty 0 false),
    (["b_c.clj", "src"], .file ByteArray.empty 0 false),
    (["d.clj", "src"], .file ByteArray.empty 0 false)]
  cwd := []
  clock := 1

/-- An underscore and a hyphen lead to one file; two units are compiled and a third is copied, each
to a place of its own. -/
theorem places_collide_iff_three :
    (⟨"b_c"⟩ : UnitId).sourceFile ⟨"src"⟩ = (⟨"b-c"⟩ : UnitId).sourceFile ⟨"src"⟩ ∧
      ((register threeSources [⟨"src"⟩] ⟨"out"⟩ 0 [⟨"a"⟩, ⟨"b-c"⟩]
        (Rules.Graph.empty : Rules.Graph Empty)).2.rules.length,
        (Mirror.ofRoots threeSources [⟨"a"⟩, ⟨"b-c"⟩] ⟨"out"⟩ [⟨"src"⟩]).rules.length) = (2, 1) ∧
      threeSources.IsTree ∧
      RegistersApart ⟨"out"⟩ (Rules.Graph.empty : Rules.Graph Empty)
        (register threeSources [⟨"src"⟩] ⟨"out"⟩ 0 [⟨"a"⟩, ⟨"b-c"⟩] Rules.Graph.empty).2 := by
  obtain ⟨hplaces, hrules⟩ := places_collide_iff (ε := Empty)
  have hmeet := hplaces "b_c" "b-c" ⟨"b_c"⟩ ⟨"b-c"⟩ (by decide) (by decide) ⟨"src"⟩ ⟨"out"⟩
  refine ⟨(hmeet.out 0 4).2 (by decide), by decide +kernel, by decide +kernel, ?_⟩
  apply hrules threeSources [⟨"src"⟩] ⟨"out"⟩ 0 [⟨"a"⟩, ⟨"b-c"⟩] Rules.Graph.empty (by decide)
  intro u hu
  rcases List.mem_pair.1 hu with rfl | rfl
  · exact ⟨⟨"a", by decide⟩, by decide⟩
  · exact ⟨⟨"b-c", by decide⟩, by decide⟩

end ClojureBuild
