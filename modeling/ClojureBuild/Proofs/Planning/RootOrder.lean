import ClojureBuild.Proofs.Planning.Plan
/-!
The order of the source roots.

Main statement: two orderings of the same roots lead to the same survey, and to mirrorings that both
meet a duplicate or both copy the same files to the same places.  A unit with a source below two
roots is a duplicate wherever the two stand in the list, so no root ever wins over another; which
duplicate a mirroring meets first does depend on the order.
-/

namespace ClojureBuild

variable {w : World} {roots roots' : List Path}

/-! ### The survey -/

theorem holders_perm (hroots : roots.Perm roots') (unit : UnitId) :
    (holders w unit roots).Perm (holders w unit roots') :=
  hroots.filter _

/-- A unit is found at the one root that holds it, wherever that root stands. -/
theorem locate_perm (hroots : roots.Perm roots') (unit : UnitId) :
    locate w roots unit = locate w roots' unit := by
  have hholders := holders_perm (w := w) hroots unit
  have hlength := hholders.length_eq
  by_cases hone : (holders w unit roots).length ≤ 1
  · have hsame : holders w unit roots = holders w unit roots' := by
      match hfound : holders w unit roots, hone with
      | [], _ => rw [hfound] at hholders; exact hholders.nil_eq
      | [root], _ => rw [hfound] at hholders; exact hholders.singleton_eq
    rw [locate, locate, hsame]
  · rw [locate_eq_error hone, locate_eq_error (hlength ▸ hone)]

theorem Survey.ofUnits_perm (hroots : roots.Perm roots') (units : List UnitId) :
    ofUnits w roots units = ofUnits w roots' units := by
  induction units with
  | nil => rfl
  | cons unit rest ih => rw [ofUnits, ofUnits, locate_perm hroots, ih]

/-! ### The mirroring -/

namespace Mirror

variable {done : List UnitId} {target : Path}

theorem Apart.symm {c c' : MirrorCopy} (h : Apart c c') : Apart c' c := by
  have hne : c.target.components ≠ c'.target.components := by simpa [Apart, Path.same] using h
  simpa [Apart, Path.same] using hne.symm

theorem duplicate_perm (hroots : roots.Perm roots') :
    (ofRoots w done target roots).duplicate = none ↔
      (ofRoots w done target roots').duplicate = none := by
  rw [duplicate_eq_none_iff, duplicate_eq_none_iff]
  exact (hroots.flatMap_right _).pairwise_iff Apart.symm

theorem copies_perm (hroots : roots.Perm roots')
    (h : (ofRoots w done target roots).duplicate = none) :
    (ofRoots w done target roots).copies.Perm (ofRoots w done target roots').copies := by
  rw [copies_eq h, copies_eq ((duplicate_perm hroots).1 h)]
  exact hroots.flatMap_right _

theorem exists_result_eq_error {m : Mirror} (h : m.duplicate ≠ none) :
    ∃ unit, m.result = .error (.duplicateNamespace unit) := by
  obtain ⟨unit, hunit⟩ := Option.ne_none_iff_exists'.1 h
  exact ⟨unit, by rw [result, hunit]⟩

theorem result_of_duplicate {m : Mirror} (h : m.duplicate = none) :
    m.result = .ok m.copies.length := by
  rw [result, h]

end Mirror

/-- Two orderings of the same roots locate the same units in the same order, or meet the same
duplicate among them; and they mirror the same files to the same places, or both meet a duplicate
there. -/
theorem planning_perm (w : World) (target : Path) (libs : List UnitId)
    (hroots : roots.Perm roots') :
    ((Survey.ofUnits w roots libs).result = (Survey.ofUnits w roots' libs).result ∧
      ∀ action, (Survey.ofUnits w roots libs).rules target action =
        (Survey.ofUnits w roots' libs).rules target action) ∧
      ((∃ unit unit',
          (Mirror.ofRoots w libs target roots).result = .error (.duplicateNamespace unit) ∧
            (Mirror.ofRoots w libs target roots').result = .error (.duplicateNamespace unit')) ∨
        ∃ count, (Mirror.ofRoots w libs target roots).result = .ok count ∧
          (Mirror.ofRoots w libs target roots').result = .ok count ∧
            (Mirror.ofRoots w libs target roots).rules.Perm
              (Mirror.ofRoots w libs target roots').rules) := by
  refine ⟨by simp [Survey.ofUnits_perm hroots], ?_⟩
  by_cases hnone : (Mirror.ofRoots w libs target roots).duplicate = none
  · have hnone' := (Mirror.duplicate_perm hroots).1 hnone
    have hcopies := Mirror.copies_perm hroots hnone
    refine Or.inr ⟨_, Mirror.result_of_duplicate hnone, ?_, hcopies.map _⟩
    rw [Mirror.result_of_duplicate hnone', hcopies.length_eq]
  · have hsome' := mt (Mirror.duplicate_perm hroots).2 hnone
    obtain ⟨unit, hunit⟩ := Mirror.exists_result_eq_error hnone
    obtain ⟨unit', hunit'⟩ := Mirror.exists_result_eq_error hsome'
    exact Or.inl ⟨unit, unit', hunit, hunit'⟩

/-- A tree with sources below two roots. -/
def splitWorld : World where
  nodes := [(["a"], .dir 0), (["x.clj", "a"], .file ByteArray.empty 0 false),
    (["z.clj", "a"], .file ByteArray.empty 0 false), (["b"], .dir 0),
    (["y.clj", "b"], .file ByteArray.empty 0 false)]
  cwd := []
  clock := 1

/-- What one ordering of the roots shows holds of the other. -/
theorem planning_perm_swapped :
    (Survey.ofUnits splitWorld [⟨"b"⟩, ⟨"a"⟩] [⟨"y"⟩]).result =
        .ok [⟨⟨"y"⟩, ⟨"b"⟩, ⟨"b/y.clj"⟩⟩] ∧
      (Mirror.ofRoots splitWorld [⟨"y"⟩] ⟨"out"⟩ [⟨"b"⟩, ⟨"a"⟩]).result = .ok 2 := by
  obtain ⟨⟨hlocated, -⟩, hmirrored⟩ := planning_perm splitWorld ⟨"out"⟩ [⟨"y"⟩]
    (List.Perm.swap (⟨"b"⟩ : Path) ⟨"a"⟩ [])
  have hfound : (Survey.ofUnits splitWorld [⟨"a"⟩, ⟨"b"⟩] [⟨"y"⟩]).result =
      .ok [⟨⟨"y"⟩, ⟨"b"⟩, ⟨"b/y.clj"⟩⟩] := by
    decide +kernel
  have hcount : (Mirror.ofRoots splitWorld [⟨"y"⟩] ⟨"out"⟩ [⟨"a"⟩, ⟨"b"⟩]).result = .ok 2 := by
    decide +kernel
  refine ⟨hlocated ▸ hfound, ?_⟩
  rcases hmirrored with ⟨unit, unit', hfails, -⟩ | ⟨count, hcounted, hcounted', -⟩
  · rw [hcount] at hfails
    exact absurd hfails (by simp)
  · rw [hcounted', ← hcounted, hcount]

end ClojureBuild
