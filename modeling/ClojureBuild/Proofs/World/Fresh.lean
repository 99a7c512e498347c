import ClojureBuild.Proofs.World.Absolute
import ClojureBuild.Proofs.World.Making
import ClojureBuild.Proofs.World.Times
/-!
A directory that was just made.

A directory that did not exist is made in the current one.  Then nothing is in it and no link is on
the way to anything below it, so every path that goes down into it leads where its text says.
-/

namespace ClojureBuild.World

variable {w w' : World} {name : String}

/-- A directory that stands in the current one, with nothing in it. -/
structure Fresh (w : World) (name : String) : Prop where
  standing : w.Standing
  dir : w.isDirAt (name :: w.cwd) = true
  empty : ∀ {names : List String}, names ≠ [] → w.node? (names ++ name :: w.cwd) = none

theorem isAbsolute_name (hname : Path.IsName name) : (⟨name⟩ : Path).isAbsolute = false :=
  beq_eq_false_iff_ne.2 hname.relative

theorem placeFrom_name (hname : Path.IsName name) (cwd : Location) :
    (⟨name⟩ : Path).placeFrom cwd = name :: cwd := by
  rw [Path.placeFrom, solidSteps_name hname, isAbsolute_name hname]
  rfl

/-- No link is on the way from the current directory to a place below a fresh one. -/
theorem Fresh.unlinked (h : Fresh w name) (hname : Path.IsName name) {names : List String}
    (hnames : ∀ n ∈ names, Path.IsName n) : w.Unlinked ((⟨name⟩ : Path).descend names) := by
  obtain ⟨hsteps, habsolute⟩ := descend_steps ⟨name⟩ hnames
  intro front hfront link hlink
  have hdown : solidSteps ((⟨name⟩ : Path).descend names) = (name :: names).map .down := by
    rw [hsteps, solidSteps_name hname]
    rfl
  rw [hdown, List.prefix_map_iff] at hfront
  obtain ⟨way, hway, rfl⟩ := hfront
  rw [habsolute, isAbsolute_name hname, foldl_go_down] at hlink
  have hplace : ∀ {loc : Location}, w.isDirAt loc = true → w.node? loc ≠ some (.link link) := by
    intro loc hdir hlink
    obtain ⟨t, ht⟩ := isDirAt_iff.1 hdir
    exact absurd (ht.symm.trans hlink) (by simp)
  rcases List.prefix_cons_iff.1 hway with rfl | ⟨more, rfl, -⟩
  · exact hplace (h.standing _ List.suffix_rfl) hlink
  · rw [List.reverse_cons, List.append_assoc] at hlink
    by_cases hmore : more.reverse = []
    · rw [hmore] at hlink
      exact hplace h.dir hlink
    · exact absurd ((h.empty hmore).symm.trans hlink) (by simp)

/-- A directory with a name alone is made in the current one. -/
theorem vacant_of_makeDir (hname : Path.IsName name) (h : w.makeDir ⟨name⟩ = .ok w') :
    w.node? (name :: w.cwd) = none ∧ w.isDirAt w.cwd = true ∧
      w' = w.create (name :: w.cwd) (.dir w.clock) := by
  obtain ⟨parent, last, hresolve, rfl⟩ := exists_of_makeDir h
  have hsolid := solidSteps_dropTrailingSeparators ⟨name⟩
  rw [solidSteps_name hname] at hsolid
  have hsteps : stepsOf (dropTrailingSeparators ⟨name⟩).text = [.down name] := by
    rcases dropTrailingSeparators_cases ⟨name⟩ with hroot | hlast
    · have hnone : solidSteps ⟨"/"⟩ = [] := by decide
      rw [hroot, hnone] at hsolid
      exact absurd hsolid (by simp)
    · rw [stepsOf, if_neg hlast]
      exact hsolid
  have htraverse := (resolve_eq_ok.1 hresolve).2
  rw [isAbsolute_dropTrailingSeparators, isAbsolute_name hname, hsteps, if_neg Bool.false_ne_true,
    traverse] at htraverse
  split at htraverse
  · exact absurd htraverse (by simp)
  · cases hnode : w.node? (name :: w.cwd) with
    | none =>
        simp only [hnode, List.isEmpty_nil, Bool.true_and] at htraverse
        split at htraverse
        next hdir =>
            cases htraverse
            exact ⟨rfl, hdir, rfl⟩
        · exact absurd htraverse (by simp)
    | some node => cases node <;> simp_all [traverse]

theorem ofPieces_name (hname : Path.IsName name) : Path.ofPieces [name] = ⟨name⟩ := by
  have htext : (Path.ofPieces [name]).text.toList = name.toList := by
    rw [Path.ofPieces_eq_descend, Path.descend_cons, Path.descend_nil, Path.text_div,
      Path.joinChars_of_relative _ hname.relative]
    rfl
  exact congrArg Path.mk (String.toList_inj.1 htext)

theorem ancestors_name (hname : Path.IsName name) : ancestors ⟨name⟩ = [⟨name⟩, ⟨""⟩] := by
  have hparent : (⟨name⟩ : Path).parent? = some ⟨""⟩ := by
    have hconcat := @Path.parent?_ofPieces_concat [] name (by simp) hname
    rwa [List.nil_append, ofPieces_name hname] at hconcat
  have hempty : ∀ n, ancestors.go n ⟨""⟩ = [⟨""⟩] := by
    intro n
    cases n <;> rfl
  obtain ⟨n, hn⟩ : ∃ n, name.length = n + 1 := by
    refine Nat.exists_eq_succ_of_ne_zero fun hzero => hname.nonempty ?_
    rwa [← String.length_toList, List.length_eq_zero_iff] at hzero
  rw [ancestors, hn, ancestors.go, hparent]
  simp only [hempty]

theorem makeDir_of_makeDirs (hname : Path.IsName name) (hnew : w.pathExists ⟨name⟩ = false)
    (h : (w.makeDirs ⟨name⟩).2 = .ok ()) : w.makeDir ⟨name⟩ = .ok (w.makeDirs ⟨name⟩).1 := by
  have hempty : name ≠ "" := by
    rintro rfl
    exact hname.nonempty rfl
  have hnot : w.isDir ⟨name⟩ = false := by
    rw [pathExists] at hnew
    rw [isDir]
    cases hstat : w.stat ⟨name⟩ <;> simp_all
  rw [makeDirs, ancestors_name hname] at h ⊢
  cases hmake : w.makeDir ⟨name⟩ with
  | ok w' => simp [climb, hempty, hmake, makeEach]
  | error e =>
    cases e <;> simp [climb, hempty, hmake, makeEach, hnot] at h

theorem fresh_of_makeDirs (htree : w.IsTree) (hname : Path.IsName name)
    (hnew : w.pathExists ⟨name⟩ = false) (h : (w.makeDirs ⟨name⟩).2 = .ok ()) :
    Fresh (w.makeDirs ⟨name⟩).1 name := by
  obtain ⟨hvacant, hdir, hcreate⟩ := vacant_of_makeDir hname (makeDir_of_makeDirs hname hnew h)
  have hrenewed := makeDirs_renewed w ⟨name⟩
  refine ⟨hrenewed.standing fun loc hloc => ?_, ?_, fun {names} hnames => ?_⟩
  · obtain ⟨names, hnames⟩ := hloc
    by_cases hnone : names = []
    · rw [← hnames, hnone] at hdir
      exact hdir
    · obtain ⟨t, ht⟩ := isDirAt_iff.1 hdir
      exact htree.above hnone (hnames ▸ ht)
  · rw [hrenewed.cwd, hcreate, isDirAt, node?_create, if_pos rfl]
    rfl
  · have hplace : names ++ name :: w.cwd ≠ name :: w.cwd := by simpa using hnames
    have haround : names ++ name :: w.cwd ≠ w.cwd := fun heq =>
      absurd (congrArg List.length heq) (by simp; omega)
    rw [hrenewed.cwd, hcreate, node?_create_of_ne hplace.symm haround.symm]
    by_contra hsome
    obtain ⟨node, hnode⟩ := Option.ne_none_iff_exists'.1 hsome
    obtain ⟨t, ht⟩ := isDirAt_iff.1 (htree.above hnames hnode)
    exact absurd (hvacant.symm.trans ht) (by simp)

end ClojureBuild.World
