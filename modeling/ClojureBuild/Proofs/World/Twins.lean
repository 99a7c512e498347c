import ClojureBuild.Proofs.Together
import ClojureBuild.Proofs.World.Links
import Mathlib.Data.List.Forall2
/-!
Two paths to one place.

Twins are paths behind which the world shows the same: at each descent by the same names both lead
to the same, and the absolute forms agree.  A walk from a directory shows the same files behind
twins, by the same names in the same order, though each under its own text.
-/

namespace ClojureBuild

open ClojureBuild.Path (IsName)

namespace World

variable {w : World} {p q : Path}

/-- Two paths behind which the same is found, and with the same absolute forms. -/
structure Twins (w : World) (p q : Path) : Prop where
  stat_iff : ∀ names, (∀ name ∈ names, IsName name) → ∀ found,
    w.stat (p.descend names) = .ok found ↔ w.stat (q.descend names) = .ok found
  absolute_eq : ∀ names, (∀ name ∈ names, IsName name) →
    Path.absolute? w.cwdPath (p.descend names) = Path.absolute? w.cwdPath (q.descend names)

namespace Twins

theorem refl (w : World) (p : Path) : Twins w p p := ⟨fun _ _ _ => Iff.rfl, fun _ _ => rfl⟩

theorem descend (h : Twins w p q) {names : List String} (hnames : ∀ name ∈ names, IsName name) :
    Twins w (p.descend names) (q.descend names) := by
  have hall : ∀ more : List String, (∀ name ∈ more, IsName name) →
      ∀ name ∈ names ++ more, IsName name := fun more hmore => by
    simpa [or_imp, forall_and] using ⟨hnames, hmore⟩
  constructor
  · intro more hmore found
    rw [← Path.descend_append, ← Path.descend_append]
    exact h.stat_iff _ (hall more hmore) found
  · intro more hmore
    rw [← Path.descend_append, ← Path.descend_append]
    exact h.absolute_eq _ (hall more hmore)

theorem div (h : Twins w p q) {name : String} (hname : IsName name) :
    Twins w (p / name) (q / name) :=
  @descend w p q h [name] (by simpa using hname)

theorem stat_ok_iff (h : Twins w p q) {found : Location × Node} :
    w.stat p = .ok found ↔ w.stat q = .ok found :=
  h.stat_iff [] (by simp) found

theorem stat (h : Twins w p q) : Meets Eq (w.stat p) (w.stat q) := by
  cases hp : w.stat p with
  | ok found =>
      rw [h.stat_ok_iff.1 hp]
      exact .ok rfl
  | error e =>
      cases hq : w.stat q with
      | ok found => exact absurd (h.stat_ok_iff.2 hq) (by simp [hp])
      | error e' => exact .error e e'

theorem isDir_eq (h : Twins w p q) : w.isDir p = w.isDir q := by
  have hmeets := h.stat
  rw [isDir, isDir]
  generalize w.stat p = found at hmeets
  generalize w.stat q = found' at hmeets
  cases hmeets with
  | ok heq => rw [heq]
  | error e e' => rfl

theorem isFile_eq (h : Twins w p q) : w.isFile p = w.isFile q := by
  have hmeets := h.stat
  rw [isFile, isFile]
  generalize w.stat p = found at hmeets
  generalize w.stat q = found' at hmeets
  cases hmeets with
  | ok heq => rw [heq]
  | error e e' => rfl

theorem pathExists_eq (h : Twins w p q) : w.pathExists p = w.pathExists q := by
  have hmeets := h.stat
  rw [pathExists, pathExists]
  generalize w.stat p = found at hmeets
  generalize w.stat q = found' at hmeets
  cases hmeets <;> rfl

theorem absolute (h : Twins w p q) : Path.absolute? w.cwdPath p = Path.absolute? w.cwdPath q :=
  h.absolute_eq [] (by simp)

theorem modified (h : Twins w p q) : Meets Eq (w.modified p) (w.modified q) :=
  h.stat.bind fun found found' heq => by
    rw [heq]
    exact .ok rfl

end Twins

/-! ### Walks behind twins -/

/-- Two paths that go down from two others by the same names, which a walk does not pass over. -/
def Beside (all : Bool) (p q a b : Path) : Prop :=
  ∃ names, names ≠ [] ∧ (∀ name ∈ names, IsName name) ∧ Shown all names ∧
    a = p.descend names ∧ b = q.descend names

theorem beside_div {all : Bool} {name : String} (hname : IsName name)
    (hshown : (!all && isHidden name) = false) : Beside all p q (p / name) (q / name) :=
  ⟨[name], List.cons_ne_nil _ _, by simpa using hname,
    shown_cons.2 ⟨hshown, Or.inr (by simp)⟩, rfl, rfl⟩

theorem Beside.of_div {all : Bool} {name : String} (hname : IsName name)
    (hshown : (!all && isHidden name) = false) {a b : Path}
    (h : Beside all (p / name) (q / name) a b) : Beside all p q a b := by
  obtain ⟨names, -, hnames, hrest, rfl, rfl⟩ := h
  exact ⟨name :: names, List.cons_ne_nil _ _, List.forall_mem_cons.2 ⟨hname, hnames⟩,
    shown_cons.2 ⟨hshown, hrest⟩, rfl, rfl⟩

theorem Beside.twins {all : Bool} {a b : Path} (hbeside : Beside all p q a b) (h : Twins w p q) :
    Twins w a b := by
  obtain ⟨names, -, hnames, -, rfl, rfl⟩ := hbeside
  exact h.descend hnames

/-- At a name a walk shows the same files behind twins, if it does below the directory there. -/
theorem Twins.shownVia (hnamed : w.Named) (h : Twins w p q) {all : Bool}
    {way way' : List (Location × Path)} (hway : way.map Prod.fst = way'.map Prod.fst)
    {loc : Location} {name : String}
    (hbelow : ∀ target : Location, Twins w (p / name) (q / name) →
      (∃ t, w.node? (name :: loc) = some (.dir t)) ∧ target = name :: loc ∨
        (∃ t, w.stat (p / name) = .ok (target, .dir t)) ∧ target ∉ way.map Prod.fst →
      List.Forall₂ (Beside all (p / name) (q / name))
        (w.shownBelow all ((target, p / name) :: way) (p / name) target)
        (w.shownBelow all ((target, q / name) :: way') (q / name) target)) :
    List.Forall₂ (Beside all p q) (w.shownVia all way p loc name)
      (w.shownVia all way' q loc name) := by
  unfold World.shownVia
  cases hpassed : (!all && isHidden name) with
  | true => exact .nil
  | false =>
      simp only [Bool.false_eq_true, ↓reduceIte]
      cases hnode : w.node? (name :: loc) with
      | none => exact .nil
      | some node =>
          have hname := hnamed name loc node hnode
          have hchild := h.div hname
          have hbeside : ∀ a b, Beside all (p / name) (q / name) a b → Beside all p q a b :=
            fun _ _ => .of_div hname hpassed
          cases node with
          | file content t x => exact .cons (beside_div hname hpassed) .nil
          | device t => exact .nil
          | dir t => exact (hbelow _ hchild (Or.inl ⟨⟨t, hnode⟩, rfl⟩)).imp hbeside
          | link link =>
              simp only
              cases hp : w.stat (p / name) with
              | error e =>
                  cases hq : w.stat (q / name) with
                  | error e' => exact .nil
                  | ok found => exact absurd (hchild.stat_ok_iff.2 hq) (by simp [hp])
              | ok found =>
                  obtain ⟨target, node⟩ := found
                  rw [hchild.stat_ok_iff.1 hp]
                  cases node with
                  | file content t x => exact .cons (beside_div hname hpassed) .nil
                  | device t => exact .nil
                  | link link => exact .nil
                  | dir t =>
                      simp only [← hway]
                      split
                      · exact .nil
                      next hnew =>
                          exact (hbelow _ hchild (Or.inr ⟨⟨t, hp⟩, hnew⟩)).imp hbeside

/-- A walk below twins goes over the same names and shows the same files. -/
theorem Twins.shownBelow (hnamed : w.Named) (h : Twins w p q) (all : Bool)
    {way way' : List (Location × Path)} (hway : way.map Prod.fst = way'.map Prod.fst)
    (loc : Location) :
    List.Forall₂ (Beside all p q) (w.shownBelow all way p loc) (w.shownBelow all way' q loc) := by
  induction way, p, loc using walkDir.induct w generalizing way' q with
  | case1 way p loc cause hfails =>
      have hfails' : ∃ cause', w.stat q = .error cause' := by
        cases hq : w.stat q with
        | error cause' => exact ⟨cause', rfl⟩
        | ok found => exact absurd (h.stat_ok_iff.2 hq) (by simp [hfails])
      obtain ⟨cause', hcause'⟩ := hfails'
      rw [shownBelow_of_error hfails, shownBelow_of_error hcause']
      exact .nil
  | case2 way p loc found hopens ihdir ihlink =>
      have hsame : List.Forall₂ Eq (w.childNames loc) (w.childNames loc) := List.forall₂_refl _
      rw [shownBelow_eq_flatMap all way hopens,
        shownBelow_eq_flatMap all way' (h.stat_ok_iff.1 hopens)]
      refine List.rel_flatMap hsame ?_
      rintro name _ rfl
      refine h.shownVia hnamed hway fun target hchild hcase => ?_
      have hways : ((target, p / name) :: way).map Prod.fst =
          ((target, q / name) :: way').map Prod.fst := congrArg (List.cons target) hway
      rcases hcase with ⟨⟨t, hnode⟩, rfl⟩ | ⟨⟨t, hstat⟩, hnew⟩
      · exact ihdir name t hnode hchild hways
      · exact ihlink name target t hstat (find?_eq_none_iff.2 hnew) hchild hways

/-- A walk from a directory shows the same files behind twins, unless one of them is taken for no
place in the tree. -/
theorem Twins.filesUnder (hnamed : w.Named) (all : Bool) (h : Twins w p q)
    (hdash : p.same ⟨"-"⟩ = q.same ⟨"-"⟩) (hdir : w.isDir p = true) :
    List.Forall₂ (Beside all p q) (w.filesUnder all p) (w.filesUnder all q) := by
  obtain ⟨loc, node, hp, hnode⟩ := isDir_eq_true_iff.1 hdir
  have hq := h.stat_ok_iff.1 hp
  cases node with
  | dir t =>
      have hways : [(loc, p)].map Prod.fst = [(loc, q)].map Prod.fst := rfl
      have hbelow := h.shownBelow hnamed all hways loc
      rw [World.filesUnder, World.filesUnder, walk, walk, hp, hq, hdash]
      cases q.same ⟨"-"⟩ with
      | true => exact .nil
      | false => exact hbelow
  | file content t x => cases hnode
  | link link => cases hnode
  | device t => cases hnode

/-- Twins that count alike as source entries. -/
structure SourceTwins (w : World) (p q : Path) : Prop extends Twins w p q where
  dash : p.same ⟨"-"⟩ = q.same ⟨"-"⟩
  text : p.isText = q.isText
  extension : w.isFile p = true → p.extension? = q.extension?

end World

end ClojureBuild
