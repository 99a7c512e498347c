import ClojureBuild.Path.Basic
import ClojureBuild.Sorting
import Mathlib.Data.List.Induction
import Mathlib.Data.List.Sort
import Mathlib.Data.String.Basic
/-!
Ascending lists, each element once.

Whatever the order is, `distinctBy` makes up no element and drops only such as the order does not
tell from one that stays.  Main statements: where the order is transitive the list ascends; of two
lists together all stays that stays of the first; and the order of paths is transitive, and tells
apart all paths but those of one place.  `sortBy` keeps repetitions, and its result ascends too.
-/

namespace ClojureBuild

section

variable {α : Type} {before : α → α → Bool}

/-- The order does not tell two elements apart. -/
def Level (before : α → α → Bool) (x y : α) : Prop := before x y = false ∧ before y x = false

theorem mem_of_mem_insertDistinct {x y : α} {xs : List α} (h : y ∈ insertDistinct before x xs) :
    y = x ∨ y ∈ xs := by
  induction xs with
  | nil => simpa [insertDistinct] using h
  | cons z rest ih =>
      rw [insertDistinct] at h
      split at h
      · simpa using h
      · split at h
        · rcases List.mem_cons.1 h with rfl | h
          · exact Or.inr List.mem_cons_self
          · exact (ih h).imp_right (List.mem_cons_of_mem z)
        · exact Or.inr h

theorem mem_insertDistinct_of_mem {x y : α} {xs : List α} (h : y ∈ xs) :
    y ∈ insertDistinct before x xs := by
  induction xs with
  | nil => exact absurd h List.not_mem_nil
  | cons z rest ih =>
      rw [insertDistinct]
      split
      · exact List.mem_cons_of_mem x h
      · split
        · rcases List.mem_cons.1 h with rfl | h
          · exact List.mem_cons_self
          · exact List.mem_cons_of_mem z (ih h)
        · exact h

/-- The element that is put into a list stands for itself there, or one that is level with it
does. -/
theorem exists_mem_insertDistinct (x : α) (xs : List α) :
    ∃ y ∈ insertDistinct before x xs, y = x ∨ Level before x y := by
  induction xs with
  | nil => exact ⟨x, by simp [insertDistinct], Or.inl rfl⟩
  | cons z rest ih =>
      rw [insertDistinct]
      split
      · exact ⟨x, List.mem_cons_self, Or.inl rfl⟩
      next hbefore =>
          split
          · obtain ⟨y, hy, hlevel⟩ := ih
            exact ⟨y, List.mem_cons_of_mem z hy, hlevel⟩
          next hafter =>
              refine ⟨z, List.mem_cons_self, Or.inr ⟨?_, ?_⟩⟩
              · simpa using hbefore
              · simpa using hafter

/-- Putting an element into an ascending list keeps it so. -/
theorem pairwise_insertDistinct
    (htrans : ∀ a b c, before a b = true → before b c = true → before a c = true) {x : α}
    {xs : List α} (h : xs.Pairwise (before · · = true)) :
    (insertDistinct before x xs).Pairwise (before · · = true) := by
  induction xs with
  | nil => simp [insertDistinct]
  | cons z rest ih =>
      obtain ⟨hfirst, hrest⟩ := List.pairwise_cons.1 h
      rw [insertDistinct]
      split
      next hbefore =>
          refine List.pairwise_cons.2 ⟨fun y hy => ?_, h⟩
          rcases List.mem_cons.1 hy with rfl | hy
          · exact hbefore
          · exact htrans x z y hbefore (hfirst y hy)
      · split
        next hafter =>
            refine List.pairwise_cons.2 ⟨fun y hy => ?_, ih hrest⟩
            rcases mem_of_mem_insertDistinct hy with rfl | hy
            · exact hafter
            · exact hfirst y hy
        · exact h

theorem distinctBy_concat (xs : List α) (x : α) :
    distinctBy before (xs ++ [x]) = insertDistinct before x (distinctBy before xs) := by
  rw [distinctBy, List.foldl_append]
  rfl

theorem mem_of_mem_distinctBy {y : α} {xs : List α} (h : y ∈ distinctBy before xs) : y ∈ xs := by
  induction xs using List.reverseRecOn with
  | nil => exact h
  | append_singleton front last ih =>
      rw [distinctBy_concat] at h
      rcases mem_of_mem_insertDistinct h with rfl | h
      · simp
      · exact List.mem_append_left _ (ih h)

theorem exists_mem_distinctBy {x : α} {xs : List α} (h : x ∈ xs) :
    ∃ y ∈ distinctBy before xs, y = x ∨ Level before x y := by
  induction xs using List.reverseRecOn with
  | nil => exact absurd h List.not_mem_nil
  | append_singleton front last ih =>
      rw [distinctBy_concat]
      rcases List.mem_append.1 h with h | h
      · obtain ⟨y, hy, hlevel⟩ := ih h
        exact ⟨y, mem_insertDistinct_of_mem hy, hlevel⟩
      · obtain rfl := List.mem_singleton.1 h
        exact exists_mem_insertDistinct x (distinctBy before front)

theorem pairwise_distinctBy
    (htrans : ∀ a b c, before a b = true → before b c = true → before a c = true) (xs : List α) :
    (distinctBy before xs).Pairwise (before · · = true) := by
  induction xs using List.reverseRecOn with
  | nil => exact List.Pairwise.nil
  | append_singleton front last ih =>
      rw [distinctBy_concat]
      exact pairwise_insertDistinct htrans ih

/-- A list that ascends takes an element in exactly if it has none that is level with it. -/
theorem mem_insertDistinct_iff
    (htrans : ∀ a b c, before a b = true → before b c = true → before a c = true) {x y : α}
    {xs : List α} (h : xs.Pairwise (before · · = true)) :
    y ∈ insertDistinct before x xs ↔ y ∈ xs ∨ y = x ∧ ∀ z ∈ xs, ¬ Level before x z := by
  induction xs with
  | nil => simp [insertDistinct]
  | cons z rest ih =>
      obtain ⟨hfirst, hrest⟩ := List.pairwise_cons.1 h
      rw [insertDistinct]
      split
      next hbefore =>
          have hapart : ∀ c ∈ z :: rest, ¬ Level before x c := by
            rintro c hc ⟨hnot, -⟩
            rcases List.mem_cons.1 hc with rfl | hc
            · exact absurd hbefore (by simp [hnot])
            · exact absurd (htrans x z c hbefore (hfirst c hc)) (by simp [hnot])
          rw [List.mem_cons, or_comm, and_iff_left hapart]
      next hnotBefore =>
          split
          next hafter =>
              have hapart : ¬ Level before x z := fun hlevel => by simp [hlevel.2] at hafter
              rw [List.mem_cons, List.mem_cons, ih hrest, List.forall_mem_cons,
                and_iff_right hapart, or_assoc]
          next hnotAfter =>
              have hlevel : Level before x z :=
                ⟨by simpa using hnotBefore, by simpa using hnotAfter⟩
              rw [List.forall_mem_cons]
              exact ⟨Or.inl, fun hin => hin.resolve_right fun hout => hout.2.1 hlevel⟩

theorem distinctBy_eq_nil_iff {xs : List α} : distinctBy before xs = [] ↔ xs = [] := by
  constructor
  · intro h
    refine List.eq_nil_iff_forall_not_mem.2 fun x hx => ?_
    obtain ⟨y, hy, -⟩ := @exists_mem_distinctBy _ before _ _ hx
    rw [h] at hy
    exact absurd hy List.not_mem_nil
  · rintro rfl
    rfl

/-- Being level is transitive, as it is in an order by some key. -/
def LevelTrans (before : α → α → Bool) : Prop :=
  ∀ a b c, Level before a b → Level before b c → Level before a c

theorem not_level_distinctBy_iff (hlevel : LevelTrans before) {x : α} {xs : List α} :
    (∀ y ∈ distinctBy before xs, ¬ Level before x y) ↔ ∀ y ∈ xs, ¬ Level before x y := by
  constructor
  · intro hnone y hy hxy
    obtain ⟨z, hz, rfl | hyz⟩ := @exists_mem_distinctBy _ before _ _ hy
    · exact hnone _ hz hxy
    · exact hnone z hz (hlevel x y z hxy hyz)
  · exact fun hnone y hy => hnone y (mem_of_mem_distinctBy hy)

/-- Of two lists, one behind the other, all stays that stays of the first, and what stays of the
second if the first has nothing that is level with it. -/
theorem mem_distinctBy_append
    (htrans : ∀ a b c, before a b = true → before b c = true → before a c = true)
    (hlevel : LevelTrans before) {y : α} {xs ys : List α} :
    y ∈ distinctBy before (xs ++ ys) ↔
      y ∈ distinctBy before xs ∨ y ∈ distinctBy before ys ∧ ∀ x ∈ xs, ¬ Level before y x := by
  induction ys using List.reverseRecOn with
  | nil => simp [distinctBy]
  | append_singleton front last ih =>
      rw [← List.append_assoc, distinctBy_concat, distinctBy_concat,
        mem_insertDistinct_iff htrans (pairwise_distinctBy htrans _),
        mem_insertDistinct_iff htrans (pairwise_distinctBy htrans _),
        not_level_distinctBy_iff hlevel, not_level_distinctBy_iff hlevel, List.forall_mem_append]
      refine (or_congr_left ih).trans ?_
      constructor
      · rintro ((hfirst | ⟨hfront, hnone⟩) | ⟨rfl, hnone, hlast⟩)
        · exact Or.inl hfirst
        · exact Or.inr ⟨Or.inl hfront, hnone⟩
        · exact Or.inr ⟨Or.inr ⟨rfl, hlast⟩, hnone⟩
      · rintro (hfirst | ⟨hfront | ⟨rfl, hlast⟩, hnone⟩)
        · exact Or.inl (Or.inl hfirst)
        · exact Or.inl (Or.inr ⟨hfront, hnone⟩)
        · exact Or.inr ⟨rfl, hnone, hlast⟩

theorem insertDistinct_of_last {x : α} {xs : List α}
    (h : ∀ y ∈ xs, before y x = true ∧ before x y = false) :
    insertDistinct before x xs = xs ++ [x] := by
  induction xs with
  | nil => rfl
  | cons y rest ih =>
      obtain ⟨⟨hbefore, hnot⟩, hrest⟩ := List.forall_mem_cons.1 h
      rw [insertDistinct, if_neg (by simp [hnot]), if_pos hbefore, ih hrest, List.cons_append]

theorem distinctBy_of_pairwise (hasymm : ∀ a b, before a b = true → before b a = false)
    {xs : List α} (h : xs.Pairwise (before · · = true)) : distinctBy before xs = xs := by
  induction xs using List.reverseRecOn with
  | nil => rfl
  | append_singleton front last ih =>
      obtain ⟨hfront, -, hlast⟩ := List.pairwise_append.1 h
      rw [distinctBy_concat, ih hfront]
      refine insertDistinct_of_last fun y hy => ?_
      have hbefore := hlast y hy last (List.mem_singleton_self last)
      exact ⟨hbefore, hasymm y last hbefore⟩

theorem eq_of_pairwise_of_mem_iff (hasymm : ∀ a b, before a b = true → before b a = false)
    {xs ys : List α} (hxs : xs.Pairwise (before · · = true))
    (hys : ys.Pairwise (before · · = true)) (h : ∀ a, a ∈ xs ↔ a ∈ ys) : xs = ys := by
  have hirrefl : Std.Irrefl fun a b => before a b = true :=
    ⟨fun a ha => by simp [hasymm a a ha] at ha⟩
  have hantisymm : Std.Antisymm fun a b => before a b = true :=
    ⟨fun a b hab hba => by simp [hasymm a b hab] at hba⟩
  exact hxs.eq_of_mem_iff hys h

/-- Repetitions may go from two lists before they go from both. -/
theorem distinctBy_append (hasymm : ∀ a b, before a b = true → before b a = false)
    (htrans : ∀ a b c, before a b = true → before b c = true → before a c = true)
    (hlevel : LevelTrans before) (xs ys : List α) :
    distinctBy before (xs ++ ys) =
      distinctBy before (distinctBy before xs ++ distinctBy before ys) := by
  have hascends := @pairwise_distinctBy _ before htrans
  refine eq_of_pairwise_of_mem_iff hasymm (hascends _) (hascends _) fun y => ?_
  rw [mem_distinctBy_append htrans hlevel, mem_distinctBy_append htrans hlevel,
    distinctBy_of_pairwise hasymm (hascends xs), distinctBy_of_pairwise hasymm (hascends ys),
    not_level_distinctBy_iff hlevel]

/-- Putting an element into a list in which nothing comes before what stands in front of it keeps
it so. -/
theorem pairwise_insertBy (hasymm : ∀ a b, before a b = true → before b a = false)
    (htrans : ∀ a b c, before b a = false → before c b = false → before c a = false) {x : α}
    {xs : List α} (h : xs.Pairwise fun a b => before b a = false) :
    (insertBy before x xs).Pairwise fun a b => before b a = false := by
  induction xs with
  | nil => simp [insertBy]
  | cons y rest ih =>
      obtain ⟨hfirst, hrest⟩ := List.pairwise_cons.1 h
      rw [insertBy]
      split
      next hbefore =>
          refine List.pairwise_cons.2 ⟨fun z hz => ?_, h⟩
          rcases List.mem_cons.1 hz with rfl | hz
          · exact hasymm x z hbefore
          · exact htrans x y z (hasymm x y hbefore) (hfirst z hz)
      next hnot =>
          refine List.pairwise_cons.2 ⟨fun z hz => ?_, ih hrest⟩
          rcases mem_insertBy.1 hz with rfl | hz
          · simpa using hnot
          · exact hfirst z hz

theorem pairwise_sortBy (hasymm : ∀ a b, before a b = true → before b a = false)
    (htrans : ∀ a b c, before b a = false → before c b = false → before c a = false)
    (xs : List α) : (sortBy before xs).Pairwise fun a b => before b a = false := by
  induction xs using List.reverseRecOn with
  | nil => exact List.Pairwise.nil
  | append_singleton front last ih =>
      rw [sortBy, List.foldl_append]
      exact pairwise_insertBy hasymm htrans ih

end

section

variable {α : Type} [LinearOrder α]

theorem mem_distinctBy {y : α} {xs : List α} :
    y ∈ distinctBy (fun a b => decide (a < b)) xs ↔ y ∈ xs := by
  refine ⟨mem_of_mem_distinctBy, fun h => ?_⟩
  obtain ⟨x, hx, heq | ⟨hyx, hxy⟩⟩ := exists_mem_distinctBy h
  · exact heq ▸ hx
  · have heq : y = x := le_antisymm (not_lt.1 (of_decide_eq_false hxy))
      (not_lt.1 (of_decide_eq_false hyx))
    exact heq ▸ hx

theorem nodup_distinctBy (xs : List α) : (distinctBy (fun a b => decide (a < b)) xs).Nodup := by
  refine (pairwise_distinctBy (fun a b c hab hbc => ?_) xs).imp fun h => ?_
  · exact decide_eq_true (lt_trans (of_decide_eq_true hab) (of_decide_eq_true hbc))
  · exact ne_of_lt (of_decide_eq_true h)

end

/-! ### The order of paths -/

namespace Path

namespace Component

theorem before_name {m n : String} : (name m).before (name n) = true ↔ m < n :=
  decide_eq_true_iff

theorem before_trans {a b c : Component} (hab : a.before b = true) (hbc : b.before c = true) :
    a.before c = true := by
  cases a <;> cases b <;> cases c
  case name.name.name l m n =>
    exact before_name.2 (lt_trans (before_name.1 hab) (before_name.1 hbc))
  all_goals first | rfl | exact absurd hab Bool.false_ne_true | exact absurd hbc Bool.false_ne_true

theorem before_irrefl (a : Component) : a.before a = false := by
  cases a with
  | name n => exact decide_eq_false (lt_irrefl n)
  | root => rfl
  | here => rfl
  | up => rfl

theorem eq_of_level {a b : Component} (h : Level before a b) : a = b := by
  obtain ⟨hab, hba⟩ := h
  cases a <;> cases b
  case name.name m n =>
    exact congrArg name (le_antisymm (not_lt.1 (of_decide_eq_false hba))
      (not_lt.1 (of_decide_eq_false hab)))
  all_goals first
    | rfl
    | exact absurd hab.symm Bool.false_ne_true
    | exact absurd hba.symm Bool.false_ne_true

end Component

theorem before.go_trans {as bs cs : List Component} (hab : before.go as bs = true)
    (hbc : before.go bs cs = true) : before.go as cs = true := by
  induction as generalizing bs cs with
  | nil =>
      cases bs with
      | nil => exact absurd hab Bool.false_ne_true
      | cons b bs =>
          cases cs with
          | nil => exact absurd hbc Bool.false_ne_true
          | cons c cs => rfl
  | cons a as ih =>
      cases bs with
      | nil => exact absurd hab Bool.false_ne_true
      | cons b bs =>
          cases cs with
          | nil => exact absurd hbc Bool.false_ne_true
          | cons c cs =>
              rw [go, Bool.or_eq_true, Bool.and_eq_true, beq_iff_eq] at hab hbc ⊢
              rcases hab with hab | ⟨rfl, hab⟩
              · rcases hbc with hbc | ⟨rfl, -⟩
                · exact Or.inl (Component.before_trans hab hbc)
                · exact Or.inl hab
              · rcases hbc with hbc | ⟨rfl, hbc⟩
                · exact Or.inl hbc
                · exact Or.inr ⟨rfl, ih hab hbc⟩

theorem before.eq_of_level_go {as bs : List Component} (h : Level before.go as bs) : as = bs := by
  induction as generalizing bs with
  | nil =>
      cases bs with
      | nil => rfl
      | cons b bs => exact absurd h.1.symm Bool.false_ne_true
  | cons a as ih =>
      cases bs with
      | nil => exact absurd h.2.symm Bool.false_ne_true
      | cons b bs =>
          obtain ⟨hab, hba⟩ := h
          rw [go, Bool.or_eq_false_iff, Bool.and_eq_false_iff] at hab hba
          obtain rfl := Component.eq_of_level ⟨hab.1, hba.1⟩
          have hrest : Level before.go as bs := ⟨by simpa using hab.2, by simpa using hba.2⟩
          rw [ih hrest]

theorem before.go_irrefl (as : List Component) : before.go as as = false := by
  induction as with
  | nil => rfl
  | cons a as ih => rw [go, Component.before_irrefl, ih]; simp

theorem before_trans (p q r : Path) (hpq : p.before q = true) (hqr : q.before r = true) :
    p.before r = true :=
  before.go_trans hpq hqr

theorem same_of_level {p q : Path} (h : Level before p q) : p.same q = true :=
  beq_iff_eq.2 (before.eq_of_level_go h)

theorem level_iff {p q : Path} : Level before p q ↔ p.components = q.components := by
  constructor
  · exact before.eq_of_level_go
  · intro h
    rw [Level, before, before, h, before.go_irrefl]
    exact ⟨rfl, rfl⟩

theorem level_trans : LevelTrans before := by
  intro p q r hpq hqr
  exact level_iff.2 ((level_iff.1 hpq).trans (level_iff.1 hqr))

theorem before.go_asymm (as bs : List Component) (h : before.go as bs = true) :
    before.go bs as = false := by
  rw [Bool.eq_false_iff]
  intro hback
  have hself := before.go_trans h hback
  rw [before.go_irrefl] at hself
  exact absurd hself Bool.false_ne_true

theorem before_asymm (p q : Path) (h : p.before q = true) : q.before p = false :=
  before.go_asymm _ _ h

theorem not_same_of_before {p q : Path} (h : p.before q = true) : p.same q = false := by
  rw [Bool.eq_false_iff]
  intro hsame
  have hcomponents : p.components = q.components := eq_of_beq hsame
  rw [before, hcomponents, before.go_irrefl] at h
  exact absurd h Bool.false_ne_true

end Path

end ClojureBuild
