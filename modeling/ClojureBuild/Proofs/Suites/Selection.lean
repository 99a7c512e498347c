import ClojureBuild.Cli.Test
import ClojureBuild.Proofs.Planning.Grammar
import Mathlib.Data.List.Infix
import Mathlib.Data.List.Sort
/-!
Which suites are selected.

The suites of a selection are chosen from those found below the root and those added, in the order
in which they stand there first.  Main statement: after any calls that add suites or leave suites
out, the suites are without repetition exactly those found or added that are not left out, and a
name or a part of a name keeps exactly those that it fits.
-/

namespace ClojureBuild

namespace SuiteSelection

/-! ### Choosing from a list -/

/-- A list holds what stands in another and is not left out, in the order of the first places. -/
structure Selects (excluded candidates chosen : List UnitId) : Prop where
  mem_iff : ∀ u, u ∈ chosen ↔ u ∈ candidates ∧ u ∉ excluded
  ordered : chosen.Pairwise fun u v => candidates.idxOf u < candidates.idxOf v

namespace Selects

variable {excluded candidates chosen : List UnitId}

theorem nil (excluded : List UnitId) : Selects excluded [] [] := ⟨by simp, .nil⟩

theorem nodup (h : Selects excluded candidates chosen) : chosen.Nodup := by
  refine h.ordered.imp ?_
  intro u v hlt heq
  exact absurd (heq ▸ hlt) (lt_irrefl _)

theorem ordered_append (h : Selects excluded candidates chosen) (more : List UnitId) :
    chosen.Pairwise fun u v => (candidates ++ more).idxOf u < (candidates ++ more).idxOf v := by
  refine h.ordered.imp_of_mem ?_
  intro u v hu hv hlt
  rw [List.idxOf_append_of_mem ((h.mem_iff u).1 hu).1,
    List.idxOf_append_of_mem ((h.mem_iff v).1 hv).1]
  exact hlt

/-- A candidate that is left out or was chosen before changes nothing. -/
theorem skip {unit : UnitId} (h : Selects excluded candidates chosen)
    (hskip : unit ∈ excluded ∨ unit ∈ chosen) : Selects excluded (candidates ++ [unit]) chosen where
  mem_iff := by
    intro u
    rw [h.mem_iff, List.mem_append, List.mem_singleton]
    constructor
    · rintro ⟨hu, hnot⟩
      exact ⟨.inl hu, hnot⟩
    · rintro ⟨hu | rfl, hnot⟩
      · exact ⟨hu, hnot⟩
      · exact (h.mem_iff u).1 (hskip.resolve_left hnot)
  ordered := h.ordered_append [unit]

/-- Any other candidate is chosen behind all that were. -/
theorem take {unit : UnitId} (h : Selects excluded candidates chosen) (hin : unit ∉ excluded)
    (hnew : unit ∉ chosen) : Selects excluded (candidates ++ [unit]) (chosen ++ [unit]) where
  mem_iff := by
    intro u
    simp only [List.mem_append, List.mem_singleton, h.mem_iff]
    constructor
    · rintro (⟨hu, hnot⟩ | rfl)
      · exact ⟨.inl hu, hnot⟩
      · exact ⟨.inr rfl, hin⟩
    · rintro ⟨hu | rfl, hnot⟩
      · exact .inl ⟨hu, hnot⟩
      · exact .inr rfl
  ordered := by
    have hfresh : unit ∉ candidates := fun hold => hnew ((h.mem_iff unit).2 ⟨hold, hin⟩)
    refine List.pairwise_append.2 ⟨h.ordered_append [unit], List.pairwise_singleton _ _, ?_⟩
    intro u hu v hv
    have hold := ((h.mem_iff u).1 hu).1
    rw [List.mem_singleton.1 hv, List.idxOf_append_of_mem hold,
      List.idxOf_append_of_notMem hfresh]
    exact Nat.lt_add_right _ (List.idxOf_lt_length_of_mem hold)

end Selects

/-- What is chosen from the rest is added to what was chosen before. -/
theorem selects_choose {excluded candidates chosen : List UnitId}
    (h : Selects excluded candidates chosen) (rest : List UnitId) :
    Selects excluded (candidates ++ rest) (choose excluded chosen rest) := by
  induction rest generalizing candidates chosen with
  | nil => simpa [choose] using h
  | cons unit rest ih =>
      rw [choose, List.append_cons]
      split
      · rename_i hskip
        rw [Bool.or_eq_true, List.contains_iff_mem, List.contains_iff_mem] at hskip
        exact ih (h.skip hskip)
      · rename_i htake
        rw [Bool.or_eq_true, List.contains_iff_mem, List.contains_iff_mem, not_or] at htake
        exact ih (h.take htake.1 htake.2)

theorem selects_suites (w : World) (s : SuiteSelection) :
    Selects s.excluded (s.found w ++ s.added) (s.suites w) :=
  selects_choose (.nil s.excluded) _

theorem mem_found_iff {w : World} {s : SuiteSelection} {u : UnitId} :
    u ∈ s.found w ↔ w.isDir s.root = true ∧ u ∈ discover w s.root := by
  rw [found]
  split
  · rename_i hdir
    exact (and_iff_right hdir).symm
  · rename_i hdir
    exact iff_of_false List.not_mem_nil fun h => hdir h.1

/-! ### Calls on a selection -/

/-- A call that adds suites or leaves suites out. -/
inductive Call where
  | including (units : List UnitId)
  | excluding (units : List UnitId)
deriving DecidableEq, Repr

namespace Call

/-- The selection behind a call. -/
def apply (s : SuiteSelection) : Call → SuiteSelection
  | including units => s.including units
  | excluding units => s.excluding units

/-- What a call adds. -/
def added : Call → List UnitId
  | including units => units
  | excluding _ => []

/-- What a call leaves out. -/
def excluded : Call → List UnitId
  | including _ => []
  | excluding units => units

end Call

/-- The selection behind some calls. -/
def after (s : SuiteSelection) (calls : List Call) : SuiteSelection := calls.foldl Call.apply s

theorem after_eq (s : SuiteSelection) (calls : List Call) :
    s.after calls =
      ⟨s.root, s.added ++ calls.flatMap Call.added, s.excluded ++ calls.flatMap Call.excluded⟩ := by
  induction calls generalizing s with
  | nil => simp [after]
  | cons call rest ih =>
      rw [after, List.foldl_cons, ← after, ih]
      cases call with
      | including units => simp [Call.apply, SuiteSelection.including, Call.added, Call.excluded]
      | excluding units => simp [Call.apply, SuiteSelection.excluding, Call.added, Call.excluded]

end SuiteSelection

/-! ### Names and parts of names -/

theorem Text.occursIn_iff {part text : List Char} : occursIn part text = true ↔ part <:+: text := by
  induction text with
  | nil => rw [occursIn, List.isEmpty_iff, List.infix_nil]
  | cons c rest ih =>
      rw [occursIn, Bool.or_eq_true, List.isPrefixOf_iff_prefix, ih, List.infix_cons_iff]

namespace Cli.Test

/-- A name asks for the suite of that name; without one, a filter asks for those that hold it; and
without both, every suite is asked for. -/
def AskedFor (name filter : Option String) (suite : UnitId) : Prop :=
  match name, filter with
  | some n, _ => suite.text = n
  | none, some f => f.toList <:+: suite.text.toList
  | none, none => True

theorem wanted_iff {name filter : Option String} {suite : UnitId} :
    wanted name filter suite = true ↔ AskedFor name filter suite := by
  cases name with
  | some n => rw [wanted, AskedFor, beq_iff_eq]
  | none =>
      cases filter with
      | some f => rw [wanted, AskedFor, Text.occursIn_iff]
      | none => exact iff_of_true rfl trivial

/-- A list without repetition holds one suite of a name, or none. -/
theorem filter_wanted_name {suites : List UnitId} (hnodup : suites.Nodup) (n : String)
    (filter : Option String) :
    suites.filter (wanted (some n) filter) = if ⟨n⟩ ∈ suites then [⟨n⟩] else [] := by
  have hwanted : wanted (some n) filter = fun u => u == (⟨n⟩ : UnitId) := by
    funext u
    rw [Bool.eq_iff_iff, wanted_iff, AskedFor, beq_iff_eq, UnitId.mk.injEq]
  rw [hwanted, List.filter_beq, hnodup.count]
  split
  · rfl
  · rfl

end Cli.Test

namespace SuiteSelection

open Cli.Test (wanted AskedFor)

/-- The suites of a selection after any calls, and those that are kept of them: the members of both
lists and their order. -/
theorem suites_after (w : World) (s : SuiteSelection) (calls : List Call)
    (name filter : Option String) :
    let added := s.added ++ calls.flatMap Call.added
    let excluded := s.excluded ++ calls.flatMap Call.excluded
    let suites := (s.after calls).suites w
    let kept := suites.filter (wanted name filter)
    suites.Nodup ∧
      (∀ u, u ∈ suites ↔
        ((w.isDir s.root = true ∧ u ∈ discover w s.root) ∨ u ∈ added) ∧ u ∉ excluded) ∧
      (suites.Pairwise fun u v =>
        (s.found w ++ added).idxOf u < (s.found w ++ added).idxOf v) ∧
      kept.Sublist suites ∧
      (∀ u, u ∈ kept ↔ u ∈ suites ∧ AskedFor name filter u) ∧
      ∀ n, name = some n → kept = if ⟨n⟩ ∈ suites then [⟨n⟩] else [] := by
  have hselects := selects_suites w (s.after calls)
  rw [after_eq] at hselects ⊢
  refine ⟨hselects.nodup, ?_, hselects.ordered, List.filter_sublist, ?_, ?_⟩
  · intro u
    rw [hselects.mem_iff, List.mem_append, mem_found_iff]
  · intro u
    rw [List.mem_filter, Cli.Test.wanted_iff]
  · rintro n rfl
    exact Cli.Test.filter_wanted_name hselects.nodup n filter

end SuiteSelection

end ClojureBuild
