import ClojureBuild.Proofs.Path.Descent
import ClojureBuild.Proofs.Text.Octets
/-!
Paths that are shown.

What is shown of a path is a text, and a text spells a path again.  The two are the same when the
path is a text, and a path that was joined is one when both of its sides are.  Main statement:
behind a text, what is shown of a path is what was shown before.
-/

namespace ClojureBuild.Path

/-- The path that is spelled by what is shown of a path. -/
def shown (p : Path) : Path := .ofText p.display

variable {p q : Path}

theorem isText_iff : p.isText = true ↔ ∃ text, Path.ofText text = p := by
  rw [isText, Octets.isText_iff]
  exact exists_congr fun text => ⟨congrArg Path.mk, congrArg Path.text⟩

theorem isText_shown (p : Path) : p.shown.isText = true := isText_iff.2 ⟨p.display, rfl⟩

theorem relative_shown_iff :
    p.shown.text.toList.head? = some '/' ↔ p.text.toList.head? = some '/' := by
  have hback : Octets.toText p.shown.text = p.display := Octets.toText_ofText p.display
  rw [← Octets.head_toText_iff (by decide) (by decide), hback, display,
    Octets.head_toText_iff (by decide) (by decide)]

theorem text_shown_eq_empty_iff : p.shown.text = "" ↔ p.text = "" :=
  Octets.ofText_eq_empty_iff.trans Octets.toText_eq_empty_iff

/-! ### Joined paths -/

theorem text_join_of_relative (p : Path) (hq : q.text.toList.head? ≠ some '/') :
    (p.join q).text.toList = p.text.toList ++ (gap p.text.toList ++ q.text.toList) := by
  rw [join, String.toList_ofList, joinChars_of_relative _ hq]

/-- A joined path is a text when both sides are. -/
theorem isText_join (p : Path) (hq : q.text.toList.head? ≠ some '/') :
    (p.join q).isText = (p.isText && q.isText) := by
  have hof : ∀ r : Path, r.isText = Octets.isText (String.ofList r.text.toList) := fun r => by
    rw [isText, String.ofList_toList]
  have hnil : Octets.isText (String.ofList []) = true := by decide +kernel
  rw [hof, hof, hof, text_join_of_relative p hq]
  by_cases hgap : gap p.text.toList = []
  · rw [hgap, List.nil_append]
    rcases ended_of_gap hgap with hempty | ⟨body, hbody⟩
    · rw [hempty, List.nil_append, hnil, Bool.true_and]
    · rw [hbody, List.append_assoc, List.singleton_append,
        Octets.isText_append_sep (by decide), Octets.isText_append_sep (by decide), hnil,
        Bool.and_true]
  · rw [gap_eq_slash hgap, List.singleton_append, Octets.isText_append_sep (by decide)]

theorem isText_foldl_join (start : Path) {names : List OsText}
    (hnames : ∀ name ∈ names, name.toList.head? ≠ some '/') :
    (names.foldl (fun r s => r.join ⟨s⟩) start).isText =
      (start.isText && names.all Octets.isText) := by
  induction names generalizing start with
  | nil => simp
  | cons name rest ih =>
      obtain ⟨hname, hrest⟩ := List.forall_mem_cons.1 hnames
      rw [List.foldl_cons, ih _ hrest, isText_join start hname, List.all_cons, Bool.and_assoc]
      rfl

theorem isText_descend (p : Path) {names : List OsText} (hnames : ∀ name ∈ names, IsName name) :
    (p.descend names).isText = (p.isText && names.all Octets.isText) :=
  isText_foldl_join p fun name hname => (hnames name hname).relative

/-- What is shown behind a text is what was shown before. -/
theorem shown_join (hp : p.isText = true) (q : Path) : (p.join q).shown = p.join q.shown := by
  by_cases hq : q.text.toList.head? = some '/'
  · have hroot := relative_shown_iff.2 hq
    rw [join, join, joinChars, joinChars, if_pos hq, if_pos hroot, String.ofList_toList,
      String.ofList_toList]
  · have hshown : q.shown.text.toList.head? ≠ some '/' := mt relative_shown_iff.1 hq
    obtain ⟨text, rfl⟩ := isText_iff.1 hp
    have hgap : ∀ chars : List Char, Octets.ofText (String.ofList (gap chars)) =
        String.ofList (gap chars) := by
      intro chars
      by_cases hnil : gap chars = []
      · rw [hnil]
        rfl
      · rw [gap_eq_slash hnil]
        rfl
    have hjoined : ((Path.ofText text).join q).text = Octets.ofText
        (text ++ String.ofList (gap (Path.ofText text).text.toList)) ++ q.text := by
      rw [← String.toList_inj, text_join_of_relative _ hq, Octets.ofText_append, hgap]
      simp [ofText]
    have hback : ((Path.ofText text).join q).shown.text = Octets.ofText
        (text ++ String.ofList (gap (Path.ofText text).text.toList)) ++ q.shown.text := by
      rw [shown, display, hjoined, Octets.toText_append, ofText, Octets.ofText_append]
      rfl
    have htext : ((Path.ofText text).join q).shown.text =
        ((Path.ofText text).join q.shown).text := by
      rw [hback, ← String.toList_inj, text_join_of_relative _ hshown, Octets.ofText_append, hgap]
      simp [ofText]
    generalize ((Path.ofText text).join q).shown = left at htext ⊢
    generalize (Path.ofText text).join q.shown = right at htext ⊢
    exact congrArg Path.mk htext

end ClojureBuild.Path
