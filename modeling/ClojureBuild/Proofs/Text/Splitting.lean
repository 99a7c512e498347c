import ClojureBuild.Text.Split
/-!
The pieces of a text.

What stands in a piece stands in the text, and what stands in joined pieces is a separator or stands
in a piece.  Main statements: joined pieces that hold no separator are split as they were, and
splitting and joining commute with a change of characters.
-/

namespace ClojureBuild.Text

/-- A character of a piece is one of the text. -/
theorem mem_of_mem_splitOn {sep c : Char} {text piece : List Char}
    (hpiece : piece ∈ splitOn sep text) (hc : c ∈ piece) : c ∈ text := by
  induction text generalizing piece with
  | nil => simp_all [splitOn]
  | cons d rest ih =>
      simp only [splitOn] at hpiece
      split at hpiece
      · rcases List.mem_cons.1 hpiece with rfl | hrest
        · exact absurd hc List.not_mem_nil
        · exact List.mem_cons_of_mem d (ih hrest hc)
      · cases hpieces : splitOn sep rest with
        | nil => exact absurd hpieces (splitOn_ne_nil sep rest)
        | cons first pieces =>
            rw [hpieces] at hpiece
            rcases List.mem_cons.1 hpiece with rfl | hrest
            · rcases List.mem_cons.1 hc with rfl | hc
              · exact List.mem_cons_self
              · exact List.mem_cons_of_mem d (ih (by simp [hpieces]) hc)
            · exact List.mem_cons_of_mem d (ih (by simp [hpieces, hrest]) hc)

/-- Splitting cuts at a separator between two texts. -/
theorem splitOn_append_sep (sep : Char) (front back : List Char) :
    splitOn sep (front ++ sep :: back) = splitOn sep front ++ splitOn sep back := by
  induction front with
  | nil => simp [splitOn]
  | cons c rest ih =>
      by_cases hc : c = sep
      · simp [splitOn, hc, ih]
      · simp only [List.cons_append, splitOn, hc, ↓reduceIte, ih]
        cases hpieces : splitOn sep rest with
        | nil => exact absurd hpieces (splitOn_ne_nil sep rest)
        | cons piece pieces => simp

theorem splitOn_of_not_mem {sep : Char} {text : List Char} (h : sep ∉ text) :
    splitOn sep text = [text] := by
  induction text with
  | nil => rfl
  | cons c rest ih =>
      simp only [List.mem_cons, not_or] at h
      simp [splitOn, Ne.symm h.1, ih h.2]

/-- Joined pieces that hold no separator are split as they were. -/
theorem splitOn_joinWith {sep : Char} {pieces : List (List Char)} (hne : pieces ≠ [])
    (h : ∀ piece ∈ pieces, sep ∉ piece) : splitOn sep (joinWith sep pieces) = pieces := by
  induction pieces with
  | nil => exact absurd rfl hne
  | cons piece rest ih =>
      have hpiece := h piece List.mem_cons_self
      cases rest with
      | nil => simpa [joinWith] using splitOn_of_not_mem hpiece
      | cons next more =>
          have hrest : splitOn sep (joinWith sep (next :: more)) = next :: more :=
            ih (by simp) fun q hq => h q (List.mem_cons_of_mem piece hq)
          rw [joinWith, splitOn_append_sep, splitOn_of_not_mem hpiece, hrest]
          rfl

/-- A character of joined pieces is the separator or stands in a piece. -/
theorem mem_joinWith {sep c : Char} {pieces : List (List Char)} (h : c ∈ joinWith sep pieces) :
    c = sep ∨ ∃ piece ∈ pieces, c ∈ piece := by
  induction pieces with
  | nil => exact absurd h List.not_mem_nil
  | cons piece rest ih =>
      cases rest with
      | nil => exact Or.inr ⟨piece, List.mem_cons_self, h⟩
      | cons next more =>
          rw [joinWith, List.mem_append, List.mem_cons] at h
          rcases h with hpiece | hsep | hrest
          · exact Or.inr ⟨piece, List.mem_cons_self, hpiece⟩
          · exact Or.inl hsep
          · rcases ih hrest with hsep | ⟨other, hother, hc⟩
            · exact Or.inl hsep
            · exact Or.inr ⟨other, List.mem_cons_of_mem piece hother, hc⟩

/-- The pieces of a front of a text are a front of its pieces, but for the last, which may be cut
off. -/
theorem splitOn_append (sep : Char) (front back : List Char) :
    ∃ pieces last first others, splitOn sep front = pieces ++ [last] ∧
      splitOn sep back = first :: others ∧
      splitOn sep (front ++ back) = pieces ++ (last ++ first) :: others := by
  obtain ⟨first, others, hback⟩ := List.exists_cons_of_ne_nil (splitOn_ne_nil sep back)
  induction front with
  | nil => exact ⟨[], [], first, others, rfl, hback, hback⟩
  | cons c rest ih =>
      obtain ⟨pieces, last, first', others', hrest, hback', hwhole⟩ := ih
      obtain ⟨rfl, rfl⟩ := List.cons_eq_cons.1 (hback.symm.trans hback')
      rw [List.cons_append]
      by_cases hc : c = sep
      · exact ⟨[] :: pieces, last, first, others, by simp [splitOn, hc, hrest], hback,
          by simp [splitOn, hc, hwhole]⟩
      · cases pieces with
        | nil =>
            exact ⟨[], c :: last, first, others, by simp [splitOn, hc, hrest], hback,
              by simp [splitOn, hc, hwhole]⟩
        | cons piece more =>
            exact ⟨(c :: piece) :: more, last, first, others, by simp [splitOn, hc, hrest], hback,
              by simp [splitOn, hc, hwhole]⟩

/-- A change of characters passes over joining. -/
theorem map_joinWith (f : Char → Char) (sep : Char) (pieces : List (List Char)) :
    (joinWith sep pieces).map f = joinWith (f sep) (pieces.map (List.map f)) := by
  induction pieces with
  | nil => rfl
  | cons piece rest ih =>
      cases rest with
      | nil => rfl
      | cons next more =>
          rw [joinWith, List.map_append, List.map_cons, ih]
          rfl

/-- Splitting commutes with a change of characters that makes separators of separators only. -/
theorem splitOn_map {sep sep' : Char} {f : Char → Char} {text : List Char}
    (h : ∀ c ∈ text, f c = sep' ↔ c = sep) :
    splitOn sep' (text.map f) = (splitOn sep text).map (List.map f) := by
  induction text with
  | nil => rfl
  | cons c rest ih =>
      have hc := h c List.mem_cons_self
      have hrest := ih fun d hd => h d (List.mem_cons_of_mem c hd)
      by_cases hsep : c = sep
      · rw [List.map_cons, splitOn, if_pos (hc.2 hsep), hrest, splitOn, if_pos hsep]
        rfl
      · have hsep' : f c ≠ sep' := fun heq => hsep (hc.1 heq)
        simp only [List.map_cons, splitOn, hsep, hsep', ↓reduceIte, hrest]
        cases splitOn sep rest with
        | nil => rfl
        | cons piece pieces => rfl

end ClojureBuild.Text
