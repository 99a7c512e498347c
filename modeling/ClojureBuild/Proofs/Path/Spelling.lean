import ClojureBuild.Proofs.Path.Extension
/-!
How absolute paths are spelled.

The absolute form of a path keeps no separator and no `.` that could be left out, but two separators
at the front if there are exactly two.  Main statement: two such forms of one place have the same
text, unless one of them has that separator more.
-/

namespace ClojureBuild.Path

/-- Whether a path begins with exactly two separators. -/
def doubled (p : Path) : Bool :=
  match p.text.toList with
  | '/' :: '/' :: '/' :: _ => false
  | '/' :: '/' :: _ => true
  | _ => false

/-- The empty piece that exactly two separators put in front of the other pieces. -/
def lead (p : Path) : List (List Char) :=
  if p.doubled then [[]] else []

/-- A path from the root, with some pieces in front of those that name something. -/
structure Spelled (front : List (List Char)) (p : Path) : Prop where
  head : p.head = .root
  pieces : p.pieces = front ++ p.pieces.filter significant

/-- Two texts of one place, of which one may have a separator more at its front. -/
def SpelledAlike (p q : Path) : Prop :=
  p = q ∨ p.text = "/" ++ q.text ∨ q.text = "/" ++ p.text

theorem componentOfPiece_injective : Function.Injective componentOfPiece := by
  intro a b h
  unfold componentOfPiece at h
  split at h <;> split at h
  next ha hb => rw [ha, hb]
  next => exact absurd h (by simp)
  next => exact absurd h (by simp)
  next => exact String.ofList_injective (Component.name.inj h)

variable {p q : Path}

theorem significant_of_mem_filter {piece : List Char} (h : piece ∈ p.pieces.filter significant) :
    significant piece = true ∧ '/' ∉ piece :=
  ⟨(List.mem_filter.1 h).2, Text.not_mem_of_mem_splitOn (List.mem_filter.1 h).1⟩

theorem head?_map_componentOfPiece (kept : List (List Char)) :
    some .root ≠ (kept.map componentOfPiece).head? ∧
      some .here ≠ (kept.map componentOfPiece).head? := by
  cases kept with
  | nil => simp
  | cons piece rest =>
      simp only [List.map_cons, List.head?_cons, componentOfPiece]
      split <;> simp

theorem head_eq_of_components (h : p.components = q.components) : p.head = q.head := by
  have hfirst := congrArg List.head? h
  rw [components_eq, components_eq] at hfirst
  have hp := head?_map_componentOfPiece (p.pieces.filter significant)
  have hq := head?_map_componentOfPiece (q.pieces.filter significant)
  cases hhead : p.head <;> cases hhead' : q.head <;>
    simp_all [Head.components, eq_comm]

theorem filter_eq_of_components (h : p.components = q.components) :
    p.pieces.filter significant = q.pieces.filter significant := by
  have hhead := head_eq_of_components h
  rw [components_eq, components_eq, hhead, List.append_cancel_left_eq] at h
  exact componentOfPiece_injective.list_map h

namespace Spelled

variable {front : List (List Char)}

theorem eq_of_same (hp : Spelled front p) (hq : Spelled front q) (h : p.same q = true) : p = q := by
  rw [← assemble_head_pieces p, ← assemble_head_pieces q, hp.head, hq.head, hp.pieces, hq.pieces,
    filter_eq_of_components (eq_of_beq h)]

/-- An empty piece in front is a separator more. -/
theorem text_of_same (hp : Spelled [[]] p) (hq : Spelled [] q) (h : p.same q = true) :
    p.text = "/" ++ q.text := by
  have hne : q.pieces ≠ [] := Text.splitOn_ne_nil '/' _
  have hpieces : p.pieces = [] :: q.pieces := by
    rw [hp.pieces, filter_eq_of_components (eq_of_beq h), hq.pieces]
    simp
  rw [← assemble_head_pieces p, ← assemble_head_pieces q, hp.head, hq.head, hpieces, assemble,
    assemble, ← String.toList_inj, joinWith_cons _ hne]
  simp [Head.chars]

theorem alike_of_same {s s' : Path} (hp : Spelled s.lead p) (hq : Spelled s'.lead q)
    (h : p.same q = true) : SpelledAlike p q := by
  have hback : q.same p = true := beq_iff_eq.2 (eq_of_beq h).symm
  unfold lead at hp hq
  split at hp <;> split at hq
  · exact Or.inl (eq_of_same hp hq h)
  · exact Or.inr (Or.inl (text_of_same hp hq h))
  · exact Or.inr (Or.inr (text_of_same hq hp hback))
  · exact Or.inl (eq_of_same hp hq h)

end Spelled

/-! ### Joining pieces -/

/-- A piece that names something is put behind what stands in front of it. -/
theorem pieces_join (p : Path) {piece : List Char} (hpiece : significant piece = true)
    (hslash : '/' ∉ piece) :
    (p.join ⟨String.ofList piece⟩).head = p.head ∧
      (p.join ⟨String.ofList piece⟩).pieces = p.front ++ [piece] ∧
      (p.join ⟨String.ofList piece⟩).front = p.front ++ [piece] := by
  have hne : piece ≠ [] ∧ piece ≠ ['.'] := by simpa [significant] using hpiece
  have hsplit : splitHead (⟨String.ofList piece⟩ : Path).text.toList =
      (.bare, (⟨String.ofList piece⟩ : Path).text.toList) := by
    rw [String.toList_ofList]
    exact splitHead_of_relative hslash hne.2
  have hrelative : (⟨String.ofList piece⟩ : Path).text.toList.head? ≠ some '/' := by
    rw [String.toList_ofList]
    exact fun hhead => hslash (List.mem_of_mem_head? hhead)
  obtain ⟨hhead, hpieces⟩ := head_pieces_join p hsplit hrelative
  rw [String.toList_ofList, Text.splitOn_of_not_mem hslash] at hpieces
  have hgap : gap (p.join ⟨String.ofList piece⟩).text.toList ≠ [] := by
    rw [join, String.toList_ofList, joinChars_of_relative _ hrelative, String.toList_ofList,
      ← List.append_assoc, gap_append _ hne.1, gap, if_neg]
    · exact List.cons_ne_nil _ _
    · rintro (hnil | hlast)
      · exact hne.1 hnil
      · exact hslash (List.mem_of_getLast? hlast)
  exact ⟨hhead, hpieces, by rw [front, if_neg hgap, hpieces]⟩

/-- Pieces that name something are put one behind the other. -/
theorem pieces_foldl_join (start : Path) {pieces : List (List Char)} (hne : pieces ≠ [])
    (h : ∀ piece ∈ pieces, significant piece = true ∧ '/' ∉ piece) {whole : Path}
    (hwhole : whole = (pieces.map String.ofList).foldl (fun q s => q.join ⟨s⟩) start) :
    whole.head = start.head ∧ whole.pieces = start.front ++ pieces := by
  induction pieces generalizing start with
  | nil => exact absurd rfl hne
  | cons piece rest ih =>
      obtain ⟨⟨hpiece, hslash⟩, hrest⟩ := List.forall_mem_cons.1 h
      obtain ⟨hhead, hpieces, hfront⟩ := pieces_join start hpiece hslash
      by_cases hmore : rest = []
      · subst hmore
        exact hwhole ▸ ⟨hhead, hpieces⟩
      · obtain ⟨hhead', hpieces'⟩ := ih _ hmore hrest hwhole
        rw [hfront, List.append_assoc] at hpieces'
        exact ⟨hhead'.trans hhead, hpieces'⟩

/-! ### Absolute forms -/

/-- A path from the root that has nothing in front of its pieces that could be left out. -/
def Plain (p : Path) : Prop :=
  p.head = .root ∧ p.front = p.front.filter significant

/-- The absolute form of a path is spelled from the root, with an empty piece in front if the path
begins with exactly two separators. -/
theorem spelled_of_absolute? {cwd p q : Path} (hcwd : Plain cwd)
    (hlast : p.text.toList.getLast? ≠ some '/') (hsome : p.pieces.filter significant ≠ [])
    (h : absolute? cwd p = some q) : Spelled p.lead q := by
  have hpieces := fun piece => @significant_of_mem_filter p piece
  have hjoined := fun start => @pieces_foldl_join start _ hsome hpieces _ rfl
  -- each start is a plain one, but for the empty piece in front
  suffices hstart : ∃ start : Path, start.head = .root ∧
      start.front = p.lead ++ start.front.filter significant ∧
      (((p.pieces.filter significant).map String.ofList).foldl (fun q s => q.join ⟨s⟩) start) =
        q by
    obtain ⟨start, hhead, hfront, rfl⟩ := hstart
    obtain ⟨hhead', hwhole⟩ := hjoined start
    refine ⟨hhead'.trans hhead, ?_⟩
    rw [hwhole, List.filter_append, ← List.append_assoc, ← hfront, List.filter_filter]
    simp
  have hsingle : (∀ rest, p.text.toList ≠ '/' :: '/' :: rest) → p.lead = [] := by
    intro hnot
    rw [lead, if_neg]
    unfold doubled
    split
    · exact Bool.false_ne_true
    next htext => exact absurd htext (hnot _)
    · exact Bool.false_ne_true
  unfold absolute? at h
  split at h
  · exact absurd h (by simp)
  · simp only [if_neg hlast] at h
    split at h
    next htext =>
        have hlead : p.lead = [] := by simp [lead, doubled, htext]
        exact ⟨⟨"/"⟩, rfl, by rw [hlead]; decide, Option.some.inj h⟩
    next hmore htext =>
        have hlead : p.lead = [[]] := by simp [lead, doubled, htext]
        exact ⟨⟨"//"⟩, rfl, by rw [hlead]; decide, Option.some.inj h⟩
    next hmore hdouble htext =>
        have hlead := hsingle fun rest hrest => hdouble _ (List.cons.inj (htext.symm.trans hrest)).2
        exact ⟨⟨"/"⟩, rfl, by rw [hlead]; decide, Option.some.inj h⟩
    next hmore hdouble hroot =>
        have hlead := hsingle hdouble
        exact ⟨cwd, hcwd.1, by rw [hlead]; exact hcwd.2, Option.some.inj h⟩

/-- A path with an extension has a piece that names something. -/
theorem exists_significant_of_extension? {p : Path} {ext : String} (h : p.extension? = some ext) :
    p.pieces.filter significant ≠ [] := by
  intro hnone
  have htrim : trimPieces p.pieces = [] := by
    rcases List.eq_nil_or_concat (trimPieces p.pieces) with hnil | ⟨front, last, hconcat⟩
    · exact hnil
    · rw [List.concat_eq_append] at hconcat
      rw [← filter_significant_trimPieces, hconcat, List.filter_append,
        List.filter_cons_of_pos (significant_of_trimPieces hconcat)] at hnone
      exact absurd (List.append_eq_nil_iff.1 hnone).2 (List.cons_ne_nil _ _)
  rw [extension?, fileName?, htrim] at h
  exact absurd h (by simp)

/-- Going down leaves the separators at the front as they are. -/
theorem doubled_div {p : Path} (hp : p.text ≠ "") {name : String} (hname : IsName name) :
    (p / name).doubled = p.doubled := by
  obtain ⟨c, rest, htext⟩ := List.exists_cons_of_ne_nil (mt String.toList_eq_nil_iff.1 hp)
  obtain ⟨d, more, hchars⟩ := List.exists_cons_of_ne_nil hname.nonempty
  have hd : d ≠ '/' := by
    rintro rfl
    exact hname.relative (by rw [hchars]; rfl)
  rw [doubled, doubled, text_div, joinChars_of_relative _ hname.relative, htext, hchars]
  by_cases hc : c = '/'
  · subst hc
    rcases rest with _ | ⟨e, _ | ⟨f, rest⟩⟩
    · simp [gap, hd]
    · by_cases he : e = '/'
      · simp [gap, he, hd]
      · simp [gap, he]
    · by_cases he : e = '/'
      · by_cases hf : f = '/' <;> simp [he, hf]
      · simp [he]
  · simp [hc]

theorem lead_descend {p : Path} (hp : p.text ≠ "") {names : List String}
    (hnames : ∀ name ∈ names, IsName name) : (p.descend names).lead = p.lead := by
  induction names generalizing p with
  | nil => rfl
  | cons name rest ih =>
      obtain ⟨hname, hrest⟩ := List.forall_mem_cons.1 hnames
      have hmore : (p / name).text ≠ "" := by
        intro hempty
        have hgap := gap_div p hname
        rw [hempty] at hgap
        exact absurd hgap (by decide)
      rw [descend_cons, ih hmore hrest, lead, doubled_div hp hname, lead]

end ClojureBuild.Path
