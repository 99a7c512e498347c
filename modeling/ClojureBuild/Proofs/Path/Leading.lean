import ClojureBuild.Proofs.Path.Spelling
import ClojureBuild.Proofs.World.Absolute
/-!
The leading parts of a path.

A leading part of a path is the path itself, or its text cut right behind one of its components.  A
relative path has the empty path among them, an absolute one ends with the root.  Main statement:
going up from a path by the directory that holds it passes through exactly its leading parts, from
the longest to the shortest.
-/

namespace ClojureBuild

namespace Text

/-- The text of the first pieces stands at the front of the text of them all. -/
theorem joinWith_front (sep : Char) {front pieces : List (List Char)} (h : front <+: pieces) :
    joinWith sep front <+: joinWith sep pieces := by
  induction front generalizing pieces with
  | nil => exact List.nil_prefix
  | cons piece rest ih =>
      obtain ⟨others, rfl⟩ : ∃ others, pieces = piece :: others := by
        obtain ⟨back, rfl⟩ := h
        exact ⟨rest ++ back, rfl⟩
      have hrest := ih (List.cons_prefix_cons.1 h).2
      cases rest with
      | nil =>
          cases others with
          | nil => exact List.prefix_rfl
          | cons next more => exact List.prefix_append piece _
      | cons next more =>
          obtain ⟨first, others, rfl⟩ : ∃ first more, others = first :: more := by
            obtain ⟨back, hback⟩ := h
            exact ⟨next, more ++ back, (List.cons_eq_cons.1 hback).2.symm⟩
          rw [joinWith, joinWith]
          exact (List.prefix_append_right_inj piece).2 (List.cons_prefix_cons.2 ⟨rfl, hrest⟩)

end Text

namespace Path

variable {p q a b start : Path}

/-! ### Paths with nothing behind their last component -/

/-- Nothing stands behind the last component of a path. -/
def Trimmed (p : Path) : Prop :=
  p.pieces = [[]] ∨ ∃ front last, p.pieces = front ++ [last] ∧ significant last = true

theorem head_pieces_front {front : List (List Char)} {last : List Char}
    (h : front ++ [last] <+: p.pieces) (hlast : significant last = true) :
    (assemble p.head (front ++ [last])).head = p.head ∧
      (assemble p.head (front ++ [last])).pieces = front ++ [last] :=
  head_pieces_of_front h hlast hlast (Text.not_mem_of_mem_splitOn (h.subset (by simp)))

/-- What the first pieces of a path spell when the insignificant ones behind them are dropped. -/
theorem assemble_trimPieces {pieces : List (List Char)} (h : pieces <+: p.pieces) :
    (assemble p.head (trimPieces pieces)).head = p.head ∧
      (assemble p.head (trimPieces pieces)).Trimmed ∧
      (assemble p.head (trimPieces pieces)).pieces.filter significant =
        pieces.filter significant ∧
      (assemble p.head (trimPieces pieces)).text.toList <+: p.text.toList := by
  have htext : (assemble p.head (trimPieces pieces)).text.toList <+: p.text.toList := by
    conv_rhs => rw [← assemble_head_pieces p]
    rw [assemble, assemble, String.toList_ofList, String.toList_ofList,
      List.prefix_append_right_inj]
    exact Text.joinWith_front '/' ((trimPieces_front pieces).trans h)
  have hkept := filter_significant_trimPieces pieces
  rcases List.eq_nil_or_concat (trimPieces pieces) with hnil | ⟨front, last, hconcat⟩
  · rw [hnil] at hkept htext ⊢
    have hhead : (assemble p.head []).head = p.head ∧ (assemble p.head []).pieces = [[]] := by
      cases p.head <;> decide
    exact ⟨hhead.1, Or.inl hhead.2, by rw [hhead.2, ← hkept]; rfl, htext⟩
  · rw [List.concat_eq_append] at hconcat
    rw [hconcat] at hkept htext ⊢
    have hlast := significant_of_trimPieces hconcat
    obtain ⟨hhead, hpieces⟩ :=
      head_pieces_front ((hconcat ▸ trimPieces_front pieces : _ <+: pieces).trans h) hlast
    exact ⟨hhead, Or.inr ⟨front, last, hpieces, hlast⟩, by rw [hpieces, hkept], htext⟩

theorem significant_append {piece : List Char} (h : significant piece = true) (more : List Char) :
    significant (piece ++ more) = true := by
  obtain ⟨hne, hhere⟩ : piece ≠ [] ∧ piece ≠ ['.'] := by simpa [significant] using h
  obtain ⟨c, rest, rfl⟩ := List.exists_cons_of_ne_nil hne
  simp only [significant, List.cons_append, Bool.and_eq_true, bne_iff_ne]
  refine ⟨by simp, fun heq => hhere ?_⟩
  obtain ⟨hc, hrest⟩ := List.cons_eq_cons.1 heq
  rw [hc, (List.append_eq_nil_iff.1 hrest).1]

/-- A path with nothing behind its last component has other components than every text in front of
its own. -/
theorem Trimmed.eq_of_front (hq : q.Trimmed) (htext : p.text.toList <+: q.text.toList)
    (h : p.components = q.components) : p = q := by
  have hhead := head_eq_of_components h
  have hkept := filter_eq_of_components h
  have hchars : ∀ path : Path,
      path.head.chars ++ Text.joinWith '/' path.pieces = path.text.toList := by
    intro path
    rw [pieces, Text.joinWith_splitOn]
    exact chars_splitHead path.text.toList
  obtain ⟨more, hmore⟩ := htext
  have hwhole : Text.joinWith '/' p.pieces ++ more = Text.joinWith '/' q.pieces := by
    rw [← hchars p, ← hchars q, hhead, List.append_assoc, List.append_cancel_left_eq] at hmore
    exact hmore
  obtain ⟨pieces, last, first, others, hfront, hback, hsplit⟩ :=
    Text.splitOn_append '/' (Text.joinWith '/' p.pieces) more
  rw [hwhole] at hsplit
  rw [Path.pieces, Text.joinWith_splitOn] at hsplit hfront
  replace hfront : p.pieces = pieces ++ [last] := hfront
  replace hsplit : q.pieces = pieces ++ (last ++ first) :: others := hsplit
  -- nothing is left behind the front, since the last piece would name something
  have hnone : first :: others = [[]] := by
    rcases hq with hempty | ⟨front, name, hpieces, hname⟩
    · rw [hsplit, List.append_eq_singleton_iff] at hempty
      simp_all
    · rw [hfront, hsplit, List.filter_append, List.filter_append,
        List.append_cancel_left_eq] at hkept
      have hend := congrArg List.getLast? (hsplit.symm.trans hpieces)
      rw [List.getLast?_append_of_ne_nil _ (by simp), List.getLast?_append_of_ne_nil _ (by simp),
        List.getLast?_singleton] at hend
      have hlast : significant last = true := by
        by_contra hnot
        rw [List.filter_cons_of_neg hnot, List.filter_nil] at hkept
        exact absurd (hkept ▸ List.mem_filter.2 ⟨List.mem_of_getLast? hend, hname⟩) (by simp)
      rw [List.filter_cons_of_pos hlast, List.filter_nil,
        List.filter_cons_of_pos (significant_append hlast first)] at hkept
      obtain ⟨hfirst, hothers⟩ := List.cons_eq_cons.1 hkept
      have hshort : others = [] := by
        by_contra hne
        rw [List.getLast?_cons_of_ne_nil hne] at hend
        exact absurd (hothers ▸ List.mem_filter.2 ⟨List.mem_of_getLast? hend, hname⟩) (by simp)
      rw [hshort, List.self_eq_append_right.1 hfirst]
  have hmoreNil : more = [] := by
    rw [← Text.joinWith_splitOn '/' more, hback, hnone]
    rfl
  have htexts : p.text = q.text := by
    rw [← String.toList_inj, ← hmore, hmoreNil, List.append_nil]
  exact congrArg Path.mk htexts

/-! ### The directory that holds a path -/

/-- The directory that holds a path is spelled by a front of its text, up to one component less. -/
theorem front_of_parent? (h : p.parent? = some q) :
    q.Trimmed ∧ q.text.toList <+: p.text.toList ∧ q.isAbsolute = p.isAbsolute ∧
      ∃ last, p.components = q.components ++ [last] := by
  have habsolute : ∀ path : Path, path.head = p.head → path.isAbsolute = p.isAbsolute := by
    intro path hhead
    rw [Bool.eq_iff_iff, World.isAbsolute_iff, World.isAbsolute_iff, hhead]
  rw [parent?] at h
  split at h
  next hnone =>
      split at h
      next hhere =>
          obtain rfl := Option.some.inj h
          have hkept := filter_significant_trimPieces p.pieces
          rw [List.reverse_eq_nil_iff.1 hnone] at hkept
          refine ⟨Or.inl rfl, List.nil_prefix, ?_, .here, ?_⟩
          · rw [Bool.eq_iff_iff, World.isAbsolute_iff, World.isAbsolute_iff, hhere]
            decide
          · rw [components_eq p, hhere, ← hkept]
            rfl
      next => exact absurd h (by simp)
  next last front htrimmed =>
      obtain rfl := Option.some.inj h
      have hwhole : trimPieces p.pieces = front.reverse ++ [last] := by
        rw [← List.reverse_inj, htrimmed]
        simp
      have hfront : front.reverse <+: p.pieces :=
        (hwhole ▸ List.prefix_append _ _ : front.reverse <+: _).trans (trimPieces_front _)
      obtain ⟨hhead, htrimmed, hkept, htext⟩ := assemble_trimPieces hfront
      refine ⟨htrimmed, htext, habsolute _ hhead, componentOfPiece last, ?_⟩
      rw [components_eq, components_eq, hhead, hkept, ← filter_significant_trimPieces p.pieces,
        hwhole, List.filter_append, List.filter_cons_of_pos (significant_of_trimPieces hwhole)]
      simp

/-- Only the root and the empty path are held by no directory. -/
theorem parent?_eq_none_iff : p.parent? = none ↔ p.components = [] ∨ p.components = [.root] := by
  have hkept := filter_significant_trimPieces p.pieces
  rw [components_eq, parent?]
  split
  next hnone =>
      rw [List.reverse_eq_nil_iff.1 hnone] at hkept
      rw [← hkept]
      cases p.head <;> simp [Head.components]
  next last front htrimmed =>
      have hwhole : trimPieces p.pieces = front.reverse ++ [last] := by
        rw [← List.reverse_inj, htrimmed]
        simp
      refine iff_of_false (by simp) ?_
      rw [← hkept, hwhole, List.filter_append,
        List.filter_cons_of_pos (significant_of_trimPieces hwhole), List.filter_nil,
        List.map_append, ← List.append_assoc]
      rintro (hnil | hroot)
      · exact absurd hnil (by simp)
      · have hlast := congrArg List.getLast? hroot
        rw [List.getLast?_append_of_ne_nil _ (by simp)] at hlast
        exact (head?_map_componentOfPiece [last]).1 hlast.symm

/-! ### Going up -/

theorem length_lt_of_parent? (h : p.parent? = some q) : q.text.length < p.text.length := by
  obtain ⟨-, htext, -, last, hcomponents⟩ := front_of_parent? h
  rw [← String.length_toList, ← String.length_toList]
  refine lt_of_le_of_ne htext.length_le fun heq => ?_
  have hsame : q = p := congrArg Path.mk (String.toList_inj.1 (htext.eq_of_length heq))
  rw [hsame] at hcomponents
  simpa using congrArg List.length hcomponents

open World (ancestors)

/-- The directories above a path are those above the one that holds it. -/
theorem ancestors_eq (p : Path) : ancestors p = p :: p.parent?.elim [] ancestors := by
  have hgo : ∀ (n m : Nat) (p : Path), p.text.length ≤ n → p.text.length ≤ m →
      ancestors.go n p = ancestors.go m p := by
    intro n
    induction n with
    | zero =>
        intro m p hn _
        have hnone : p.parent? = none := by
          cases hparent : p.parent? with
          | none => rfl
          | some q => exact absurd (length_lt_of_parent? hparent) (by omega)
        cases m with
        | zero => rfl
        | succ m => rw [ancestors.go, ancestors.go, hnone]
    | succ n ih =>
        intro m p hn hm
        cases hparent : p.parent? with
        | none => cases m <;> simp [ancestors.go, hparent]
        | some q =>
            have hshorter := length_lt_of_parent? hparent
            obtain ⟨m, rfl⟩ := Nat.exists_eq_add_one_of_ne_zero (by omega : m ≠ 0)
            simp only [ancestors.go, hparent]
            rw [ih m q (by omega) (by omega)]
  cases hparent : p.parent? with
  | none =>
      rw [ancestors]
      cases p.text.length <;> simp [ancestors.go, hparent]
  | some q =>
      have hshorter := length_lt_of_parent? hparent
      rw [ancestors, Option.elim_some, ancestors]
      obtain ⟨n, hn⟩ := Nat.exists_eq_add_one_of_ne_zero (by omega : p.text.length ≠ 0)
      rw [hn, ancestors.go, hparent]
      exact congrArg (p :: ·) (hgo n _ q (by omega) le_rfl)

/-- Where going up is concerned, a path may be assumed to have what the directory above it has. -/
theorem ancestors_induction {motive : Path → Prop}
    (step : ∀ p, (∀ q, p.parent? = some q → motive q) → motive p) (p : Path) : motive p := by
  induction hlength : p.text.length using Nat.strong_induction_on generalizing p with
  | _ n ih => exact step p fun q hq => ih _ (hlength ▸ length_lt_of_parent? hq) q rfl

theorem mem_ancestors_iff :
    a ∈ ancestors p ↔ a = p ∨ ∃ q, p.parent? = some q ∧ a ∈ ancestors q := by
  rw [ancestors_eq, List.mem_cons]
  cases p.parent? <;> simp

/-- A leading part of a path: the path itself, or the shortest front of its text that has some of
its components and not all. -/
structure Leading (start a : Path) : Prop where
  text : a.text.toList <+: start.text.toList
  components : a.components <+: start.components
  absolute : a.isAbsolute = start.isAbsolute
  shortest : a = start ∨ a.components ≠ start.components ∧
    ∀ b : Path, b.text.toList <+: start.text.toList → b.components = a.components →
      a.text.length ≤ b.text.length

/-- What is above a path is spelled by a front of its text, and is trimmed unless it is the path. -/
theorem front_of_mem_ancestors (h : a ∈ ancestors start) :
    a.text.toList <+: start.text.toList ∧ a.components <+: start.components ∧
      a.isAbsolute = start.isAbsolute ∧
      (a = start ∨ a.components.length < start.components.length ∧ a.Trimmed) := by
  induction start using ancestors_induction with
  | step start ih =>
      rcases mem_ancestors_iff.1 h with rfl | ⟨q, hparent, hin⟩
      · exact ⟨List.prefix_rfl, List.prefix_rfl, rfl, Or.inl rfl⟩
      · obtain ⟨hq, htext, habsolute, last, hcomponents⟩ := front_of_parent? hparent
        obtain ⟨htext', hcomponents', habsolute', htrimmed⟩ := ih q hparent hin
        have hshorter : q.components.length < start.components.length := by
          rw [hcomponents, List.length_append, List.length_singleton]
          exact Nat.lt_succ_self _
        refine ⟨htext'.trans htext, hcomponents'.trans (hcomponents ▸ List.prefix_append _ _),
          habsolute'.trans habsolute, Or.inr ?_⟩
        rcases htrimmed with rfl | ⟨hless, htrimmed⟩
        · exact ⟨hshorter, hq⟩
        · exact ⟨hless.trans hshorter, htrimmed⟩

/-- Every front of the components is that of something above, unless it leaves out the root. -/
theorem exists_mem_ancestors {front : List Component} (hfront : front <+: start.components)
    (hroot : start.isAbsolute = true → front ≠ []) :
    ∃ a ∈ ancestors start, a.components = front := by
  induction start using ancestors_induction with
  | step start ih =>
      by_cases hwhole : front = start.components
      · exact ⟨start, mem_ancestors_iff.2 (Or.inl rfl), hwhole.symm⟩
      · cases hparent : start.parent? with
        | none =>
            rcases parent?_eq_none_iff.1 hparent with hnil | hone
            · rw [hnil, List.prefix_nil] at hfront
              exact absurd (hfront.trans hnil.symm) hwhole
            · have hhead : start.head = .root :=
                head_eq_of_components (q := ⟨"/"⟩) (by rw [hone]; rfl)
              rw [hone, List.prefix_cons_iff] at hfront
              rcases hfront with hnil | ⟨rest, hrest, hshort⟩
              · exact absurd hnil (hroot (World.isAbsolute_iff.2 hhead))
              · rw [hrest, hone, List.prefix_nil.1 hshort] at hwhole
                exact absurd rfl hwhole
        | some q =>
            obtain ⟨-, -, habsolute, last, hcomponents⟩ := front_of_parent? hparent
            rw [hcomponents, List.prefix_concat_iff, ← hcomponents] at hfront
            obtain ⟨a, hin, ha⟩ := ih q hparent (hfront.resolve_left hwhole) (habsolute ▸ hroot)
            exact ⟨a, mem_ancestors_iff.2 (Or.inr ⟨q, hparent, hin⟩), ha⟩

/-- Going up from a path passes through exactly its leading parts. -/
theorem mem_ancestors_iff_leading : a ∈ ancestors start ↔ Leading start a := by
  have hshortest : ∀ a ∈ ancestors start, Leading start a := by
    intro a ha
    obtain ⟨htext, hcomponents, habsolute, htrimmed⟩ := front_of_mem_ancestors ha
    refine ⟨htext, hcomponents, habsolute, htrimmed.imp_right fun ⟨hless, htrimmed⟩ =>
      ⟨fun heq => by simp [heq] at hless, fun b hb hsame => ?_⟩⟩
    by_contra hlonger
    have hfront : b.text.toList <+: a.text.toList :=
      List.prefix_of_prefix_length_le hb htext (by simp only [String.length_toList]; omega)
    rw [htrimmed.eq_of_front hfront hsame] at hlonger
    exact hlonger le_rfl
  refine ⟨hshortest a, fun h => ?_⟩
  rcases h.shortest with rfl | ⟨hne, hleast⟩
  · exact mem_ancestors_iff.2 (Or.inl rfl)
  · have hroot : start.isAbsolute = true → a.components ≠ [] := fun habsolute =>
      components_ne_nil (World.text_ne_of_isAbsolute (h.absolute.trans habsolute))
    obtain ⟨a', ha', hsame⟩ := exists_mem_ancestors h.components hroot
    have hleading := hshortest a' ha'
    have hlength : a.text.length = a'.text.length := by
      refine Nat.le_antisymm (hleast a' hleading.text hsame) ?_
      rcases hleading.shortest with rfl | ⟨-, hleast'⟩
      · exact absurd hsame.symm hne
      · exact hleast' a h.text hsame.symm
    have hfront : a.text.toList <+: a'.text.toList :=
      List.prefix_of_prefix_length_le h.text hleading.text
        (by rw [String.length_toList, String.length_toList, hlength])
    have htexts := hfront.eq_of_length (by rw [String.length_toList, String.length_toList, hlength])
    obtain rfl : a = a' := congrArg Path.mk (String.toList_inj.1 htexts)
    exact ha'

/-- The way up gets shorter with every step. -/
theorem pairwise_ancestors (start : Path) :
    (ancestors start).Pairwise fun a b => b.components.length < a.components.length := by
  induction start using ancestors_induction with
  | step start ih =>
      rw [ancestors_eq]
      cases hparent : start.parent? with
      | none => simp
      | some q =>
          obtain ⟨-, -, -, last, hcomponents⟩ := front_of_parent? hparent
          refine List.pairwise_cons.2 ⟨fun a ha => ?_, ih q hparent⟩
          have hless := (front_of_mem_ancestors ha).2.1.length_le
          rw [hcomponents, List.length_append, List.length_singleton]
          omega

end Path

end ClojureBuild
