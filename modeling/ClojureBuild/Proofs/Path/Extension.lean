import ClojureBuild.Proofs.Path.Descent
import Mathlib.Data.List.Basic
import Mathlib.Data.List.TakeDrop
import Mathlib.Data.List.TakeWhile
/-!
The components of joined paths, and of paths with another extension or none.

Joining puts the components of a relative path behind those that were there.  Another extension
replaces the last component when that is a name and leaves every other path alone, so it neither
adds components nor takes any away.  Without an extension the last component is what stands in front
of it, but `..` where that is a lone dot.
-/

namespace ClojureBuild.Path

/-! ### Joining -/

theorem relative_of_head {q : Path} (hq : q.head = .bare) : q.text.toList.head? ≠ some '/' := by
  intro hslash
  obtain ⟨rest, htext⟩ := List.head?_eq_some_iff.1 hslash
  rw [head, htext] at hq
  exact absurd hq (by simp [splitHead])

theorem splitHead_of_head {q : Path} (hq : q.head = .bare) :
    splitHead q.text.toList = (.bare, q.text.toList) := by
  have htext := chars_splitHead q.text.toList
  rw [head] at hq
  rw [hq] at htext
  exact Prod.ext hq htext

theorem head_join (p : Path) {q : Path} (hq : q.head = .bare) : (p.join q).head = p.head :=
  (head_pieces_join p (splitHead_of_head hq) (relative_of_head hq)).1

theorem components_join (p : Path) {q : Path} (hq : q.head = .bare) :
    (p.join q).components = p.components ++ q.components := by
  obtain ⟨hhead, hpieces⟩ := head_pieces_join p (splitHead_of_head hq) (relative_of_head hq)
  have hright : q.pieces = Text.splitOn '/' q.text.toList := by
    rw [pieces, splitHead_of_head hq]
  rw [components_eq, components_eq p, components_eq q, hhead, hpieces, hq, ← hright,
    List.filter_append, filter_significant_front, List.map_append, List.append_assoc]
  rfl

/-- A text between two separators: a name, or nothing. -/
def IsPiece (piece : String) : Prop := piece = "" ∨ IsName piece

theorem IsPiece.head {piece : String} (h : IsPiece piece) : (⟨piece⟩ : Path).head = .bare := by
  rcases h with rfl | hname
  · rfl
  · rw [Path.head, hname.splitHead]

theorem IsPiece.components {piece : String} (h : IsPiece piece) :
    (⟨piece⟩ : Path).components = ([piece].filter (· ≠ "")).map .name := by
  rcases h with rfl | hname
  · rfl
  · have hne : piece ≠ "" := by
      rintro rfl
      exact hname.nonempty rfl
    have hpieces : (⟨piece⟩ : Path).pieces = [piece.toList] := by
      rw [Path.pieces, hname.splitHead, Text.splitOn_of_not_mem hname.noSlash]
    rw [components_eq, IsPiece.head (Or.inr hname), hpieces]
    simp [Head.components, hname.significant, hname.componentOfPiece, hne]

/-- The components of joined pieces are those that name something. -/
theorem components_ofPieces {pieces : List String} (h : ∀ piece ∈ pieces, IsPiece piece) :
    (ofPieces pieces).head = .bare ∧
      (ofPieces pieces).components = (pieces.filter (· ≠ "")).map .name := by
  induction pieces using List.reverseRecOn with
  | nil => exact ⟨rfl, rfl⟩
  | append_singleton front last ih =>
      obtain ⟨hhead, hcomponents⟩ := ih fun piece hpiece => h piece (by simp [hpiece])
      have hlast := h last (by simp)
      have hjoin : ofPieces (front ++ [last]) = (ofPieces front).join ⟨last⟩ := by
        rw [ofPieces_eq_descend, descend_concat]
        rfl
      rw [hjoin, head_join _ hlast.head, components_join _ hlast.head, hcomponents,
        hlast.components, List.filter_append, List.map_append]
      exact ⟨hhead, rfl⟩

/-! ### Another last piece -/

/-- Trimming drops nothing that names something. -/
theorem filter_significant_trimPieces (pieces : List (List Char)) :
    (trimPieces pieces).filter significant = pieces.filter significant := by
  induction pieces using List.reverseRecOn with
  | nil => rfl
  | append_singleton front last ih =>
      by_cases hlast : significant last = true
      · rw [trimPieces_concat _ hlast]
      · have htrim : trimPieces (front ++ [last]) = trimPieces front := by
          simp [trimPieces, hlast]
        rw [htrim, ih, List.filter_append, List.filter_cons_of_neg hlast, List.filter_nil,
          List.append_nil]

theorem significant_of_trimPieces {pieces front : List (List Char)} {last : List Char}
    (h : trimPieces pieces = front ++ [last]) : significant last = true := by
  have hdrop : pieces.reverse.dropWhile (!significant ·) = last :: front.reverse := by
    rw [← List.reverse_inj, ← trimPieces, h]
    simp
  have hfirst := List.head?_dropWhile_not (!significant ·) pieces.reverse
  rw [hdrop] at hfirst
  simpa using hfirst

theorem joinWith_cons (piece : List Char) {rest : List (List Char)} (hrest : rest ≠ []) :
    Text.joinWith '/' (piece :: rest) = piece ++ '/' :: Text.joinWith '/' rest := by
  cases rest with
  | nil => exact absurd rfl hrest
  | cons next more => rfl

/-- A text keeps its head when the last of its pieces that names something is replaced. -/
theorem splitHead_replace {text : List Char} {front : List (List Char)} {last next : List Char}
    (h : front ++ [last] <+: Text.splitOn '/' (splitHead text).2)
    (hlast : significant last = true) (hnext : significant next = true) (hslash : '/' ∉ next) :
    splitHead ((splitHead text).1.chars ++ Text.joinWith '/' (front ++ [next])) =
      ((splitHead text).1, Text.joinWith '/' (front ++ [next])) := by
  obtain ⟨back, hback⟩ := h
  fun_cases splitHead text with
  | case1 rest => rfl
  | case2 =>
      cases front with
      | nil =>
          obtain ⟨rfl, -⟩ := List.cons_eq_cons.1 hback
          exact absurd hlast (by decide)
      | cons first others =>
          obtain ⟨-, hothers⟩ := List.cons_eq_cons.1 hback
          exact absurd hothers (by simp)
  | case3 rest =>
      cases front with
      | nil =>
          obtain ⟨rfl, -⟩ := List.cons_eq_cons.1 hback
          exact absurd hlast (by decide)
      | cons first others =>
          obtain ⟨rfl, -⟩ := List.cons_eq_cons.1 hback
          rw [List.cons_append, joinWith_cons _ (by simp)]
          rfl
  | case4 text hroot hdot hhere =>
      cases front with
      | nil =>
          have hnotHere : next ≠ ['.'] := by
            rintro rfl
            exact absurd hnext (by decide)
          exact splitHead_of_relative hslash hnotHere
      | cons first others =>
          -- the first piece is followed by another one, so it is a whole piece of the text
          simp only [splitHead] at hback
          have htext : text = first ++ '/' :: Text.joinWith '/' (others ++ [last] ++ back) := by
            rw [← Text.joinWith_splitOn '/' text, ← hback]
            exact joinWith_cons first (by simp)
          have hfirst : '/' ∉ first := by
            refine @Text.not_mem_of_mem_splitOn '/' text first ?_
            rw [← hback]
            simp
          have hne : first ≠ [] := by
            rintro rfl
            exact hroot _ htext
          have hnotHere : first ≠ ['.'] := by
            rintro rfl
            exact hhere _ htext
          rw [List.cons_append, joinWith_cons _ (by simp)]
          exact (splitHead_append hne _ fun _ => rfl).trans
            (by rw [splitHead_of_relative hfirst hnotHere])

/-- A path that consists of the first pieces of another keeps its head, also with another piece in
place of the last one. -/
theorem head_pieces_of_front {p : Path} {front : List (List Char)} {last next : List Char}
    (hkept : front ++ [last] <+: p.pieces) (hlast : significant last = true)
    (hnext : significant next = true) (hslash : '/' ∉ next) :
    (assemble p.head (front ++ [next])).head = p.head ∧
      (assemble p.head (front ++ [next])).pieces = front ++ [next] := by
  have hhead := splitHead_replace hkept hlast hnext hslash
  have hpieces : ∀ piece ∈ front ++ [next], '/' ∉ piece := by
    intro piece hpiece
    rcases List.mem_append.1 hpiece with hfront | hnew
    · exact Text.not_mem_of_mem_splitOn (hkept.subset (List.mem_append_left _ hfront))
    · rwa [List.mem_singleton.1 hnew]
  rw [head, pieces, assemble, String.toList_ofList, head, hhead]
  exact ⟨rfl, Text.splitOn_joinWith (by simp) hpieces⟩

theorem head_pieces_replace {p : Path} {front : List (List Char)} {last next : List Char}
    (h : trimPieces p.pieces = front ++ [last]) (hnext : significant next = true)
    (hslash : '/' ∉ next) :
    (assemble p.head (front ++ [next])).head = p.head ∧
      (assemble p.head (front ++ [next])).pieces = front ++ [next] :=
  head_pieces_of_front (h ▸ trimPieces_front p.pieces) (significant_of_trimPieces h) hnext hslash

/-! ### Another extension -/

theorem splitExtension_of_not_mem {name : List Char} (h : '.' ∉ name) :
    splitExtension name = (name, none) := by
  have hdrop : name.reverse.dropWhile (· != '.') = [] := by
    rw [List.dropWhile_eq_nil_iff]
    intro c hc
    rw [bne_iff_ne]
    rintro rfl
    exact h (List.mem_reverse.1 hc)
  rw [splitExtension, List.span_eq_takeWhile_dropWhile, hdrop]

/-- An extension is what stands behind the last dot, unless nothing stands in front of it. -/
theorem splitExtension_append {stem ext : List Char} (hstem : stem ≠ []) (hext : '.' ∉ ext) :
    splitExtension (stem ++ '.' :: ext) = (stem, some ext) := by
  have hback : ∀ c ∈ ext.reverse, (c != '.') = true := by
    intro c hc
    rw [bne_iff_ne]
    rintro rfl
    exact hext (List.mem_reverse.1 hc)
  have hreverse : (stem ++ '.' :: ext).reverse = ext.reverse ++ '.' :: stem.reverse := by simp
  rw [splitExtension, List.span_eq_takeWhile_dropWhile, hreverse,
    List.takeWhile_append_of_pos hback, List.dropWhile_append_of_pos hback]
  obtain ⟨c, rest, hc⟩ := List.exists_cons_of_ne_nil (mt List.reverse_eq_nil_iff.1 hstem)
  have hwhole : stem = (c :: rest).reverse := by rw [← hc, List.reverse_reverse]
  rw [hc, hwhole]
  simp

/-- What stands in front of the extension begins the name. -/
theorem stem_of_splitExtension (name : List Char) : (splitExtension name).1 <+: name := by
  rw [splitExtension, List.span_eq_takeWhile_dropWhile]
  have hsuffix := List.dropWhile_suffix (l := name.reverse) (· != '.')
  cases hdrop : name.reverse.dropWhile (· != '.') with
  | nil => exact List.prefix_rfl
  | cons dot stem =>
      cases stem with
      | nil => exact List.prefix_rfl
      | cons c more =>
          rw [hdrop] at hsuffix
          rw [← List.reverse_suffix, List.reverse_reverse]
          exact (List.suffix_cons dot (c :: more)).trans hsuffix

/-- A component with another extension, when it is a name. -/
def Component.withExtension (ext : String) : Component → Component
  | .name n => .name (String.ofList ((splitExtension n.toList).1 ++ '.' :: ext.toList))
  | c => c

/-- Another extension changes the last component and no other. -/
theorem components_withExtension (p : Path) {ext : String} (hne : ext ≠ "")
    (hslash : '/' ∉ ext.toList) (hdot : '.' ∉ ext.toList) :
    (p.withExtension ext).components =
      p.components.dropLast ++ (p.components.getLast?.map (.withExtension ext)).toList := by
  have hkept := filter_significant_trimPieces p.pieces
  have hchars : ext.toList ≠ [] := by simpa using hne
  have hnew : ∀ stem : List Char, significant (stem ++ '.' :: ext.toList) = true ∧
      stem ++ '.' :: ext.toList ≠ ['.', '.'] := by
    intro stem
    have hend : (stem ++ '.' :: ext.toList).getLast? = ext.toList.getLast? := by
      rw [List.getLast?_append, List.getLast?_cons_of_ne_nil hchars]
      obtain ⟨c, hc⟩ := Option.ne_none_iff_exists'.1 (mt List.getLast?_eq_none_iff.1 hchars)
      rw [hc]
      rfl
    have hother : (stem ++ '.' :: ext.toList).getLast? ≠ some '.' := by
      rw [hend]
      exact fun hc => hdot (List.mem_of_getLast? hc)
    constructor
    · rw [significant, Bool.and_eq_true, bne_iff_ne, bne_iff_ne]
      exact ⟨by simp, fun heq => hother (by rw [heq]; rfl)⟩
    · exact fun heq => hother (by rw [heq]; rfl)
  rcases List.eq_nil_or_concat (trimPieces p.pieces) with hnil | ⟨front, last, htrim⟩
  · have hsame : p.withExtension ext = p := by
      rw [withExtension, hnil]
      rfl
    rw [hsame, components_eq, ← hkept, hnil]
    cases p.head <;> rfl
  · rw [List.concat_eq_append] at htrim
    have hlast := significant_of_trimPieces htrim
    have hcomponents : p.components = (p.head.components ++
        (front.filter significant).map componentOfPiece) ++ [componentOfPiece last] := by
      rw [components_eq, ← hkept, htrim, List.filter_append, List.filter_cons_of_pos hlast,
        List.filter_nil, List.map_append, List.append_assoc]
      rfl
    rw [hcomponents, List.dropLast_concat, List.getLast?_concat, Option.map_some]
    by_cases hup : last = ['.', '.']
    · have hsame : p.withExtension ext = p := by
        simp [withExtension, htrim, hup]
      rw [hsame, hcomponents, hup]
      rfl
    · have hnewSlash : '/' ∉ (splitExtension last).1 ++ '.' :: ext.toList := by
        have hpiece : '/' ∉ last := Text.not_mem_of_mem_splitOn
          ((trimPieces_front p.pieces).subset (htrim ▸ by simp))
        simp only [List.mem_append, List.mem_cons, not_or]
        exact ⟨fun hin => hpiece ((stem_of_splitExtension last).subset hin), by decide, hslash⟩
      have hreplaced : p.withExtension ext =
          assemble p.head (front ++ [(splitExtension last).1 ++ '.' :: ext.toList]) := by
        simp [withExtension, htrim, hup, hne]
      obtain ⟨hhead, hpieces⟩ := head_pieces_replace htrim (hnew _).1 hnewSlash
      rw [hreplaced, components_eq, hhead, hpieces, List.filter_append,
        List.filter_cons_of_pos (hnew _).1, List.filter_nil, List.map_append, List.map_singleton,
        componentOfPiece, if_neg (hnew _).2, componentOfPiece, if_neg hup, List.append_assoc]
      simp [Component.withExtension]

/-! ### No extension -/

/-- A name with an extension is a stem, a dot and the extension. -/
theorem exists_stem {name ext : List Char} (h : (splitExtension name).2 = some ext) :
    ∃ stem, stem ≠ [] ∧ name = stem ++ '.' :: ext := by
  rw [splitExtension, List.span_eq_takeWhile_dropWhile] at h
  have hwhole := congrArg List.reverse
    (List.takeWhile_append_dropWhile (p := (· != '.')) (l := name.reverse))
  cases hdrop : name.reverse.dropWhile (· != '.') with
  | nil => simp [hdrop] at h
  | cons dot stem =>
      have hdot : dot = '.' := by
        have hfirst := List.head?_dropWhile_not (· != '.') name.reverse
        rw [hdrop] at hfirst
        simpa using hfirst
      cases stem with
      | nil => simp [hdrop] at h
      | cons c more =>
          simp only [hdrop, Option.some.injEq] at h
          rw [hdrop, hdot, List.reverse_reverse, List.reverse_append, h] at hwhole
          refine ⟨(c :: more).reverse, by simp, ?_⟩
          rw [← hwhole]
          simp

theorem extension?_div_of_append (p : Path) {name stem ext : String} (hname : IsName name)
    (hstem : stem ≠ "") (hext : '.' ∉ ext.toList)
    (htext : name.toList = stem.toList ++ '.' :: ext.toList) :
    (p / name).extension? = some ext := by
  rw [extension?_div p hname, htext, splitExtension_append (by simpa using hstem) hext,
    Option.map_some, String.ofList_toList]

/-- A path that goes up at its end keeps its spelling without an extension. -/
theorem components_withExtension_up (p : Path) :
    ((p / "..").withExtension "").components = p.components ++ [.up] := by
  have hbare : (⟨".."⟩ : Path).head = .bare := by decide
  have hpieces : (p / "..").pieces = p.front ++ [['.', '.']] :=
    (head_pieces_join p (splitHead_of_head hbare) (relative_of_head hbare)).2
  have hup : significant ['.', '.'] = true := by decide
  have hkept : (p / "..").withExtension "" = p / ".." := by
    simp [withExtension, hpieces, trimPieces_concat _ hup]
  rw [hkept]
  exact components_join p hbare

/-- What is left of a last name when the dot at its end is dropped. -/
theorem components_withExtension_dot (p : Path) {name stem : String} (hname : IsName name)
    (htext : name.toList = stem.toList ++ ['.']) (hstem : significant stem.toList = true) :
    ((p / name).withExtension "").components = p.components ++ [componentOfPiece stem.toList] := by
  have hne : stem.toList ≠ [] := by
    intro hnil
    rw [hnil] at hstem
    exact absurd hstem (by decide)
  have hcut : (p / name).withExtension "" =
      assemble (p / name).head (p.front ++ [stem.toList]) := by
    simp only [withExtension, trimPieces_div p hname, List.reverse_append, List.reverse_singleton,
      List.singleton_append, hname.notUp, ↓reduceIte, List.reverse_reverse]
    rw [htext, splitExtension_append hne List.not_mem_nil]
    simp
  have hslash : '/' ∉ stem.toList := fun hin => hname.noSlash (by simp [htext, hin])
  obtain ⟨hhead, hpieces⟩ := head_pieces_replace (trimPieces_div p hname) hstem hslash
  rw [hcut, components_eq, components_eq, hhead, hpieces, (pieces_div p hname).1,
    List.filter_append, filter_significant_front, List.filter_cons_of_pos hstem, List.filter_nil,
    List.map_append, List.append_assoc]
  rfl

/-- What a file name leaves when it loses its extension.  `..` is left of a lone dot. -/
def leftOf (stem : String) : String := if stem = "." then ".." else stem

/-- Without its extension a path ends in what is left of its last name. -/
theorem components_dropExtension_div (p : Path) {name stem ext : String} (hname : IsName name)
    (hstem : stem ≠ "") (hext : '.' ∉ ext.toList)
    (htext : name.toList = stem.toList ++ '.' :: ext.toList) :
    (p / name).dropExtension.components =
      p.components ++ [componentOfPiece (leftOf stem).toList] := by
  have hchars : stem.toList ≠ [] := by simpa using hstem
  have hextension := extension?_div_of_append p hname hstem hext htext
  have hrelative : (stem ++ ".").toList.head? ≠ some '/' := by
    have hfirst := hname.relative
    rw [htext, List.head?_append_of_ne_nil _ hchars] at hfirst
    rwa [String.toList_append, List.head?_append_of_ne_nil _ hchars]
  have hcut : (⟨String.ofList ((p / name).text.toList.take
      ((p / name).text.toList.length - ext.toList.length))⟩ : Path) = p / (stem ++ ".") := by
    have hwhole : (p / name).text.toList = (p / (stem ++ ".")).text.toList ++ ext.toList := by
      rw [text_div, text_div, joinChars_of_relative _ hname.relative,
        joinChars_of_relative _ hrelative, htext]
      simp
    rw [hwhole, List.length_append, Nat.add_sub_cancel, List.take_left, String.ofList_toList]
  rw [dropExtension, hextension]
  refine (congrArg (fun q => (withExtension q "").components) hcut).trans ?_
  -- the dot in front of the extension is still there, and behind a lone dot it makes `..`
  by_cases hdot : stem = "."
  · subst hdot
    exact components_withExtension_up p
  · have hnotHere : stem.toList ≠ ['.'] := fun h => hdot (String.toList_inj.1 h)
    have hdotted : IsName (stem ++ ".") := by
      refine ⟨by simp, ?_, ?_, ?_⟩
      · intro hslash
        rw [String.toList_append, List.mem_append] at hslash
        rcases hslash with hin | hin
        · exact hname.noSlash (by simp [htext, hin])
        · exact absurd hin (by decide)
      · intro h
        rw [String.toList_append] at h
        exact hchars (List.append_left_eq_self.1 (h : stem.toList ++ ['.'] = ['.']))
      · intro h
        rw [String.toList_append] at h
        exact hnotHere (List.append_cancel_right (h : stem.toList ++ ['.'] = ['.'] ++ ['.']))
    rw [leftOf, if_neg hdot]
    refine components_withExtension_dot p hdotted (by simp) ?_
    rw [significant, Bool.and_eq_true, bne_iff_ne, bne_iff_ne]
    exact ⟨hchars, hnotHere⟩

theorem text_componentOfPiece (piece : List Char) :
    (componentOfPiece piece).text = String.ofList piece := by
  rw [componentOfPiece]
  split
  next h => rw [h]; rfl
  next => rfl

end ClojureBuild.Path
