import ClojureBuild.Path.Basic
import ClojureBuild.Proofs.Text.Octets
import Mathlib.Data.List.Induction
/-!
Going down a path.

`p.descend names` is the path of what is reached from `p` through the names.  Its text keeps the
spelling of `p`, and its components are those of `p` followed by the names; so two descents from one
path name the same place only when they go through the same names.
-/

namespace ClojureBuild

namespace Path

/-- A text that names an entry of a directory. -/
structure IsName (name : String) : Prop where
  nonempty : name.toList ≠ []
  noSlash : '/' ∉ name.toList
  notHere : name.toList ≠ ['.']
  notUp : name.toList ≠ ['.', '.']

theorem isName_iff {name : String} :
    IsName name ↔ name.toList ≠ [] ∧ '/' ∉ name.toList ∧ name.toList ≠ ['.'] ∧
      name.toList ≠ ['.', '.'] :=
  ⟨fun h => ⟨h.nonempty, h.noSlash, h.notHere, h.notUp⟩,
    fun ⟨hnonempty, hslash, hhere, hup⟩ => ⟨hnonempty, hslash, hhere, hup⟩⟩

instance (name : String) : Decidable (IsName name) := decidable_of_iff _ isName_iff.symm

theorem IsName.significant {name : String} (h : IsName name) : significant name.toList = true := by
  simp [Path.significant, h.nonempty, h.notHere]

theorem IsName.componentOfPiece {name : String} (h : IsName name) :
    componentOfPiece name.toList = .name name := by
  simp [Path.componentOfPiece, h.notUp]

theorem splitHead_of_relative {chars : List Char} (hslash : '/' ∉ chars) (hhere : chars ≠ ['.']) :
    splitHead chars = (.bare, chars) := by
  fun_cases splitHead chars <;> simp_all

theorem IsName.splitHead {name : String} (h : IsName name) :
    splitHead name.toList = (.bare, name.toList) :=
  splitHead_of_relative h.noSlash h.notHere

theorem IsName.relative {name : String} (h : IsName name) : name.toList.head? ≠ some '/' := by
  intro hhead
  exact h.noSlash (List.mem_of_mem_head? hhead)

theorem IsName.ofText {name : String} (h : IsName name) : IsName (Octets.ofText name) := by
  have heq : ∀ ascii : String, Octets.Ascii ascii →
      name.toList ≠ ascii.toList → (Octets.ofText name).toList ≠ ascii.toList := by
    intro ascii hascii hne heq
    rw [String.toList_inj, Octets.ofText_eq_iff_of_ascii hascii] at heq
    exact hne (congrArg String.toList heq)
  refine ⟨heq "" (by decide) h.nonempty, ?_, heq "." (by decide) h.notHere,
    heq ".." (by decide) h.notUp⟩
  rw [Octets.mem_ofText_iff (by decide)]
  exact h.noSlash

/-- The path of what is reached from `p` through the names. -/
def descend (p : Path) (names : List String) : Path :=
  names.foldl (fun q (name : String) => q / name) p

@[simp] theorem descend_nil (p : Path) : p.descend [] = p := rfl

@[simp] theorem descend_cons (p : Path) (name : String) (names : List String) :
    p.descend (name :: names) = (p / name).descend names := rfl

theorem descend_append (p : Path) (names more : List String) :
    p.descend (names ++ more) = (p.descend names).descend more := by
  simp [descend, List.foldl_append]

theorem descend_concat (p : Path) (names : List String) (name : String) :
    p.descend (names ++ [name]) = p.descend names / name := by
  rw [descend_append]
  rfl

theorem ofPieces_eq_descend (names : List String) :
    ofPieces names = (⟨""⟩ : Path).descend names := rfl

theorem text_div (p : Path) (name : String) :
    (p / name).text.toList = joinChars p.text.toList name.toList := by
  change (String.ofList (joinChars p.text.toList name.toList)).toList = _
  rw [String.toList_ofList]

/-! ### Texts of joined paths -/

/-- What stands between a left side and a relative right side. -/
def gap (left : List Char) : List Char :=
  if left = [] ∨ left.getLast? = some '/' then [] else ['/']

theorem joinChars_of_relative (left : List Char) {right : List Char}
    (h : right.head? ≠ some '/') : joinChars left right = left ++ (gap left ++ right) := by
  simp only [joinChars, h, ↓reduceIte, gap]
  split <;> rfl

theorem gap_append_gap (left : List Char) : gap (left ++ gap left) = [] := by
  unfold gap
  by_cases h : left = [] ∨ left.getLast? = some '/'
  · simp [h]
  · simp [h]

theorem gap_append (left : List Char) {right : List Char} (h : right ≠ []) :
    gap (left ++ right) = gap right := by
  obtain ⟨last, hlast⟩ := Option.ne_none_iff_exists'.1 (mt List.getLast?_eq_none_iff.1 h)
  simp [gap, List.getLast?_append, hlast, h]

/-- Nothing is put behind a text that is empty or ends in a separator. -/
theorem ended_of_gap {left : List Char} (h : gap left = []) :
    left = [] ∨ ∃ body, left = body ++ ['/'] := by
  rcases List.eq_nil_or_concat left with hnil | ⟨body, last, hlast⟩
  · exact Or.inl hnil
  · rw [List.concat_eq_append] at hlast
    subst hlast
    unfold gap at h
    have hslash : last = '/' := by simpa using h
    exact Or.inr ⟨body, by rw [hslash]⟩

theorem gap_eq_slash {left : List Char} (h : gap left ≠ []) : gap left = ['/'] := by
  unfold gap at h ⊢
  split at h
  · exact absurd rfl h
  next hnot => rw [if_neg hnot]

theorem getLast?_of_gap {left : List Char} (h : gap left ≠ []) : left.getLast? ≠ some '/' := by
  intro hslash
  exact h (if_pos (Or.inr hslash))

/-- Joining is associative as long as nothing on the right is absolute. -/
theorem joinChars_assoc (left : List Char) {mid right : List Char} (hmid : mid.head? ≠ some '/')
    (hright : right.head? ≠ some '/') :
    joinChars (joinChars left mid) right = joinChars left (joinChars mid right) := by
  have hgap : gap (left ++ (gap left ++ mid)) = gap mid := by
    by_cases hne : mid = []
    · subst hne
      rw [List.append_nil, gap_append_gap]
      rfl
    · rw [← List.append_assoc, gap_append _ hne]
  have hjoined : (mid ++ (gap mid ++ right)).head? ≠ some '/' := by
    cases mid with
    | nil => simpa [gap] using hright
    | cons c rest => simpa using hmid
  rw [joinChars_of_relative left hmid, joinChars_of_relative _ hright, hgap,
    joinChars_of_relative mid hright, joinChars_of_relative left hjoined]
  simp only [List.append_assoc]

theorem join_assoc (p : Path) {q r : Path} (hq : q.text.toList.head? ≠ some '/')
    (hr : r.text.toList.head? ≠ some '/') : (p.join q).join r = p.join (q.join r) := by
  simp only [join, String.toList_ofList]
  rw [joinChars_assoc _ hq hr]

/-- A path of names only is relative. -/
theorem ofPieces_relative {names : List String} (hnames : ∀ name ∈ names, IsName name) :
    (ofPieces names).text.toList.head? ≠ some '/' := by
  induction names using List.reverseRecOn with
  | nil => simp [ofPieces]
  | append_singleton front last ih =>
      have hlast := (hnames last (by simp)).relative
      have hfront := ih fun name h => hnames name (by simp [h])
      rw [ofPieces_eq_descend] at hfront
      rw [ofPieces_eq_descend, descend_concat, text_div, joinChars_of_relative _ hlast]
      cases htext : ((⟨""⟩ : Path).descend front).text.toList with
      | nil => simpa [gap] using hlast
      | cons c rest =>
          rw [htext] at hfront
          simpa using hfront

/-- Joining the path of some names is going down through them. -/
theorem join_ofPieces (p : Path) {names : List String} (hne : names ≠ [])
    (hnames : ∀ name ∈ names, IsName name) : p.join (ofPieces names) = p.descend names := by
  induction names using List.reverseRecOn with
  | nil => exact absurd rfl hne
  | append_singleton front last ih =>
      have hlast := (hnames last (by simp)).relative
      have hfront : ∀ name ∈ front, IsName name := fun name h => hnames name (by simp [h])
      have hassoc : p.join (ofPieces (front ++ [last])) = p.join (ofPieces front) / last := by
        rw [ofPieces_eq_descend, descend_concat]
        exact (join_assoc p (ofPieces_relative hfront) hlast).symm
      rw [hassoc, descend_concat]
      by_cases hempty : front = []
      · subst hempty
        change (p.join ⟨""⟩).join ⟨last⟩ = p.join ⟨last⟩
        rw [join_assoc p (by simp) hlast]
        simp [join, joinChars]
      · rw [ih hempty hfront]

/-! ### Pieces and components -/

theorem assemble_head_pieces (p : Path) : assemble p.head p.pieces = p := by
  have htext : p.head.chars ++ Text.joinWith '/' p.pieces = p.text.toList := by
    rw [pieces, Text.joinWith_splitOn]
    exact chars_splitHead p.text.toList
  rw [assemble, htext, String.ofList_toList]

/-- The pieces in front of what is joined to a path. -/
def front (p : Path) : List (List Char) :=
  if gap p.text.toList = [] then p.pieces.dropLast else p.pieces

/-- What is written behind a path leaves its head alone, unless it makes a longer name of a `.`. -/
theorem splitHead_append {text : List Char} (hne : text ≠ []) (more : List Char)
    (hmore : text = ['.'] → more.head? = some '/') :
    splitHead (text ++ more) = ((splitHead text).1, (splitHead text).2 ++ more) := by
  obtain ⟨c, rest, rfl⟩ := List.exists_cons_of_ne_nil hne
  by_cases hslash : c = '/'
  · subst hslash
    rfl
  · by_cases hdot : c = '.'
    · subst hdot
      cases rest with
      | nil =>
          obtain ⟨tail, rfl⟩ := List.head?_eq_some_iff.1 (hmore rfl)
          rfl
      | cons d tail =>
          by_cases hd : d = '/'
          · subst hd
            rfl
          · simp [splitHead, hd]
    · simp [splitHead, hslash, hdot]

theorem splitHead_concat_slash (text : List Char) :
    (splitHead (text ++ ['/'])).2 = [] ∨
      ∃ front, (splitHead (text ++ ['/'])).2 = front ++ ['/'] := by
  cases text with
  | nil => exact Or.inl rfl
  | cons c rest =>
      rw [splitHead_append (by simp) ['/'] fun _ => rfl]
      exact Or.inr ⟨_, rfl⟩

/-- A text that is empty or ends in a separator leaves its last, empty piece to what follows. -/
theorem splitOn_append_of_ended {text : List Char}
    (hended : text = [] ∨ ∃ front, text = front ++ ['/']) (more : List Char) :
    Text.splitOn '/' (text ++ more) =
      (Text.splitOn '/' text).dropLast ++ Text.splitOn '/' more := by
  rcases hended with rfl | ⟨front, rfl⟩
  · simp [Text.splitOn]
  · have hback : Text.splitOn '/' (front ++ ['/']) = Text.splitOn '/' front ++ [[]] :=
      Text.splitOn_append_sep '/' front []
    rw [hback, List.dropLast_concat, List.append_assoc]
    exact Text.splitOn_append_sep '/' front more

/-- Splitting a joined text gives the pieces of both sides, but for an empty one between them. -/
theorem filterMap_splitOn_joinChars {α : Type} (f : List Char → Option α) (hf : f [] = none)
    (left : List Char) {right : List Char} (hright : right.head? ≠ some '/') :
    (Text.splitOn '/' (joinChars left right)).filterMap f =
      (Text.splitOn '/' left).filterMap f ++ (Text.splitOn '/' right).filterMap f := by
  rw [joinChars_of_relative left hright]
  by_cases hgap : gap left = []
  · have hended := ended_of_gap hgap
    have hleft := splitOn_append_of_ended hended []
    rw [List.append_nil] at hleft
    rw [hgap, List.nil_append, splitOn_append_of_ended hended, hleft]
    simp [Text.splitOn, hf]
  · rw [gap_eq_slash hgap, List.singleton_append, Text.splitOn_append_sep, List.filterMap_append]

/-- Joining keeps the head and puts the pieces of the right side behind those of the left one. -/
theorem head_pieces_join (p : Path) {q : Path}
    (hq : splitHead q.text.toList = (.bare, q.text.toList))
    (hrelative : q.text.toList.head? ≠ some '/') :
    (p.join q).head = p.head ∧
      (p.join q).pieces = p.front ++ Text.splitOn '/' q.text.toList := by
  simp only [join, head, pieces, front, String.toList_ofList,
    joinChars_of_relative p.text.toList hrelative]
  generalize q.text.toList = right at hq hrelative
  generalize p.text.toList = left
  by_cases hgap : gap left = []
  · rw [hgap, if_pos rfl, List.nil_append]
    rcases ended_of_gap hgap with rfl | ⟨body, rfl⟩
    · rw [List.nil_append, hq]
      exact ⟨rfl, rfl⟩
    · have hnotHere : body ++ ['/'] ≠ ['.'] := by
        intro hdot
        have hends := congrArg List.getLast? hdot
        simp at hends
      rw [splitHead_append (by simp) right fun hdot => absurd hdot hnotHere]
      exact ⟨rfl, splitOn_append_of_ended (splitHead_concat_slash body) right⟩
  · rw [if_neg hgap]
    have hne : left ≠ [] := by
      rintro rfl
      simp [gap] at hgap
    rw [gap_eq_slash hgap, splitHead_append hne _ fun _ => rfl]
    exact ⟨rfl, Text.splitOn_append_sep '/' _ right⟩

theorem pieces_div (p : Path) {name : String} (hname : IsName name) :
    (p / name).head = p.head ∧ (p / name).pieces = p.front ++ [name.toList] := by
  have hjoin := head_pieces_join p (q := ⟨name⟩) hname.splitHead hname.relative
  rwa [Text.splitOn_of_not_mem hname.noSlash] at hjoin

theorem gap_div (p : Path) {name : String} (hname : IsName name) :
    gap (p / name).text.toList = ['/'] := by
  rw [text_div, joinChars_of_relative _ hname.relative, ← List.append_assoc,
    gap_append _ hname.nonempty, gap, if_neg]
  rintro (hnil | hlast)
  · exact hname.nonempty hnil
  · exact hname.noSlash (List.mem_of_getLast? hlast)

theorem front_div (p : Path) {name : String} (hname : IsName name) :
    (p / name).front = (p / name).pieces := by
  rw [front, gap_div p hname, if_neg (List.cons_ne_nil _ _)]

/-- The pieces of a descent: what stands in front of it, then the names. -/
theorem head_pieces_descend (p : Path) {names : List String} (hne : names ≠ [])
    (hnames : ∀ name ∈ names, IsName name) :
    (p.descend names).head = p.head ∧
      (p.descend names).pieces = p.front ++ names.map String.toList := by
  induction names generalizing p with
  | nil => exact absurd rfl hne
  | cons name rest ih =>
      have hname := hnames name List.mem_cons_self
      obtain ⟨hhead, hpieces⟩ := pieces_div p hname
      by_cases hrest : rest = []
      · subst hrest
        exact ⟨hhead, hpieces⟩
      · obtain ⟨hhead', hpieces'⟩ :=
          ih (p / name) hrest fun n hn => hnames n (List.mem_cons_of_mem name hn)
        rw [front_div p hname, hpieces] at hpieces'
        exact ⟨hhead'.trans hhead, by simpa using hpieces'⟩

/-- What stands in front of a descent differs from the pieces by an empty one at most. -/
theorem filter_significant_front (p : Path) :
    p.front.filter significant = p.pieces.filter significant := by
  unfold front
  by_cases hgap : gap p.text.toList = []
  · have hended : (splitHead p.text.toList).2 = [] ∨
        ∃ front, (splitHead p.text.toList).2 = front ++ ['/'] := by
      rcases ended_of_gap hgap with htext | ⟨body, htext⟩
      · rw [htext]
        exact Or.inl rfl
      · rw [htext]
        exact splitHead_concat_slash body
    have hpieces : p.pieces = p.pieces.dropLast ++ [[]] := by
      have hback := splitOn_append_of_ended hended []
      rwa [List.append_nil] at hback
    rw [if_pos hgap]
    conv_rhs => rw [hpieces]
    simp [List.filter_append, significant]
  · rw [if_neg hgap]

/-- What the head of a path contributes to its components. -/
def Head.components : Head → List Component
  | .root => [.root]
  | .here => [.here]
  | .bare => []

theorem components_eq (p : Path) :
    p.components = p.head.components ++ (p.pieces.filter significant).map componentOfPiece := by
  unfold components
  cases p.head <;> rfl

theorem filter_significant_names {names : List String} (hnames : ∀ name ∈ names, IsName name) :
    (names.map String.toList).filter significant = names.map String.toList := by
  rw [List.filter_eq_self]
  intro piece hpiece
  obtain ⟨name, hname, rfl⟩ := List.mem_map.1 hpiece
  exact (hnames name hname).significant

/-- Going down adds the names to the components. -/
theorem components_descend (p : Path) {names : List String}
    (hnames : ∀ name ∈ names, IsName name) :
    (p.descend names).components = p.components ++ names.map .name := by
  by_cases hne : names = []
  · subst hne
    simp
  · obtain ⟨hhead, hpieces⟩ := head_pieces_descend p hne hnames
    have hmapped : (names.map String.toList).map componentOfPiece = names.map .name := by
      rw [List.map_map]
      exact List.map_congr_left fun name hname => (hnames name hname).componentOfPiece
    rw [components_eq, components_eq, hhead, hpieces, List.filter_append,
      filter_significant_names hnames, filter_significant_front, List.map_append, hmapped,
      List.append_assoc]

theorem descend_same_iff (p : Path) {names names' : List String}
    (hnames : ∀ name ∈ names, IsName name) (hnames' : ∀ name ∈ names', IsName name) :
    (p.descend names).same (p.descend names') = true ↔ names = names' := by
  rw [same, beq_iff_eq, components_descend p hnames, components_descend p hnames',
    List.append_cancel_left_eq, List.map_inj_right]
  intro a b hab
  exact Component.name.inj hab

/-! ### The way back -/

theorem trimPieces_front (pieces : List (List Char)) : trimPieces pieces <+: pieces := by
  have hsuffix := List.dropWhile_suffix (l := pieces.reverse) fun piece => !significant piece
  rw [← List.reverse_suffix]
  unfold trimPieces
  rwa [List.reverse_reverse]

theorem trimPieces_concat (pieces : List (List Char)) {last : List Char}
    (hlast : significant last = true) : trimPieces (pieces ++ [last]) = pieces ++ [last] := by
  simp [trimPieces, hlast]

theorem trimPieces_div (p : Path) {name : String} (hname : IsName name) :
    trimPieces (p / name).pieces = p.front ++ [name.toList] := by
  rw [(pieces_div p hname).2, trimPieces_concat _ hname.significant]

/-- Dropping the significant pieces of a front leaves none in front of what follows it. -/
theorem dropWhile_dropSignificant (front back : List (List Char)) :
    (dropSignificant (front.countP significant) (front ++ back)).dropWhile (!significant ·) =
      back.dropWhile (!significant ·) := by
  induction front with
  | nil => simp [dropSignificant]
  | cons piece rest ih =>
      by_cases hpiece : significant piece = true
      · rw [List.countP_cons_of_pos hpiece, List.cons_append, dropSignificant, if_pos hpiece]
        exact ih
      · rw [List.countP_cons_of_neg hpiece, List.cons_append]
        cases hcount : rest.countP significant with
        | zero =>
            rw [hcount, dropSignificant] at ih
            rw [dropSignificant, List.dropWhile_cons_of_pos (by simpa using hpiece)]
            exact ih
        | succ n =>
            rw [hcount] at ih
            rw [dropSignificant, if_neg hpiece]
            exact ih

/-- The first piece of a text that does not begin with a separator begins as the text does. -/
theorem splitOn_cons_of_ne {sep c : Char} (rest : List Char) (hc : c ≠ sep) :
    ∃ piece pieces, Text.splitOn sep (c :: rest) = (c :: piece) :: pieces ∧
      (piece = [] → rest = [] ∨ rest.head? = some sep) := by
  cases rest with
  | nil => exact ⟨[], [], by simp [Text.splitOn, hc], fun _ => Or.inl rfl⟩
  | cons d more =>
      by_cases hd : d = sep
      · refine ⟨[], Text.splitOn sep more, ?_, fun _ => Or.inr (by simp [hd])⟩
        simp [Text.splitOn, hc, hd]
      · cases hpieces : Text.splitOn sep more with
        | nil => exact absurd hpieces (Text.splitOn_ne_nil sep more)
        | cons first others =>
            refine ⟨d :: first, others, ?_, fun h => absurd h (by simp)⟩
            simp [Text.splitOn, hc, hd, hpieces]

/-- A path with a text has a component. -/
theorem components_ne_nil {p : Path} (h : p.text ≠ "") : p.components ≠ [] := by
  have hchars : p.text.toList ≠ [] := by simpa using h
  rw [components_eq, head, pieces]
  generalize p.text.toList = text at hchars
  fun_cases splitHead text with
  | case1 rest => simp [Head.components]
  | case2 => simp [Head.components]
  | case3 rest => simp [Head.components]
  | case4 text hroot hdot hhere =>
      obtain ⟨c, rest, rfl⟩ := List.exists_cons_of_ne_nil hchars
      have hc : c ≠ '/' := fun heq => hroot rest (by rw [heq])
      obtain ⟨piece, pieces, hsplit, hshort⟩ := splitOn_cons_of_ne rest hc
      have hsignificant : significant (c :: piece) = true := by
        simp only [significant, bne_iff_ne, ne_eq, reduceCtorEq, not_false_eq_true, List.cons.injEq,
          not_and, Bool.and_eq_true, true_and]
        rintro rfl rfl
        rcases hshort rfl with rfl | hslash
        · exact hdot rfl
        · obtain ⟨more, rfl⟩ := List.head?_eq_some_iff.1 hslash
          exact hhere more rfl
      simp [hsplit, hsignificant]

theorem eq_empty_of_components {p : Path} (h : p.components = []) : p = ⟨""⟩ := by
  by_contra hsome
  have htext : p.text ≠ "" := fun heq => hsome (by cases p; simp_all)
  exact components_ne_nil htext h

/-- A descent from a path that is only a head is assembled from the head and the names. -/
theorem assemble_head_names {p : Path} (hfront : p.front = []) (hhead : assemble p.head [] = p)
    {names : List String} (hnames : ∀ name ∈ names, IsName name) :
    assemble p.head (names.map String.toList) = p.descend names := by
  by_cases hne : names = []
  · subst hne
    exact hhead
  · obtain ⟨hsame, hpieces⟩ := head_pieces_descend p hne hnames
    have hassembled := assemble_head_pieces (p.descend names)
    rw [hsame, hpieces, hfront] at hassembled
    exact hassembled

theorem assemble_bare_names {names : List String} (hnames : ∀ name ∈ names, IsName name) :
    assemble .bare (names.map String.toList) = ofPieces names :=
  assemble_head_names (p := ⟨""⟩) (by decide) (by decide) hnames

theorem trimPieces_names {names : List String} (hnames : ∀ name ∈ names, IsName name) :
    trimPieces (names.map String.toList) = names.map String.toList := by
  rcases List.eq_nil_or_concat names with rfl | ⟨front, last, rfl⟩
  · rfl
  · rw [List.concat_eq_append] at hnames ⊢
    rw [List.map_append, List.map_singleton]
    exact trimPieces_concat _ (hnames last (by simp)).significant

/-- How many pieces spell some components; what stands for the head needs none. -/
def piecesOf : List Component → Nat
  | [] => 0
  | .root :: rest | .here :: rest => rest.length
  | _ :: rest => rest.length + 1

theorem countP_front (p : Path) : p.front.countP significant = piecesOf p.components := by
  rw [List.countP_eq_length_filter, filter_significant_front, components_eq]
  cases p.head with
  | root => simp [Head.components, piecesOf]
  | here => simp [Head.components, piecesOf]
  | bare =>
      cases p.pieces.filter significant with
      | nil => rfl
      | cons piece pieces =>
          rw [Head.components, List.nil_append, List.map_cons, componentOfPiece]
          by_cases hup : piece = ['.', '.']
          · simp [hup, piecesOf]
          · simp [hup, piecesOf]

theorem below?_of_inside {base p : Path} (hne : base.components ≠ [])
    (hinside : base.components <+: p.components) :
    below? base p = some (assemble .bare (trimPieces ((dropSignificant
      (base.front.countP significant) p.pieces).dropWhile (!significant ·)))) := by
  rw [below?, if_pos (List.isPrefixOf_iff_prefix.2 hinside), countP_front]
  cases hcomponents : base.components with
  | nil => exact absurd hcomponents hne
  | cons first rest => cases first <;> rfl

/-- The way back: what remains of a descent below its start is the names. -/
theorem below?_descend (base : Path) {names : List String}
    (hnames : ∀ name ∈ names, IsName name) (hne : names ≠ []) :
    below? base (base.descend names) = some (ofPieces names) := by
  obtain ⟨hhead, hpieces⟩ := head_pieces_descend base hne hnames
  by_cases hbase : base.components = []
  · obtain rfl := eq_empty_of_components hbase
    have hempty : (⟨""⟩ : Path).front = [] := by decide
    rw [below?, if_pos (by rw [hbase]; rfl), hbase]
    simp only [hhead, hpieces, hempty, List.nil_append, trimPieces_names hnames]
    exact congrArg some (assemble_bare_names hnames)
  · have hinside : base.components <+: (base.descend names).components := by
      rw [components_descend base hnames]
      exact List.prefix_append _ _
    obtain ⟨name, more, rfl⟩ := List.exists_cons_of_ne_nil hne
    have hsignificant := (hnames name List.mem_cons_self).significant
    rw [below?_of_inside hbase hinside, hpieces, dropWhile_dropSignificant, List.map_cons,
      List.dropWhile_cons_of_neg (by simp [hsignificant]), ← List.map_cons,
      trimPieces_names hnames, assemble_bare_names hnames]

/-- Nothing remains of a path below itself. -/
theorem below?_self (p : Path) : below? p p = some ⟨""⟩ := by
  by_cases hcomponents : p.components = []
  · obtain rfl := eq_empty_of_components hcomponents
    decide
  · have hcount : p.front.countP significant = p.pieces.countP significant := by
      rw [List.countP_eq_length_filter, filter_significant_front,
        ← List.countP_eq_length_filter]
    have hnone := dropWhile_dropSignificant p.pieces []
    rw [List.append_nil] at hnone
    rw [below?_of_inside hcomponents (List.prefix_refl _), hcount, hnone]
    rfl

/-! ### The last name -/

theorem fileName?_div (p : Path) {name : String} (hname : IsName name) :
    (p / name).fileName? = some name := by
  simp [fileName?, trimPieces_div p hname, hname.notUp]

theorem extension?_div (p : Path) {name : String} (hname : IsName name) :
    (p / name).extension? = (splitExtension name.toList).2.map String.ofList := by
  rw [extension?, fileName?_div p hname]
  cases hext : (splitExtension name.toList).2 <;> simp [hext]

/-- Replacing the extension of a path replaces that of its last name. -/
theorem withExtension_div (p : Path) {name name' : String} {ext : String} (hname : IsName name)
    (hname' : IsName name')
    (htext : name'.toList =
      (splitExtension name.toList).1 ++ if ext.isEmpty then [] else '.' :: ext.toList) :
    (p / name).withExtension ext = p / name' := by
  obtain ⟨hhead', hpieces⟩ := pieces_div p hname'
  have hhead := (pieces_div p hname).1
  have hassembled := assemble_head_pieces (p / name')
  rw [hhead', hpieces, htext] at hassembled
  simp only [withExtension, hhead, trimPieces_div p hname, List.reverse_append,
    List.reverse_singleton, List.singleton_append, hname.notUp, ↓reduceIte, List.reverse_reverse]
  exact hassembled

/-- What holds the last name of a descent is the descent through the others. -/
theorem parent?_descend_concat {p : Path} (hfront : p.front = []) (hhead : assemble p.head [] = p)
    {names : List String} {name : String} (hnames : ∀ n ∈ names, IsName n) (hname : IsName name) :
    (p.descend (names ++ [name])).parent? = some (p.descend names) := by
  have hwhole : ∀ n ∈ names ++ [name], IsName n := by
    intro n hn
    rcases List.mem_append.1 hn with h | h
    · exact hnames n h
    · exact List.mem_singleton.1 h ▸ hname
  obtain ⟨hsame, hpieces⟩ := head_pieces_descend p (by simp) hwhole
  rw [parent?, hsame, hpieces, hfront, List.nil_append, List.map_append, List.map_singleton,
    trimPieces_concat _ hname.significant]
  simp only [List.reverse_append, List.reverse_singleton, List.singleton_append,
    List.reverse_reverse, trimPieces_names hnames]
  exact congrArg some (assemble_head_names hfront hhead hnames)

theorem parent?_ofPieces_concat {names : List String} {name : String}
    (hnames : ∀ n ∈ names, IsName n) (hname : IsName name) :
    (ofPieces (names ++ [name])).parent? = some (ofPieces names) :=
  parent?_descend_concat (p := ⟨""⟩) (by decide) (by decide) hnames hname

/-! ### Absolute forms -/

theorem exists_absolute? (cwd : Path) {p : Path} (hp : p.text ≠ "") :
    ∃ q, absolute? cwd p = some q := by
  have hempty : ¬ p.text.isEmpty = true := by simpa using hp
  rw [absolute?, if_neg hempty]
  exact ⟨_, rfl⟩

end Path

end ClojureBuild
