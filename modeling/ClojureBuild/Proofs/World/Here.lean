import ClojureBuild.Proofs.Config.Placement
import ClojureBuild.Proofs.World.CurrentDirectory
import ClojureBuild.Proofs.World.Entering
import ClojureBuild.Proofs.World.Naming
import ClojureBuild.Proofs.World.Twins
/-!
The current directory in front of a path.

A path that is seen from the current directory may be written as it is, behind a `.`, or behind the
directory in full.  Main statement: these are twins where the system takes each of the texts, and
they serve alike as source entries.  The exceptions are the empty path, which leads nowhere as it is
written, and `-`, which a walk takes for no place as it is written.
-/

namespace ClojureBuild

open ClojureBuild.Path (IsName)

namespace World

/-- The ways to write the current directory in front of a path: not at all, as a dot, in full. -/
inductive Here (cwd : Location) : Path → Prop
  | absent : Here cwd ⟨""⟩
  | dot : Here cwd ⟨"."⟩
  | full : Here cwd ⟨textOf cwd⟩

variable {w : World} {base base' e : Path}

/-- Relative paths do not begin with a separator. -/
abbrev Relative (e : Path) : Prop := e.text.toList.head? ≠ some '/'

theorem Relative.div (he : Relative e) {name : String} (hname : IsName name) :
    Relative (e / name) := by
  rw [Relative, Path.text_div, Path.joinChars_of_relative _ hname.relative]
  cases htext : e.text.toList with
  | nil => simpa [Path.gap] using hname.relative
  | cons c rest => simpa [Relative, htext] using he

theorem Relative.descend (he : Relative e) {names : List String}
    (hnames : ∀ name ∈ names, IsName name) : Relative (e.descend names) := by
  induction names generalizing e with
  | nil => exact he
  | cons name rest ih =>
      obtain ⟨hname, hrest⟩ := List.forall_mem_cons.1 hnames
      exact ih (he.div hname) hrest

/-- Going down from a joined path is joining what is further down. -/
theorem join_descend (base : Path) (he : Relative e) {names : List String}
    (hnames : ∀ name ∈ names, IsName name) :
    (base.join e).descend names = base.join (e.descend names) := by
  induction names generalizing e with
  | nil => rfl
  | cons name rest ih =>
      obtain ⟨hname, hrest⟩ := List.forall_mem_cons.1 hnames
      have hstep : base.join e / name = base.join (e / name) :=
        Path.join_assoc base he hname.relative
      rw [Path.descend_cons, Path.descend_cons, hstep, ih (he.div hname) hrest]

theorem join_of_not_relative (p : Path) (he : ¬ Relative e) : p.join e = e := by
  rw [Relative, not_not] at he
  rw [Path.join, Path.joinChars, if_pos he, String.ofList_toList]

theorem text_join_eq_empty_iff {p q : Path} :
    (p.join q).text = "" ↔ p.text = "" ∧ q.text = "" := by
  rw [← String.toList_eq_nil_iff, ← String.toList_eq_nil_iff, ← String.toList_eq_nil_iff, Path.join,
    String.toList_ofList, Path.joinChars]
  split
  next hroot =>
      have hne : q.text.toList ≠ [] := fun hnil => by simp [hnil] at hroot
      exact iff_of_false hne fun hboth => hne hboth.2
  · split <;> simp_all

/-! ### Looking up -/

theorem stepsOf_join (p : Path) (he : Relative e) :
    stepsOf (p.join e).text = solidSteps p ++ stepsOf e.text ∨
      e.text = "" ∧ stepsOf (p.join e).text = solidSteps p ++ [.stay] := by
  have hsolid := solidSteps_join p he
  by_cases hempty : e.text = ""
  · have hnone : solidSteps e = [] := by
      rw [solidSteps, hempty]
      decide
    have hsteps : stepsOf e.text = [] := by
      rw [hempty]
      decide
    rw [hnone, List.append_nil] at hsolid
    rcases stepsOf_eq (p.join e) with h | h
    · exact Or.inl (by rw [h, hsolid, hsteps, List.append_nil])
    · exact Or.inr ⟨hempty, by rw [h, hsolid]⟩
  · have hlast : (p.join e).text.toList.getLast? = e.text.toList.getLast? := by
      have hne : e.text.toList ≠ [] := fun hnil => hempty (String.toList_eq_nil_iff.1 hnil)
      obtain ⟨last, hlast⟩ := Option.ne_none_iff_exists'.1 (mt List.getLast?_eq_none_iff.1 hne)
      rw [Path.join, String.toList_ofList, Path.joinChars_of_relative _ he, List.getLast?_append,
        List.getLast?_append, hlast]
      rfl
    refine Or.inl ?_
    rw [stepsOf, stepsOf, hlast]
    have hfold : ∀ q : Path, (Text.splitString '/' q.text).filterMap stepOfPiece = solidSteps q :=
      fun _ => rfl
    simp only [hfold, hsolid]
    split
    · rw [List.append_assoc]
    · rfl

theorem Standing.entryNames (hstanding : w.Standing) (htree : w.IsTree) :
    ∀ name ∈ w.cwd, EntryName name := by
  intro name hname
  obtain ⟨front, back, hcwd⟩ := List.append_of_mem hname
  obtain ⟨t, ht⟩ := isDirAt_iff.1 (hstanding (name :: back) (hcwd ▸ List.suffix_append _ _))
  exact htree.entry ht

/-- Behind the current directory, however it is written, a look-up goes on from there. -/
theorem Here.traverse (hbase : Here w.cwd base) (hcwd : ∀ name ∈ w.cwd, EntryName name)
    (hstanding : w.Standing) (jump : Location → List PathStep → Except OsError Spot)
    (more : List PathStep) :
    w.traverse true jump (if base.isAbsolute then [] else w.cwd) (solidSteps base ++ more) =
      w.traverse true jump w.cwd more := by
  cases hbase with
  | absent => rfl
  | dot => rfl
  | full =>
      have hsolid : solidSteps w.cwdPath = w.cwd.reverse.map .down :=
        solidSteps_cwdPath fun name hname => (hcwd name hname).toIsName
      have hdown := @traverse_down_dirs_append w [] w.cwd.reverse true jump
        (fun name hname => (hcwd name (List.mem_reverse.1 hname)).short)
        (fun way hway _ => hstanding _ (by simpa using List.reverse_suffix.2 hway)) more
      rw [List.reverse_reverse, List.append_nil, ← hsolid] at hdown
      rw [← hdown]
      exact congrArg (w.traverse true jump · _) (if_pos (isAbsolute_cwdPath w))

/-- Where a path leads behind the current directory does not depend on how that is written, as long
as the system takes the text. -/
theorem Here.resolve_join (hbase : Here w.cwd base) (hcwd : ∀ name ∈ w.cwd, EntryName name)
    (hstanding : w.Standing) (he : Relative e) {spot : Spot} :
    w.resolve true (base.join e) = .ok spot ↔ Askable (base.join e) ∧
      w.traverse true (w.resolveFrom true (linkLimit - 1)) w.cwd (stepsOf e.text) = .ok spot := by
  rw [resolve_eq_ok, isAbsolute_join base he]
  refine and_congr_right fun _ => ?_
  rcases stepsOf_join base he with hsteps | ⟨hempty, hsteps⟩
  · rw [hsteps, hbase.traverse hcwd hstanding]
  · rw [hsteps, hbase.traverse hcwd hstanding, hempty]
    rfl

theorem Here.stat_join (hbase : Here w.cwd base) (hbase' : Here w.cwd base')
    (hcwd : ∀ name ∈ w.cwd, EntryName name) (hstanding : w.Standing) (he : Relative e)
    (hask : Askable (base'.join e))
    {found : Location × Node} (h : w.stat (base.join e) = .ok found) :
    w.stat (base'.join e) = .ok found := by
  obtain ⟨hresolve, hnode⟩ := stat_eq_ok.1 h
  refine stat_eq_ok.2 ⟨?_, hnode⟩
  rw [hbase.resolve_join hcwd hstanding he] at hresolve
  exact (hbase'.resolve_join hcwd hstanding he).2 ⟨hask, hresolve.2⟩

/-- Names of entries hold no character that ends a text. -/
theorem Here.noNul (hbase : Here w.cwd base) (hcwd : ∀ name ∈ w.cwd, EntryName name) :
    Char.ofNat 0 ∉ base.text.toList := by
  cases hbase with
  | absent => decide
  | dot => decide
  | full =>
      intro hin
      by_cases hroot : w.cwd = []
      · rw [hroot] at hin
        exact absurd hin (by decide)
      · rw [toList_textOf hroot] at hin
        obtain ⟨name, hname, hchar⟩ := List.mem_flatMap.1 hin
        rcases List.mem_cons.1 hchar with hslash | hchar
        · exact absurd hslash (by decide)
        · exact (hcwd name (List.mem_reverse.1 hname)).noNul hchar

theorem mem_join_iff (p : Path) (he : Relative e) {c : Char} (hc : c ≠ '/') :
    c ∈ (p.join e).text.toList ↔ c ∈ p.text.toList ∨ c ∈ e.text.toList := by
  have hgap : c ∉ Path.gap p.text.toList := by
    rw [Path.gap]
    split
    · simp
    · simpa using hc
  rw [Path.join, String.toList_ofList, Path.joinChars_of_relative _ he, List.mem_append,
    List.mem_append, or_iff_right hgap]

/-- A text that the system takes behind one way to write the current directory is taken behind
another, unless it gets too long or stays empty. -/
theorem Here.askable_join (hbase' : Here w.cwd base') (hcwd : ∀ name ∈ w.cwd, EntryName name)
    (he : Relative e) (h : Askable (base.join e))
    (hne : (base'.join e).text ≠ "") (hshort : (base'.join e).text.length < pathLimit) :
    Askable (base'.join e) := by
  refine ⟨hne, fun hnul => h.noNul ?_, hshort⟩
  rw [mem_join_iff _ he (by decide)] at hnul ⊢
  exact Or.inr (hnul.resolve_left (hbase'.noNul hcwd))

/-! ### Absolute forms -/

/-- What a path names does not depend on what is cut off as its head. -/
theorem filter_pieces (p : Path) :
    p.pieces.filter Path.significant =
      (Text.splitOn '/' p.text.toList).filter Path.significant := by
  rw [Path.pieces]
  generalize p.text.toList = text
  fun_cases Path.splitHead text with
  | case1 rest => simp [Text.splitOn, Path.significant]
  | case2 => decide
  | case3 rest => simp [Text.splitOn, Path.significant]
  | case4 text hroot hdot hhere => rfl

theorem filter_pieces_join (p : Path) (he : Relative e) :
    (p.join e).pieces.filter Path.significant =
      p.pieces.filter Path.significant ++ e.pieces.filter Path.significant := by
  rw [filter_pieces, filter_pieces, filter_pieces, Path.join, String.toList_ofList,
    ← List.filterMap_eq_filter]
  exact Path.filterMap_splitOn_joinChars _ rfl p.text.toList he

theorem filter_pieces_descend (p : Path) {names : List String}
    (hnames : ∀ name ∈ names, IsName name) :
    (p.descend names).pieces.filter Path.significant =
      p.pieces.filter Path.significant ++ names.map String.toList := by
  by_cases hne : names = []
  · simp [hne]
  · rw [(Path.head_pieces_descend p hne hnames).2, List.filter_append,
      Path.filter_significant_names hnames, Path.filter_significant_front]

/-- The absolute form of a path is a text if its start and all that it names are texts. -/
theorem isText_absolute? {cwd p q : Path} (h : Path.absolute? cwd p = some q) :
    q.isText = ((p.isAbsolute || cwd.isText) &&
      ((p.pieces.filter Path.significant).map String.ofList).all Octets.isText) := by
  obtain ⟨start, whole, rfl, hend, hstart⟩ := exists_start_of_absolute? h
  have hrelative : ∀ name ∈ (p.pieces.filter Path.significant).map String.ofList,
      name.toList.head? ≠ some '/' := by
    intro name hname hhead
    obtain ⟨piece, hpiece, rfl⟩ := List.mem_map.1 hname
    rw [String.toList_ofList] at hhead
    exact Text.not_mem_of_mem_splitOn (List.mem_filter.1 hpiece).1 (List.mem_of_mem_head? hhead)
  have hbegin : start.isText = (p.isAbsolute || cwd.isText) := by
    cases habsolute : p.isAbsolute with
    | true =>
        rw [if_pos habsolute] at hstart
        rw [Bool.true_or]
        rcases hstart with rfl | rfl <;> decide +kernel
    | false =>
        rw [if_neg (by simp [habsolute])] at hstart
        rw [hstart, Bool.false_or]
  have hwhole := Path.isText_foldl_join start hrelative
  rw [hbegin] at hwhole
  rw [← hwhole]
  rcases hend with rfl | rfl
  · rfl
  · have hempty : (⟨""⟩ : Path).isText = true := by decide +kernel
    rw [Path.isText_join _ (by simp), hempty, Bool.and_true]

theorem isText_pieces {p : Path} (hp : p.isText = true) :
    ((p.pieces.filter Path.significant).map String.ofList).all Octets.isText = true := by
  rw [List.all_eq_true]
  intro name hname
  obtain ⟨piece, hpiece, rfl⟩ := List.mem_map.1 hname
  rw [filter_pieces] at hpiece
  have hwhole : Octets.isText (String.ofList p.text.toList) = true := by rwa [String.ofList_toList]
  exact Octets.isText_of_mem_splitOn (by decide) hwhole (List.mem_filter.1 hpiece).1

/-- What a path names, joined to a start, with a separator at the end if the path has one. -/
def spellFrom (start p : Path) : Path :=
  let whole := ((p.pieces.filter Path.significant).map String.ofList).foldl
    (fun q s => q.join ⟨s⟩) start
  if p.text.toList.getLast? = some '/' then whole.join ⟨""⟩ else whole

theorem absolute?_of_relative (cwd : Path) {p : Path} (hp : Relative p) (hne : p.text ≠ "") :
    Path.absolute? cwd p = some (spellFrom cwd p) := by
  rw [Path.absolute?, if_neg (by simpa using hne)]
  unfold spellFrom
  rw [Relative] at hp
  cases htext : p.text.toList with
  | nil => exact absurd (String.toList_eq_nil_iff.1 htext) hne
  | cons c rest =>
      have hc : c ≠ '/' := by simpa [htext] using hp
      simp only
      split <;> simp_all

theorem absolute?_of_root (cwd : Path) {p : Path} {rest : List Char}
    (htext : p.text.toList = '/' :: rest) (hrest : rest.head? ≠ some '/') :
    Path.absolute? cwd p = some (spellFrom ⟨"/"⟩ p) := by
  have hne : p.text ≠ "" := by
    intro hempty
    simp [hempty] at htext
  rw [Path.absolute?, if_neg (by simpa using hne)]
  unfold spellFrom
  rw [htext]
  cases rest with
  | nil => rfl
  | cons c more =>
      have hc : c ≠ '/' := by simpa using hrest
      simp [hc]

/-- A joined path ends in a separator when its right side does or is empty. -/
theorem getLast?_join (he : Relative e) (hne : (base.join e).text ≠ "") :
    (base.join e).text.toList.getLast? = some '/' ↔
      e.text = "" ∨ e.text.toList.getLast? = some '/' := by
  have htext : (base.join e).text.toList =
      base.text.toList ++ Path.gap base.text.toList ++ e.text.toList := by
    rw [Path.join, String.toList_ofList, Path.joinChars_of_relative _ he, List.append_assoc]
  by_cases hempty : e.text = ""
  · have hleft : (base.join e).text.toList = base.text.toList ++ Path.gap base.text.toList := by
      rw [htext, hempty]
      exact List.append_nil _
    refine iff_of_true ?_ (Or.inl hempty)
    rw [hleft]
    by_cases hgap : Path.gap base.text.toList = []
    · rw [hgap, List.append_nil]
      rcases Path.ended_of_gap hgap with hnil | ⟨body, hbody⟩
      · rw [hgap, hnil] at hleft
        exact absurd (String.toList_eq_nil_iff.1 hleft) hne
      · rw [hbody, List.getLast?_append]
        rfl
    · rw [Path.gap_eq_slash hgap, List.getLast?_append]
      rfl
  · have hsome : e.text.toList ≠ [] := fun hnil => hempty (String.toList_eq_nil_iff.1 hnil)
    obtain ⟨last, hlast⟩ := Option.ne_none_iff_exists'.1 (mt List.getLast?_eq_none_iff.1 hsome)
    rw [htext, List.getLast?_append, hlast]
    simp [hempty]

/-- The path of the current directory begins with one separator, also with more behind it. -/
theorem exists_textOf_join {loc : Location} (hnames : ∀ name ∈ loc, IsName name) (he : Relative e) :
    ∃ rest, ((⟨textOf loc⟩ : Path).join e).text.toList = '/' :: rest ∧ rest.head? ≠ some '/' := by
  have htext : ((⟨textOf loc⟩ : Path).join e).text.toList =
      (textOf loc).toList ++ (Path.gap (textOf loc).toList ++ e.text.toList) := by
    rw [Path.join, String.toList_ofList, Path.joinChars_of_relative _ he]
  rw [htext]
  by_cases hroot : loc = []
  · have hgap : Path.gap (textOf loc).toList = [] := by
      rw [hroot]
      decide
    refine ⟨e.text.toList, ?_, he⟩
    rw [hgap, hroot]
    rfl
  · obtain ⟨name, more, hloc⟩ := List.exists_cons_of_ne_nil (List.reverse_ne_nil_iff.2 hroot)
    have hname := hnames name (List.mem_reverse.1 (hloc ▸ List.mem_cons_self))
    obtain ⟨c, chars, hchars⟩ := List.exists_cons_of_ne_nil hname.nonempty
    rw [toList_textOf hroot, hloc, List.flatMap_cons, hchars]
    refine ⟨_, rfl, ?_⟩
    have hc : c ≠ '/' := by
      rintro rfl
      exact hname.noSlash (by simp [hchars])
    simpa using hc

/-- What is seen from the current directory has one absolute form, however that is written. -/
theorem Here.absolute?_join (hbase : Here w.cwd base) (hnames : ∀ name ∈ w.cwd, IsName name)
    (he : Relative e) (hne : (base.join e).text ≠ "") :
    Path.absolute? w.cwdPath (base.join e) = some
      (let whole := ((e.pieces.filter Path.significant).map String.ofList).foldl
        (fun q s => q.join ⟨s⟩) w.cwdPath
      if e.text = "" ∨ e.text.toList.getLast? = some '/' then whole.join ⟨""⟩ else whole) := by
  have hsame : ∀ start : Path, spellFrom start (base.join e) =
      let whole := ((e.pieces.filter Path.significant).map String.ofList).foldl
        (fun q s => q.join ⟨s⟩) (((base.pieces.filter Path.significant).map String.ofList).foldl
          (fun q s => q.join ⟨s⟩) start)
      if e.text = "" ∨ e.text.toList.getLast? = some '/' then whole.join ⟨""⟩ else whole := by
    intro start
    rw [spellFrom, filter_pieces_join _ he, List.map_append, List.foldl_append]
    simp only [getLast?_join he hne]
  cases hbase with
  | absent =>
      have hrelative : Relative ((⟨""⟩ : Path).join e) := by rwa [Path.empty_join]
      rw [absolute?_of_relative _ hrelative hne, hsame]
      rfl
  | dot =>
      have hrelative : Relative ((⟨"."⟩ : Path).join e) := by
        rw [Relative, Path.join, String.toList_ofList, Path.joinChars_of_relative _ he]
        simp
      rw [absolute?_of_relative _ hrelative hne, hsame]
      rfl
  | full =>
      obtain ⟨rest, htext, hrest⟩ := exists_textOf_join hnames he
      have hpieces : ((⟨textOf w.cwd⟩ : Path).pieces.filter Path.significant).map String.ofList =
          w.cwd.reverse := by
        have hall : ∀ name ∈ w.cwd.reverse, IsName name :=
          fun name hname => hnames name (List.mem_reverse.1 hname)
        rw [textOf_eq_descend hnames, filter_pieces_descend _ hall, List.map_append, List.map_map]
        exact List.map_id'' (fun _ => String.ofList_toList) _
      rw [absolute?_of_root _ htext hrest, hsame, hpieces]
      have hdescend : w.cwd.reverse.foldl (fun q s => q.join ⟨s⟩) (⟨"/"⟩ : Path) = w.cwdPath :=
        (textOf_eq_descend hnames).symm
      rw [hdescend]

/-! ### Names of files -/

theorem getLast?_trimPieces (pieces : List (List Char)) :
    (Path.trimPieces pieces).getLast? = (pieces.filter Path.significant).getLast? := by
  rw [← Path.filter_significant_trimPieces]
  rcases List.eq_nil_or_concat (Path.trimPieces pieces) with hnil | ⟨front, last, hconcat⟩
  · rw [hnil]
    rfl
  · rw [List.concat_eq_append] at hconcat
    rw [hconcat, List.filter_append,
      List.filter_cons_of_pos (Path.significant_of_trimPieces hconcat), List.filter_nil,
      List.getLast?_concat, List.getLast?_concat]

theorem extension?_congr {p q : Path} (h : (p.pieces.filter Path.significant).getLast? =
    (q.pieces.filter Path.significant).getLast?) : p.extension? = q.extension? := by
  have hname : p.fileName? = q.fileName? := by
    rw [← getLast?_trimPieces, ← getLast?_trimPieces, List.getLast?_eq_head?_reverse,
      List.getLast?_eq_head?_reverse] at h
    rw [Path.fileName?, Path.fileName?]
    generalize (Path.trimPieces p.pieces).reverse = ps at h
    generalize (Path.trimPieces q.pieces).reverse = qs at h
    cases ps <;> cases qs <;> simp_all
  rw [Path.extension?, Path.extension?, hname]

/-- A path that names nothing does not lead away from the current directory. -/
theorem stepsOf_of_nothing (hnone : e.pieces.filter Path.significant = []) :
    ∀ step ∈ stepsOf e.text, step = .stay := by
  have hsolid : ∀ step ∈ solidSteps e, step = .stay := by
    intro step hstep
    rw [solidSteps_eq_pieces, List.mem_append] at hstep
    rcases hstep with hhead | hpiece
    · cases hkind : e.head <;> simp [hkind, stepsOfHead] at hhead
      exact hhead
    · obtain ⟨piece, hpiece, hstep⟩ := List.mem_filterMap.1 hpiece
      have hnot := List.filter_eq_nil_iff.1 hnone piece hpiece
      have hcases : piece = [] ∨ piece = ['.'] := by
        by_contra hboth
        rw [not_or] at hboth
        exact hnot (by simp [Path.significant, hboth.1, hboth.2])
      rcases hcases with rfl | rfl
      · exact absurd (show (none : Option PathStep) = some step from hstep) (by simp)
      · exact (Option.some.inj hstep).symm
  rcases stepsOf_eq e with h | h
  · rwa [h]
  · rw [h]
    simpa [or_imp, forall_and] using hsolid

theorem traverse_stays {jump : Location → List PathStep → Except OsError Spot} (loc : Location)
    {steps : List PathStep} (h : ∀ step ∈ steps, step = .stay) :
    w.traverse true jump loc steps = .ok (.taken loc) := by
  induction steps with
  | nil => rfl
  | cons step rest ih =>
      obtain ⟨rfl, hrest⟩ := List.forall_mem_cons.1 h
      exact ih hrest

/-- A path that names nothing leads to no file. -/
theorem Here.isFile_of_nothing (hbase : Here w.cwd base) (hcwd : ∀ name ∈ w.cwd, EntryName name)
    (hstanding : w.Standing) (he : Relative e) (hnone : e.pieces.filter Path.significant = []) :
    w.isFile (base.join e) = false := by
  rw [Bool.eq_false_iff]
  intro hfile
  obtain ⟨loc, node, hstat, hnode⟩ := isFile_eq_true_iff.1 hfile
  obtain ⟨hresolve, hat⟩ := stat_eq_ok.1 hstat
  rw [hbase.resolve_join hcwd hstanding he, traverse_stays w.cwd (stepsOf_of_nothing hnone)]
    at hresolve
  obtain rfl : w.cwd = loc := Spot.taken.inj (Except.ok.inj hresolve.2)
  obtain ⟨t, ht⟩ := isDirAt_iff.1 (hstanding w.cwd List.suffix_rfl)
  rw [ht] at hat
  obtain rfl := Option.some.inj hat
  exact absurd hnode (by simp [Node.isFile])

theorem Here.extension?_join (hbase : Here w.cwd base) (hcwd : ∀ name ∈ w.cwd, EntryName name)
    (hstanding : w.Standing) (he : Relative e) (base' : Path)
    (hfile : w.isFile (base.join e) = true) :
    (base.join e).extension? = (base'.join e).extension? := by
  apply extension?_congr
  rw [filter_pieces_join _ he, filter_pieces_join _ he]
  by_cases hnone : e.pieces.filter Path.significant = []
  · exact absurd hfile (by simp [hbase.isFile_of_nothing hcwd hstanding he hnone])
  · rw [List.getLast?_append_of_ne_nil _ hnone, List.getLast?_append_of_ne_nil _ hnone]

/-! ### Twins -/

/-- The system takes the path to whatever is at a path or below it, however the current directory is
written in front. -/
def Roomy (w : World) (e : Path) : Prop :=
  ∀ base base' names, Here w.cwd base → Here w.cwd base' → (∀ name ∈ names, IsName name) →
    w.pathExists ((base.join e).descend names) = true →
      ((base'.join e).descend names).text.length < pathLimit

/-- Something is left of a path without the directory, unless the other way leaves it out, too. -/
theorem join_ne_empty (hboth : ¬ (base.text = "" ∧ base'.text = ""))
    (h : (base.text = "" ↔ base'.text = "") ∨ e.text ≠ "") : (base.join e).text ≠ "" := by
  intro hempty
  obtain ⟨hbase, he⟩ := text_join_eq_empty_iff.1 hempty
  exact h.elim (fun hiff => hboth ⟨hbase, hiff.1 hbase⟩) fun hne => hne he

/-- The place that a path spells does not depend on how the current directory is written. -/
theorem Here.placeFrom_join (hbase : Here w.cwd base) (hnames : ∀ name ∈ w.cwd, IsName name)
    (e : Path) : (base.join e).placeFrom w.cwd = e.placeFrom w.cwd := by
  by_cases he : Relative e
  · have hbare : e.isAbsolute = false := by simpa [Path.isAbsolute] using he
    rw [Path.placeFrom, Path.placeFrom, solidSteps_join base he, isAbsolute_join base he, hbare,
      List.foldl_append]
    cases hbase with
    | absent => rfl
    | dot => rfl
    | full =>
        have hsolid : solidSteps w.cwdPath = w.cwd.reverse.map .down := solidSteps_cwdPath hnames
        have habsolute : (⟨textOf w.cwd⟩ : Path).isAbsolute = true := isAbsolute_textOf w.cwd
        rw [cwdPath] at hsolid
        rw [hsolid, habsolute, foldl_go_down, List.reverse_reverse]
        simp
  · rw [join_of_not_relative base he]

/-- Where no link is, it is enough that what stands at a place or below it has short paths. -/
theorem roomy_of_linkFree (hfree : w.LinkFree) (hcwd : ∀ name ∈ w.cwd, IsName name)
    (h : ∀ names, w.node? (names.reverse ++ e.placeFrom w.cwd) ≠ none → ∀ base, Here w.cwd base →
      ((base.join e).descend names).text.length < pathLimit) : w.Roomy e := by
  intro base base' names hbase hbase' hnames hexists
  refine h names ?_ base' hbase'
  rw [pathExists] at hexists
  cases hstat : w.stat ((base.join e).descend names) with
  | error cause => simp [hstat] at hexists
  | ok found =>
      have hnode := (node?_placeFrom_of_stat (hfree.unlinked _) hstat).2
      rw [placeFrom_descend _ hnames, hbase.placeFrom_join hcwd] at hnode
      rw [hnode]
      exact Option.some_ne_none _

/-- However the current directory is written in front of a path, the world behind it is the same. -/
theorem Here.twins (hbase : Here w.cwd base) (hbase' : Here w.cwd base')
    (hcwd : ∀ name ∈ w.cwd, EntryName name) (hstanding : w.Standing) (hroom : w.Roomy e)
    (h : (base.text = "" ↔ base'.text = "") ∨ e.text ≠ "") :
    Twins w (base.join e) (base'.join e) := by
  by_cases hboth : base.text = "" ∧ base'.text = ""
  · obtain rfl : base = base' := congrArg Path.mk (hboth.1.trans hboth.2.symm)
    exact .refl w _
  have hne := join_ne_empty hboth h
  have hne' := join_ne_empty (mt And.symm hboth) (h.imp_left Iff.symm)
  by_cases he : Relative e
  · have hnames : ∀ name ∈ w.cwd, IsName name := fun name hname => (hcwd name hname).toIsName
    have hwrite : ∀ {b b' : Path}, Here w.cwd b → Here w.cwd b' → (b'.join e).text ≠ "" →
        ∀ names, (∀ name ∈ names, IsName name) → ∀ found,
          w.stat ((b.join e).descend names) = .ok found →
            w.stat ((b'.join e).descend names) = .ok found := by
      intro b b' hb hb' hne names hall found hstat
      have hexists : w.pathExists ((b.join e).descend names) = true := by rw [pathExists, hstat]
      have hshort := hroom b b' names hb hb' hall hexists
      have hlong := text_descend_ne_empty hne hall
      rw [join_descend _ he hall] at hstat hshort hlong ⊢
      have hask := askable_of_stat hstat
      exact hb.stat_join hb' hcwd hstanding (he.descend hall)
        (hb'.askable_join hcwd (he.descend hall) hask hlong hshort) hstat
    constructor
    · intro names hall found
      exact ⟨hwrite hbase hbase' hne' names hall found, hwrite hbase' hbase hne names hall found⟩
    · intro names hall
      have hlong := text_descend_ne_empty hne hall
      have hlong' := text_descend_ne_empty hne' hall
      rw [join_descend _ he hall] at hlong hlong' ⊢
      rw [join_descend _ he hall]
      rw [hbase.absolute?_join hnames (he.descend hall) hlong,
        hbase'.absolute?_join hnames (he.descend hall) hlong']
  · rw [join_of_not_relative base he, join_of_not_relative base' he]
    exact .refl w e

/-- Behind a dot or the directory in full nothing is taken for no place. -/
theorem Here.same_dash (hbase : Here w.cwd base) (hnames : ∀ name ∈ w.cwd, IsName name)
    (he : Relative e) (h : base.text = "" → e.same ⟨"-"⟩ = false) :
    (base.join e).same ⟨"-"⟩ = false := by
  have hfront : ∀ first, (base.join e).components.head? = some first → first ≠ .name "-" →
      (base.join e).same ⟨"-"⟩ = false := by
    intro first hfirst hne
    have hdash : (⟨"-"⟩ : Path).components = [.name "-"] := by decide
    rw [Path.same, hdash, beq_eq_false_iff_ne]
    intro heq
    rw [heq] at hfirst
    exact hne (Option.some.inj hfirst).symm
  cases hbase with
  | absent => simpa only [Path.empty_join] using h rfl
  | dot =>
      have htext : ((⟨"."⟩ : Path).join e).text.toList = '.' :: '/' :: e.text.toList := by
        rw [Path.join, String.toList_ofList, Path.joinChars_of_relative _ he]
        rfl
      refine hfront .here ?_ (by decide)
      rw [Path.components, Path.head, htext]
      rfl
  | full =>
      obtain ⟨rest, htext, -⟩ := exists_textOf_join hnames he
      refine hfront .root ?_ (by decide)
      rw [Path.components, Path.head, htext]
      rfl

/-- However the current directory is written in front of a path, it serves as the same source.  The
paths to beware of are those that need something in front of them. -/
theorem Here.sourceTwins (hbase : Here w.cwd base) (hbase' : Here w.cwd base')
    (hcwd : ∀ name ∈ w.cwd, EntryName name) (hstanding : w.Standing) (hroom : w.Roomy e)
    (h : (base.text = "" ↔ base'.text = "") ∨ e.text ≠ "" ∧ e.same ⟨"-"⟩ = false)
    (htext : base.isText = base'.isText) :
    SourceTwins w (base.join e) (base'.join e) := by
  by_cases hboth : base.text = "" ∧ base'.text = ""
  · obtain rfl : base = base' := congrArg Path.mk (hboth.1.trans hboth.2.symm)
    exact ⟨.refl w _, rfl, rfl, fun _ => rfl⟩
  have htwins := hbase.twins hbase' hcwd hstanding hroom (h.imp_right And.left)
  by_cases he : Relative e
  · have hnames : ∀ name ∈ w.cwd, IsName name := fun name hname => (hcwd name hname).toIsName
    have hdash : (base.join e).same ⟨"-"⟩ = false :=
      hbase.same_dash hnames he fun hempty =>
        (h.resolve_left fun hiff => hboth ⟨hempty, hiff.1 hempty⟩).2
    have hdash' : (base'.join e).same ⟨"-"⟩ = false :=
      hbase'.same_dash hnames he fun hempty =>
        (h.resolve_left fun hiff => hboth ⟨hiff.2 hempty, hempty⟩).2
    have htexts : (base.join e).isText = (base'.join e).isText := by
      rw [Path.isText_join base he, Path.isText_join base' he, htext]
    exact ⟨htwins, hdash.trans hdash'.symm, htexts, hbase.extension?_join hcwd hstanding he base'⟩
  · rw [join_of_not_relative base he, join_of_not_relative base' he]
    exact ⟨.refl w e, rfl, rfl, fun _ => rfl⟩

end World

end ClojureBuild
