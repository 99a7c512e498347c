import ClojureBuild.Proofs.Compile.Duplicates
import ClojureBuild.Proofs.Planning.RoundTrip
import ClojureBuild.Proofs.World.Coinciding
import ClojureBuild.Proofs.World.Naming
/-!
Roots that are listed twice.

Planning takes the files below the roots by their names: the source file of a requested unit, and
every other Clojure file that a walk shows.  It compares positions of the list of roots, and two
positions may hold one directory.  Main statement: a duplicate comes from two positions that have a
file at the same names, and the two files are apart exactly when the two roots are; so a compilation
ends with a duplicate also whenever a directory with a file that planning takes is listed twice.
-/

namespace ClojureBuild

open ClojureBuild.Path (IsName)

/-! ### Pieces that are empty -/

namespace Path

/-- Joining pieces of which some are empty joins the others, and leaves a separator at most. -/
theorem ofPieces_filter {pieces : List String} (h : ∀ piece ∈ pieces, IsPiece piece) :
    ofPieces pieces = ofPieces (pieces.filter (· ≠ "")) ∨
      ofPieces pieces = (ofPieces (pieces.filter (· ≠ ""))).join ⟨""⟩ := by
  have hempty : (⟨""⟩ : Path).text.toList.head? ≠ some '/' := by simp
  induction pieces using List.reverseRecOn with
  | nil => exact Or.inl rfl
  | append_singleton front last ih =>
      have hfront := ih fun piece hpiece => h piece (by simp [hpiece])
      have hstep : ∀ names : List String, ofPieces (names ++ [last]) =
          (ofPieces names).join ⟨last⟩ := fun names => List.foldl_concat _ _ _ _
      rw [hstep, List.filter_append]
      rcases h last (by simp) with rfl | hname
      · -- an empty piece adds a separator where none is yet
        rw [List.filter_cons_of_neg (by simp), List.filter_nil, List.append_nil]
        rcases hfront with heq | heq
        · exact Or.inr (by rw [heq])
        · refine Or.inr ?_
          rw [heq, join_assoc _ hempty hempty]
          rfl
      · have hkept : last ≠ "" := by
          rintro rfl
          exact hname.nonempty rfl
        rw [List.filter_cons_of_pos (by simpa using hkept), List.filter_nil, hstep]
        rcases hfront with heq | heq
        · exact Or.inl (by rw [heq])
        · refine Or.inl ?_
          rw [heq, join_assoc _ hempty hname.relative]
          congr 1
          simp [join, joinChars, hname.relative]

/-- A separator behind the last name is dropped with the extension. -/
theorem withExtension_join_empty (p : Path) {name : String} (hname : IsName name) (ext : String) :
    ((p / name).join ⟨""⟩).withExtension ext = (p / name).withExtension ext := by
  obtain ⟨hhead, hpieces⟩ := head_pieces_join (p / name) (q := ⟨""⟩) (by decide) (by decide)
  have htrim : trimPieces ((p / name).join ⟨""⟩).pieces = p.front ++ [name.toList] := by
    have hlast : Text.splitOn '/' (⟨""⟩ : Path).text.toList = [[]] := by decide
    rw [← trimPieces_div p hname, hpieces, front_div p hname, hlast]
    simp [trimPieces, significant]
  simp only [withExtension, hhead, htrim, trimPieces_div p hname, List.reverse_append,
    List.reverse_singleton, List.singleton_append, hname.notUp, ↓reduceIte]

end Path

/-! ### Source files and their names -/

namespace UnitId

/-- The source file of a unit is expected at these names. -/
def Expects (u : UnitId) (names : List OsText) : Prop :=
  ∃ dirs stem, u.octets = dirs ++ [stem] ∧ names = dirs ++ [stem ++ ".clj"]

theorem exists_expects {u : UnitId} (h : u.names ≠ []) : ∃ names, u.Expects names := by
  obtain ⟨dirs, stem, hnames⟩ :=
    (List.eq_nil_or_concat u.octets).resolve_left (mt List.map_eq_nil_iff.1 h)
  exact ⟨_, dirs, stem, hnames.trans (List.concat_eq_append), rfl⟩

theorem Expects.isName {u : UnitId} {names : List String} (h : u.Expects names) :
    names ≠ [] ∧ ∀ name ∈ names, IsName name := by
  obtain ⟨dirs, stem, hspelled, rfl⟩ := h
  refine ⟨by simp, fun name hname => ?_⟩
  have hplain : ∀ n ∈ dirs ++ [stem], PlainName n := by
    intro n hn
    exact plainName_of_mem_octets (hspelled ▸ hn)
  rcases List.mem_append.1 hname with hdir | hlast
  · exact (hplain name (by simp [hdir])).isName
  · rw [List.mem_singleton.1 hlast]
    exact (hplain stem (by simp)).append (by decide)

/-- The source file of a unit is reached by its names. -/
theorem Expects.sourceFile_eq {u : UnitId} {names : List String} (h : u.Expects names)
    (root : Path) : u.sourceFile root = root.descend names := by
  obtain ⟨dirs, stem, hspelled, rfl⟩ := h
  have hplain : ∀ n ∈ dirs ++ [stem], PlainName n := by
    intro n hn
    exact plainName_of_mem_octets (hspelled ▸ hn)
  have hnames : ∀ n ∈ dirs ++ [stem], IsName n := fun n hn => (hplain n hn).isName
  have hstem := hplain stem (by simp)
  have hlast : IsName (stem ++ ".clj") := hstem.append (by decide)
  have hjoined : root.join (Path.ofPieces u.octets) = root.descend dirs / stem := by
    rw [hspelled, Path.join_ofPieces root (by simp) hnames, Path.descend_concat]
  have hcut : (root.descend dirs / stem).withExtension sourceExtension =
      root.descend dirs / (stem ++ ".clj") := by
    apply Path.withExtension_div _ hstem.isName hlast
    rw [Path.splitExtension_of_not_mem hstem.noDot, String.toList_append]
    rfl
  rw [Path.descend_concat, ← hcut]
  have hpieces := Path.ofPieces_filter fun _ => @isPiece_of_mem_pieces u _
  rw [← octets_eq] at hpieces
  rcases hpieces with heq | heq
  · exact congrArg (·.withExtension sourceExtension) ((congrArg root.join heq).trans hjoined)
  · have hended : root / u.relativePath = (root.descend dirs / stem).join ⟨""⟩ := by
      rw [← hjoined]
      refine (congrArg root.join heq).trans (Path.join_assoc root ?_ (by simp)).symm
      exact Path.ofPieces_relative fun n hn => (plainName_of_mem_octets hn).isName
    exact (congrArg (·.withExtension sourceExtension) hended).trans
      (Path.withExtension_join_empty _ hstem.isName _)

/-- The unit of a file is told by its names, whatever the root is. -/
def ShownAt (u : UnitId) (names : List String) : Prop :=
  ∀ root : Path, unitOf root (root.descend names) = some u

theorem shownAt_of_unitOf {u : UnitId} {root : Path} {names : List String} (hne : names ≠ [])
    (hnames : ∀ name ∈ names, IsName name) (h : unitOf root (root.descend names) = some u) :
    u.ShownAt names := by
  obtain ⟨dirs, stem, rfl, hstem⟩ :=
    exists_stem_of_hasExtension hne hnames (hasExtension_of_unitOf h)
  intro other
  rw [unitOf_descend hnames hstem other, ← unitOf_descend hnames hstem root, h]

end UnitId

/-- Planning takes the files at these names: the source of a requested unit is expected there, or a
file there shows a unit that is not requested. -/
def Takes (libs : List UnitId) (names : List String) : Prop :=
  (∃ u ∈ libs, u.Expects names) ∨ ∃ u, u ∉ libs ∧ u.ShownAt names

/-- Below these roots everything is within reach: none is spelled as the standard input, and no path
of a file is too long for the system. -/
structure WithinReach (w : World) (roots : List Path) : Prop where
  plain : ∀ root ∈ roots, root.same ⟨"-"⟩ = false
  short : ∀ root ∈ roots, ∀ names, w.FileBelow root names →
    (root.descend names).text.length < World.pathLimit

/-! ### Positions that hold a file twice -/

section Lists

variable {α β : Type} {xs : List α} {P Q : α → Prop}

theorem heldTwice_congr (h : ∀ x ∈ xs, P x ↔ Q x) : HeldTwice P xs ↔ HeldTwice Q xs := by
  refine exists_congr fun i => exists_congr fun j => and_congr_right fun _ => ?_
  exact and_congr (h _ (List.getElem_mem i.isLt)) (h _ (List.getElem_mem j.isLt))

/-- Two elements that are related nowhere within a part of a list come from two parts of it. -/
theorem exists_positions_of_flatMap {f : α → List β} {R : β → β → Prop} {front back : List β}
    {x y : β} (hwithin : ∀ a ∈ xs, (f a).Pairwise R) (h : xs.flatMap f = front ++ y :: back)
    (hx : x ∈ front) (hxy : ¬ R x y) :
    ∃ i j : Fin xs.length, i < j ∧ x ∈ f (xs.get i) ∧ y ∈ f (xs.get j) := by
  have hall : (xs.flatMap f).Pairwise fun x y =>
      R x y ∨ ∃ i j : Fin xs.length, i < j ∧ x ∈ f (xs.get i) ∧ y ∈ f (xs.get j) := by
    rw [List.pairwise_flatMap]
    refine ⟨fun a ha => (hwithin a ha).imp Or.inl, ?_⟩
    rw [List.pairwise_iff_getElem]
    intro i j hi hj hlt x hx y hy
    exact Or.inr ⟨⟨i, hi⟩, ⟨j, hj⟩, hlt, hx, hy⟩
  rw [h, List.pairwise_append] at hall
  exact (hall.2.2 x hx y List.mem_cons_self).resolve_left hxy

end Lists

section

variable {w : World} {roots : List Path} {libs : List UnitId} {target : Path}

theorem World.FileBelow.isName (htree : w.IsTree) {root : Path} {names : List String}
    (h : w.FileBelow root names) : ∀ name ∈ names, IsName name :=
  fun name hname => (h.names htree name hname).toIsName

theorem UnitId.Expects.isFile_iff (hfree : w.LinkFree) (htree : w.IsTree) {u : UnitId}
    {names : List String} (h : u.Expects names) {root : Path} (hroot : root.text ≠ "") :
    w.isFile (u.sourceFile root) = true ↔
      w.FileBelow root names ∧ (root.descend names).text.length < World.pathLimit := by
  rw [h.sourceFile_eq, World.isFile_descend_iff hfree htree hroot h.isName.1 h.isName.2]

/-- The unit of a duplicate has a file at the same names below two positions of the roots. -/
theorem NamesDuplicate.exists_positions (hfree : w.LinkFree) (htree : w.IsTree)
    (hroots : ∀ root ∈ roots, root.text ≠ "") (hlibs : ∀ u ∈ libs, u.names ≠ []) {u : UnitId}
    (h : NamesDuplicate w roots libs target u) :
    ∃ names, (u.Expects names ∨ u.ShownAt names) ∧ HeldTwice (w.FileBelow · names) roots := by
  rcases h with ⟨⟨i, j, hlt, hi, hj⟩, front, back, heq, -⟩ |
    ⟨-, c, ⟨front, back, heq, -, hclash⟩, rfl⟩
  · obtain ⟨names, hexpects⟩ := UnitId.exists_expects (hlibs u (heq ▸ by simp))
    refine ⟨names, Or.inl hexpects, i, j, hlt, ?_, ?_⟩
    · exact ((hexpects.isFile_iff hfree htree (hroots _ (List.getElem_mem i.isLt))).1 hi).1
    · exact ((hexpects.isFile_iff hfree htree (hroots _ (List.getElem_mem j.isLt))).1 hj).1
  · obtain ⟨d, hd, hsame⟩ := hclash
    have hwithin : ∀ root ∈ roots,
        (Mirror.askedBelow w libs target root).Pairwise Mirror.Apart :=
      fun root _ => Mirror.pairwise_askedBelow htree root
    obtain ⟨i, j, hlt, hdi, hcj⟩ := exists_positions_of_flatMap hwithin heq hd fun hapart =>
      absurd (hsame.symm.trans hapart) (by simp)
    obtain ⟨names, hmirrors, -, -, htarget⟩ := (Mirror.mem_askedBelow_iff_mirrors hfree htree
      (hroots _ (List.getElem_mem i.isLt))).1 hdi
    obtain ⟨names', hmirrors', hunit, -, htarget'⟩ := (Mirror.mem_askedBelow_iff_mirrors hfree htree
      (hroots _ (List.getElem_mem j.isLt))).1 hcj
    rw [htarget, htarget', Mirror.descend_same_iff_of_mirrors htree hmirrors hmirrors'] at hsame
    subst hsame
    have hfile := hmirrors'.2.1.1
    exact ⟨names, Or.inr (UnitId.shownAt_of_unitOf hfile.1 (hfile.isName htree) hunit), i, j, hlt,
      hmirrors.2.1.1, hfile⟩

/-- Where everything is within reach, the mirroring takes a file by its names. -/
theorem WithinReach.mirrors_iff (htree : w.IsTree) (hreach : WithinReach w roots) {root : Path}
    (hroot : root ∈ roots) {names : List String} :
    w.Mirrors libs names root ↔
      w.FileBelow root names ∧ ∃ u, u ∉ libs ∧ u.ShownAt names := by
  constructor
  · rintro ⟨-, ⟨hfile, -⟩, -, u, hunit, hu⟩
    exact ⟨hfile, u, hu, UnitId.shownAt_of_unitOf hfile.1 (hfile.isName htree) hunit⟩
  · rintro ⟨hfile, u, hu, hshown⟩
    have hopens : World.Opens root names :=
      World.opens_of_short hfile.1 (hfile.isName htree) (hreach.short root hroot names hfile)
    exact ⟨hreach.plain root hroot, ⟨hfile, hasExtension_of_unitOf (hshown root)⟩, hopens, u,
      hshown root, hu⟩

/-- Where everything is within reach, a duplicate is named exactly when two positions have a file
that planning takes at the same names. -/
theorem WithinReach.exists_namesDuplicate_iff (hfree : w.LinkFree) (htree : w.IsTree)
    (hreach : WithinReach w roots) (hroots : ∀ root ∈ roots, root.text ≠ "")
    (hlibs : ∀ u ∈ libs, u.names ≠ []) :
    (∃ u, NamesDuplicate w roots libs target u) ↔
      ∃ names, Takes libs names ∧ HeldTwice (w.FileBelow · names) roots := by
  have hrequested : ∀ {u : UnitId} {names : List String}, u.Expects names →
      (w.HoldsTwice roots u ↔ HeldTwice (w.FileBelow · names) roots) := by
    intro u names hexpects
    refine heldTwice_congr fun root hroot => ?_
    rw [hexpects.isFile_iff hfree htree (hroots root hroot)]
    exact and_iff_left_of_imp (hreach.short root hroot names)
  rw [ClojureBuild.exists_namesDuplicate_iff hfree htree hroots]
  constructor
  · rintro (⟨u, hu, htwice⟩ | ⟨names, i, j, hlt, hi, hj⟩)
    · obtain ⟨names, hexpects⟩ := UnitId.exists_expects (hlibs u hu)
      exact ⟨names, Or.inl ⟨u, hu, hexpects⟩, (hrequested hexpects).1 htwice⟩
    · obtain ⟨hfile, hshown⟩ := (hreach.mirrors_iff htree (List.getElem_mem i.isLt)).1 hi
      exact ⟨names, Or.inr hshown, i, j, hlt, hfile, hj.2.1.1⟩
  · rintro ⟨names, ⟨u, hu, hexpects⟩ | hshown, htwice⟩
    · exact Or.inl ⟨u, hu, (hrequested hexpects).2 htwice⟩
    · refine Or.inr ⟨names, (heldTwice_congr fun root hroot => ?_).2 htwice⟩
      rw [hreach.mirrors_iff htree hroot, and_iff_left hshown]

end

/-! ### Directories that are listed twice -/

section

variable {t : Toolchain} {o : CompileOptions} {run : Runner} {request : CompileRequest}
  {force : Bool}

/-- In a tree without links a duplicate names a unit with a file at the same names below two
positions of the roots, and the files are apart exactly when the roots are.  Where everything is
within reach, a compilation ends with a duplicate exactly when two positions have a file that
planning takes at the same names, and the files are apart or the roots coincide: a directory with
such a file ends the build whenever it is listed twice. -/
theorem compile_duplicate_repeated {s : Session} (hfree : s.world.LinkFree)
    (htree : s.world.IsTree) (hstanding : s.world.Standing)
    (hrun : ∀ i, Task.Raises BuildError.Late (run i)) {target : Path} {roots : List Path}
    {libs : List UnitId} {classpath : List Path}
    (htarget : absolutePath s.world request.target = .ok target)
    (hroots : sourceRoots s.world request.sources = roots)
    (hlibs : CompilePlan.chooseLibs s.world o roots = libs)
    (hclasspath : t.classpath s.world (CompilePlan.entries request roots) = .ok classpath)
    (hnamed : ∀ u ∈ libs, u.names ≠ []) :
    (∀ u, ((compile t o run force request).runIn s).1 = .error (.duplicateNamespace u) →
      ∃ names, (u.Expects names ∨ u.ShownAt names) ∧ ∃ i j : Fin roots.length, i < j ∧
        s.world.FileBelow (roots.get i) names ∧ s.world.FileBelow (roots.get j) names ∧
        (s.world.Coincide ((roots.get i).descend names) ((roots.get j).descend names) ↔
          s.world.Coincide (roots.get i) (roots.get j))) ∧
    (WithinReach s.world roots →
      ((∃ u, ((compile t o run force request).runIn s).1 = .error (.duplicateNamespace u)) ↔
        ∃ names, Takes libs names ∧ ∃ i j : Fin roots.length, i < j ∧
          s.world.FileBelow (roots.get i) names ∧
            (s.world.FileBelow (roots.get j) names ∧
                ¬ s.world.Coincide ((roots.get i).descend names) ((roots.get j).descend names) ∨
              s.world.Coincide (roots.get i) (roots.get j)))) := by
  have hplaces : ∀ root ∈ roots, root.text ≠ "" := by
    intro root hroot
    rw [← hroots] at hroot
    exact text_ne_of_mem_sourceRoots hroot
  have hdirs : ∀ root ∈ roots, s.world.isDir root = true := by
    intro root hroot
    rw [← hroots] at hroot
    exact (List.mem_filter.1 hroot).2
  have hnames : ∀ u, ((compile t o run force request).runIn s).1 = .error (.duplicateNamespace u) ↔
      NamesDuplicate s.world roots libs target u := fun u =>
    (compile_eq_duplicate_iff hrun).trans
      (planCompile_eq_duplicate_iff hroots hlibs htarget hclasspath)
  have hapart : ∀ {names : List String} {root root' : Path}, root ∈ roots → root' ∈ roots →
      s.world.FileBelow root names →
      (s.world.Coincide (root.descend names) (root'.descend names) ↔
        s.world.Coincide root root') := fun hroot hroot' hfile =>
    World.coincide_descend_iff (hplaces _ hroot) (hplaces _ hroot') (hfile.isName htree)
  constructor
  · intro u hdup
    obtain ⟨names, hsource, i, j, hlt, hi, hj⟩ :=
      ((hnames u).1 hdup).exists_positions hfree htree hplaces hnamed
    exact ⟨names, hsource, i, j, hlt, hi, hj,
      hapart (List.getElem_mem i.isLt) (List.getElem_mem j.isLt) hi⟩
  · intro hreach
    rw [exists_congr hnames, hreach.exists_namesDuplicate_iff hfree htree hplaces hnamed]
    refine exists_congr fun names => and_congr_right fun _ => ?_
    refine exists_congr fun i => exists_congr fun j => and_congr_right fun _ => ?_
    refine and_congr_right fun hi => ?_
    have hcoincide : s.world.Coincide ((roots.get i).descend names) ((roots.get j).descend names) ↔
        s.world.Coincide (roots.get i) (roots.get j) :=
      hapart (List.get_mem roots i) (List.get_mem roots j) hi
    rw [hcoincide]
    constructor
    · intro hj
      by_cases h : s.world.Coincide (roots.get i) (roots.get j)
      · exact Or.inr h
      · exact Or.inl ⟨hj, h⟩
    · rintro (⟨hj, -⟩ | h)
      · exact hj
      · exact (h.fileBelow_iff hfree (hstanding.names htree.named)
          (hdirs _ (List.get_mem roots i)) (hdirs _ (List.get_mem roots j))).1 hi

end

/-- A directory of one source builds when it is listed once, and ends with a duplicate when it is
listed in a second spelling. -/
theorem compile_duplicate_repeated_spellings :
    (∃ u, ((compile default copyingOptions (Scripted.runner []) false
      ⟨[⟨"a"⟩, ⟨"./a/"⟩], ⟨"out"⟩, []⟩).runIn twinSession).1 = .error (.duplicateNamespace u)) ∧
    ((compile default copyingOptions (Scripted.runner []) false
      ⟨[⟨"a"⟩], ⟨"out"⟩, []⟩).runIn twinSession).1.isOk = true := by
  refine ⟨?_, by decide +kernel⟩
  have hstanding : twinSession.world.Standing := by
    intro loc hloc
    rw [List.suffix_nil.1 hloc]
    rfl
  have htarget : absolutePath twinSession.world ⟨"out"⟩ = .ok ⟨"/out"⟩ := by decide +kernel
  have hroots : sourceRoots twinSession.world [⟨"a"⟩, ⟨"./a/"⟩] = [⟨"a"⟩, ⟨"./a/"⟩] := by
    decide +kernel
  have hclasspath : (default : Toolchain).classpath twinSession.world (CompilePlan.entries
      ⟨[⟨"a"⟩, ⟨"./a/"⟩], ⟨"out"⟩, []⟩ [⟨"a"⟩, ⟨"./a/"⟩]) =
        .ok [⟨"/a"⟩, ⟨"/a/"⟩] := by decide +kernel
  have hlibs : CompilePlan.chooseLibs twinSession.world copyingOptions [⟨"a"⟩, ⟨"./a/"⟩] = [] := rfl
  have hstat : ∀ root ∈ [(⟨"a"⟩ : Path), ⟨"./a/"⟩],
      twinSession.world.stat root = .ok (["a"], .dir 0) := by
    simp only [List.forall_mem_cons, List.not_mem_nil, false_implies, implies_true, and_true]
    exact ⟨rfl, rfl⟩
  have honly : ∀ root ∈ [(⟨"a"⟩ : Path), ⟨"./a/"⟩], ∀ names,
      twinSession.world.FileBelow root names → names = ["x.clj"] := by
    intro root hroot names hfile
    have hentries : (twinSession.world.entriesBelow ["a"]).map Prod.fst = [[], ["x.clj"]] := by
      decide
    have hmem := hfile.mem_entriesBelow (hstat root hroot)
    rw [hentries] at hmem
    simp only [List.mem_cons, List.not_mem_nil, or_false, List.reverse_eq_iff] at hmem
    exact hmem.resolve_left hfile.1
  have hreach : WithinReach twinSession.world [⟨"a"⟩, ⟨"./a/"⟩] := by
    refine ⟨by decide, fun root hroot names hfile => ?_⟩
    have hshort : ∀ root ∈ [(⟨"a"⟩ : Path), ⟨"./a/"⟩],
        (root.descend ["x.clj"]).text.length < World.pathLimit := by decide +kernel
    rw [honly root hroot names hfile]
    exact hshort root hroot
  have hshown : (⟨"x"⟩ : UnitId).ShownAt ["x.clj"] :=
    @UnitId.shownAt_of_unitOf _ ⟨"a"⟩ _ (by simp) (by decide) (by decide)
  refine ((compile_duplicate_repeated (s := twinSession) (by decide +kernel) (by decide +kernel)
    hstanding (Scripted.runner_raises []) htarget hroots hlibs hclasspath (by simp)).2 hreach).2 ?_
  refine ⟨["x.clj"], Or.inr ⟨⟨"x"⟩, by simp, hshown⟩, ⟨0, by decide⟩, ⟨1, by decide⟩, by decide, ?_,
    Or.inr ⟨⟨"/a"⟩, ⟨"/a/"⟩, by decide +kernel, by decide +kernel, by decide⟩⟩
  exact ⟨by simp, ["a"], 0, hstat _ (by simp), by decide +kernel⟩

end ClojureBuild
