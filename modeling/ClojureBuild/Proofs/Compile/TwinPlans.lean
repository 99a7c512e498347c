import ClojureBuild.Proofs.Compile.Repetition
import ClojureBuild.Proofs.Path.Shown
import ClojureBuild.Proofs.Planning.Mirroring
import ClojureBuild.Proofs.World.Twins
/-!
Plans of twin requests.

Two requests are twins when their source entries are, one by one, and everything else of them has
the same absolute form.  Main statement: they are planned alike: both plans fail, or both have the
same target, classpath, units and invocation, and rules that differ in the spelling of the sources
only.
-/

namespace ClojureBuild

open ClojureBuild.Path (IsName)
open World (SourceTwins Twins Beside Shown)

/-! ### Units that spell something -/

/-- What is joined holds the characters of each piece. -/
theorem Text.mem_joinWith_of_mem {sep c : Char} {piece : List Char} {pieces : List (List Char)}
    (hpiece : piece ∈ pieces) (hc : c ∈ piece) : c ∈ joinWith sep pieces := by
  induction pieces with
  | nil => simp at hpiece
  | cons first rest ih =>
      cases rest with
      | nil => simpa [joinWith, ← List.mem_singleton.1 hpiece] using hc
      | cons next more =>
          rw [joinWith, List.mem_append, List.mem_cons]
          rcases List.mem_cons.1 hpiece with rfl | hrest
          · exact Or.inl hc
          · exact Or.inr (Or.inr (ih hrest))

namespace UnitId

theorem names_ne_nil {u : UnitId} {c : Char} (hc : c ∈ u.text.toList) (hdot : c ≠ '.')
    (hslash : c ≠ '/') : u.names ≠ [] := by
  intro hnone
  have hpieces : ∀ piece ∈ Text.splitOn '/' u.toPath.toList, ∀ d ∈ piece, '/' = d := by
    intro piece hpiece d hd
    have hempty := List.filter_eq_nil_iff.1 hnone (String.ofList piece)
      (List.mem_map.2 ⟨piece, hpiece, rfl⟩)
    have hnil : piece = [] := by simpa using hempty
    simp [hnil] at hd
  have hall := (Text.forall_mem_splitOn_iff rfl).1 hpieces
  have hin : charToPath c ∈ u.toPath.toList := by
    rw [toPath, String.toList_ofList]
    exact List.mem_map.2 ⟨c, hc, rfl⟩
  have hpath := hall _ hin
  rw [charToPath, if_neg hdot] at hpath
  split at hpath
  · exact absurd hpath (by decide)
  · exact hslash hpath.symm

theorem Dotted.names_ne_nil {u : UnitId} (h : Dotted u.text) : u.names ≠ [] := by
  obtain ⟨piece, rest, hpieces⟩ :=
    List.exists_cons_of_ne_nil (Text.splitOn_ne_nil '.' u.text.toList)
  have hpiece : piece ∈ Text.splitOn '.' u.text.toList := by simp [hpieces]
  obtain ⟨c, hc⟩ := List.exists_mem_of_ne_nil piece ((dotted_iff.1 h).1 piece hpiece)
  have hin := Text.mem_of_mem_splitOn hpiece hc
  refine UnitId.names_ne_nil hin ?_ ?_
  · rintro rfl
    exact Text.not_mem_of_mem_splitOn hpiece hc
  · rintro rfl
    exact h.noSlash hin

/-- A source file whose name is not hidden shows a unit that spells something. -/
theorem ShownAt.names_ne_nil {u : UnitId} {names : List String} (h : u.ShownAt names)
    (hne : names ≠ []) (hnames : ∀ name ∈ names, IsName name) (hshown : Shown false names) :
    u.names ≠ [] := by
  have hunit := h ⟨""⟩
  obtain ⟨folders, base, rfl, hbase⟩ :=
    exists_stem_of_hasExtension hne hnames (hasExtension_of_unitOf hunit)
  obtain ⟨dirs, stem, rfl, rfl, heq⟩ := exists_texts_of_unitOf hnames hbase hunit
  have hstem := mt Octets.ofText_eq_empty_iff.2 hbase
  have hhidden := hshown.resolve_left (by simp) (Octets.ofText stem ++ ".clj") (by simp)
  obtain ⟨c, rest, hchars⟩ := List.exists_cons_of_ne_nil (mt String.toList_eq_nil_iff.1 hstem)
  have hdot : c ≠ '.' := by
    rintro rfl
    rw [World.isHidden, String.toList_append, Octets.toList_ofText, hchars, List.flatMap_cons,
      Octets.encodeChar_ascii (by decide)] at hhidden
    exact absurd hhidden (by simp)
  have hslash : c ≠ '/' := by
    rintro rfl
    have hin : '/' ∈ (Octets.ofText stem).toList :=
      (Octets.mem_ofText_iff (by decide)).2 (by simp [hchars])
    exact (hnames (Octets.ofText stem ++ ".clj") (by simp)).noSlash (by simp [hin])
  have hleft : Path.leftOf stem = stem := by
    refine if_neg fun hhere => hdot ?_
    rw [hhere] at hchars
    exact (List.cons.inj hchars).1.symm
  rw [hleft] at heq
  have hin : charOfPath c ∈ u.text.toList := by
    rw [heq, ofPath, Text.joinStrings, String.toList_ofList, String.toList_ofList]
    have hstems : stem.toList ∈ (dirs ++ [stem]).map String.toList :=
      List.mem_map_of_mem (by simp)
    exact List.mem_map_of_mem (Text.mem_joinWith_of_mem hstems (by simp [hchars]))
  refine UnitId.names_ne_nil hin ?_ ?_ <;>
  · rw [charOfPath, if_neg hslash]
    split
    · decide
    · assumption

end UnitId

/-! ### Files below twin roots -/

section

variable {w : World} {p q a b : Path}

theorem unitOf_beside {all : Bool} (h : Beside all p q a b) : unitOf p a = unitOf q b := by
  obtain ⟨names, hne, hnames, -, rfl, rfl⟩ := h
  refine Option.ext fun u => ⟨fun hunit => ?_, fun hunit => ?_⟩
  · exact UnitId.shownAt_of_unitOf hne hnames hunit q
  · exact UnitId.shownAt_of_unitOf hne hnames hunit p

theorem discover_twins (hnamed : w.Named) (h : SourceTwins w p q) (hdir : w.isDir p = true) :
    discover w p = discover w q := by
  have hfiles := h.filesUnder hnamed false h.dash hdir
  rw [discover_eq, discover_eq, ← List.forall₂_eq_eq_eq]
  refine List.rel_filterMap (fun a b hbeside => ?_) hfiles
  rw [unitOf_beside hbeside]
  cases unitOf q b <;> constructor
  rfl

theorem names_ne_nil_of_mem_discover (hnamed : w.Named) (hdir : w.isDir p = true) {u : UnitId}
    (hu : u ∈ discover w p) : u.names ≠ [] := by
  rw [discover_eq, List.mem_filterMap] at hu
  obtain ⟨file, hfile, hunit⟩ := hu
  have hfiles := (World.Twins.refl w p).filesUnder hnamed false rfl hdir
  obtain ⟨names, hne, hnames, hshown, rfl, -⟩ := List.forall₂_same.1 hfiles file hfile
  exact (UnitId.shownAt_of_unitOf hne hnames hunit).names_ne_nil hne hnames hshown

end

/-! ### Planning -/

/-- Two paths that go down by the same names from two others that are related. -/
def DescendFrom (R : Path → Path → Prop) (a b : Path) : Prop :=
  ∃ p q names, R p q ∧ (∀ name ∈ names, IsName name) ∧ a = p.descend names ∧ b = q.descend names

theorem DescendFrom.mono {R S : Path → Path → Prop} (hS : ∀ p q, R p q → S p q) {a b : Path}
    (h : DescendFrom R a b) : DescendFrom S a b := by
  obtain ⟨p, q, names, hpq, hnames⟩ := h
  exact ⟨p, q, names, hS p q hpq, hnames⟩

theorem DescendFrom.isText_eq {R : Path → Path → Prop} (hR : ∀ p q, R p q → p.isText = q.isText)
    {a b : Path} (h : DescendFrom R a b) : a.isText = b.isText := by
  obtain ⟨p, q, names, hpq, hnames, rfl, rfl⟩ := h
  rw [Path.isText_descend p hnames, Path.isText_descend q hnames, hR p q hpq]

theorem World.Beside.descendFrom {R : Path → Path → Prop} {all : Bool} {p q a b : Path}
    (h : Beside all p q a b) (hR : R p q) : DescendFrom R a b := by
  obtain ⟨names, -, hnames, -, ha, hb⟩ := h
  exact ⟨p, q, names, hR, hnames, ha, hb⟩

/-- One unit below two related roots. -/
structure LocatedUnit.Like (R : Path → Path → Prop) (x y : LocatedUnit) : Prop where
  id : x.id = y.id
  root : R x.root y.root
  source : DescendFrom R x.source y.source

theorem LocatedUnit.Like.mono {R S : Path → Path → Prop} (hS : ∀ p q, R p q → S p q)
    {x y : LocatedUnit} (h : x.Like R y) : x.Like S y :=
  ⟨h.id, hS _ _ h.root, h.source.mono hS⟩

/-- Copies of one unit to one place from two related roots. -/
structure MirrorCopy.Like (R : Path → Path → Prop) (c d : MirrorCopy) : Prop where
  unit : c.unit = d.unit
  target : c.target = d.target
  source : DescendFrom R c.source d.source

/-- Rules that differ only in how their source is written. -/
structure Rules.Rule.Like (S : Path → Path → Prop) (r r' : Rules.Rule) : Prop where
  target : r.target = r'.target
  action : r.action = r'.action
  source : S r.source r'.source

/-- Plans with rules that differ only in how their sources are written. -/
structure CompilePlan.Like (R : Path → Path → Prop) (plan plan' : CompilePlan) : Prop where
  target : plan.target = plan'.target
  libs : plan.libs = plan'.libs
  classpath : plan.classpath = plan'.classpath
  invocation : plan.invocation = plan'.invocation
  located : List.Forall₂ (LocatedUnit.Like R) plan.survey.located plan'.survey.located
  rules : List.Forall₂ (Rules.Rule.Like (DescendFrom R)) plan.rules plan'.rules

section

variable {w : World} {R : Path → Path → Prop} {roots roots' : List Path}

/-- Twin roots hold a unit alike. -/
theorem locate_like (hroots : List.Forall₂ R roots roots') (hR : ∀ p q, R p q → SourceTwins w p q)
    {u : UnitId} (hu : u.names ≠ []) :
    Meets (Option.Rel (LocatedUnit.Like R)) (locate w roots u) (locate w roots' u) := by
  obtain ⟨names, hexpects⟩ := UnitId.exists_expects hu
  have hnames := hexpects.isName.2
  have hholders : List.Forall₂ R (holders w u roots) (holders w u roots') := by
    refine List.rel_filter (fun p q hpq => ?_) hroots
    change w.isFile (u.sourceFile p) = true ↔ w.isFile (u.sourceFile q) = true
    rw [hexpects.sourceFile_eq, hexpects.sourceFile_eq,
      ((hR p q hpq).toTwins.descend hnames).isFile_eq]
  rw [locate, locate]
  generalize holders w u roots = found at hholders
  generalize holders w u roots' = found' at hholders
  cases hholders with
  | nil => exact .ok .none
  | @cons p q _ _ hpq hrest =>
      have hsource : DescendFrom R (u.sourceFile p) (u.sourceFile q) :=
        ⟨p, q, names, hpq, hnames, hexpects.sourceFile_eq p, hexpects.sourceFile_eq q⟩
      have hlike : ∀ a b, DescendFrom R a b → LocatedUnit.Like R ⟨u, p, a⟩ ⟨u, q, b⟩ :=
        fun _ _ h => ⟨rfl, hpq, h⟩
      cases hrest with
      | nil =>
          simp only
          exact .ok (.some (hlike _ _ hsource))
      | cons _ _ =>
          simp only
          exact .error _ _

theorem ofUnits_like (hroots : List.Forall₂ R roots roots')
    (hR : ∀ p q, R p q → SourceTwins w p q) {units : List UnitId}
    (hunits : ∀ u ∈ units, u.names ≠ []) :
    (Survey.ofUnits w roots units).failure.isSome = (Survey.ofUnits w roots' units).failure.isSome ∧
      List.Forall₂ (LocatedUnit.Like R) (Survey.ofUnits w roots units).located
        (Survey.ofUnits w roots' units).located := by
  induction units with
  | nil => exact ⟨rfl, .nil⟩
  | cons u rest ih =>
      have hlocate := locate_like hroots hR (hunits u List.mem_cons_self)
      obtain ⟨hfailure, hlocated⟩ := ih fun v hv => hunits v (List.mem_cons_of_mem u hv)
      rw [Survey.ofUnits, Survey.ofUnits]
      generalize locate w roots u = result at hlocate
      generalize locate w roots' u = result' at hlocate
      cases hlocate with
      | error e e' => exact ⟨rfl, .nil⟩
      | ok hfound =>
          cases hfound with
          | none => exact ⟨hfailure, hlocated⟩
          | some hlike => exact ⟨hfailure, .cons hlike hlocated⟩

/-- The surveys of twin roots fail both, or locate the same. -/
theorem survey_meets (hroots : List.Forall₂ R roots roots') (hR : ∀ p q, R p q → SourceTwins w p q)
    {units : List UnitId} (hunits : ∀ u ∈ units, u.names ≠ []) :
    Meets (fun _ _ => List.Forall₂ (LocatedUnit.Like R) (Survey.ofUnits w roots units).located
        (Survey.ofUnits w roots' units).located)
      (Survey.ofUnits w roots units).result (Survey.ofUnits w roots' units).result := by
  obtain ⟨hfailure, hlocated⟩ := ofUnits_like hroots hR hunits
  rw [Survey.result, Survey.result]
  cases hleft : (Survey.ofUnits w roots units).failure <;>
    cases hright : (Survey.ofUnits w roots' units).failure
  case none.none => exact .ok hlocated
  case some.some => exact .error _ _
  all_goals simp [hleft, hright] at hfailure

/-- Twin roots ask for the same copies. -/
theorem askedBelow_like (hnamed : w.Named) (hR : ∀ p q, R p q → SourceTwins w p q)
    (hdir : ∀ p q, R p q → w.isDir p = true) (done : List UnitId) (target : Path) {p q : Path}
    (hpq : R p q) :
    List.Forall₂ (MirrorCopy.Like R) (Mirror.askedBelow w done target p)
      (Mirror.askedBelow w done target q) := by
  have htwins := hR p q hpq
  have hfiles := htwins.filesUnder hnamed true htwins.dash (hdir p q hpq)
  refine List.rel_filterMap (fun a b hbeside => ?_) hfiles
  have hunit := unitOf_beside hbeside
  have hsource := hbeside.descendFrom hpq
  obtain ⟨names, hne, hnames, -, rfl, rfl⟩ := hbeside
  rw [MirrorCopy.ofFile?, MirrorCopy.ofFile?, hunit, Path.below?_descend p hnames hne,
    Path.below?_descend q hnames hne]
  cases unitOf q (q.descend names) with
  | none => exact .none
  | some u =>
      by_cases hmem : done.contains u = true
      · simp only [Option.bind_eq_bind, Option.bind_some, hmem, ↓reduceIte]
        exact .none
      · simp only [Option.bind_eq_bind, Option.bind_some, hmem]
        exact .some ⟨rfl, rfl, hsource⟩

/-- Copies go to different places exactly when those that are like them do. -/
theorem pairwise_apart_iff {cs ds : List MirrorCopy}
    (h : List.Forall₂ (MirrorCopy.Like R) cs ds) :
    cs.Pairwise Mirror.Apart ↔ ds.Pairwise Mirror.Apart := by
  have htargets : cs.map MirrorCopy.target = ds.map MirrorCopy.target := by
    rw [← List.forall₂_eq_eq_eq, List.forall₂_map_left_iff, List.forall₂_map_right_iff]
    exact h.imp fun _ _ => MirrorCopy.Like.target
  have hmapped : ∀ es : List MirrorCopy, es.Pairwise Mirror.Apart ↔
      (es.map MirrorCopy.target).Pairwise fun t t' => t.same t' = false := by
    intro es
    rw [List.pairwise_map]
    rfl
  rw [hmapped, hmapped, htargets]

/-- The mirrorings of twin roots fail both, or copy the same. -/
theorem mirror_meets (hnamed : w.Named) (hroots : List.Forall₂ R roots roots')
    (hR : ∀ p q, R p q → SourceTwins w p q) (hdir : ∀ p q, R p q → w.isDir p = true)
    (done : List UnitId) (target : Path) :
    Meets (fun _ _ => List.Forall₂ (MirrorCopy.Like R) (Mirror.ofRoots w done target roots).copies
        (Mirror.ofRoots w done target roots').copies)
      (Mirror.ofRoots w done target roots).result (Mirror.ofRoots w done target roots').result := by
  have hasked := List.rel_flatMap hroots fun _ _ => askedBelow_like hnamed hR hdir done target
  have hiff : (Mirror.ofRoots w done target roots).duplicate = none ↔
      (Mirror.ofRoots w done target roots').duplicate = none := by
    rw [Mirror.duplicate_eq_none_iff, Mirror.duplicate_eq_none_iff]
    exact pairwise_apart_iff hasked
  rw [Mirror.result, Mirror.result]
  cases hleft : (Mirror.ofRoots w done target roots).duplicate <;>
    cases hright : (Mirror.ofRoots w done target roots').duplicate
  case none.none =>
    rw [Mirror.copies_eq hleft, Mirror.copies_eq hright]
    exact .ok hasked
  case some.some => exact .error _ _
  all_goals simp [hleft, hright] at hiff

theorem chooseLibs_twins (hnamed : w.Named) (hroots : List.Forall₂ R roots roots')
    (hR : ∀ p q, R p q → SourceTwins w p q) (hdir : ∀ p q, R p q → w.isDir p = true)
    (o : CompileOptions) :
    CompilePlan.chooseLibs w o roots = CompilePlan.chooseLibs w o roots' := by
  rw [CompilePlan.chooseLibs, CompilePlan.chooseLibs]
  cases o.libs with
  | some libs => rfl
  | none =>
      simp only
      rw [discoverAll, discoverAll, ← List.forall₂_eq_eq_eq]
      refine List.rel_flatMap hroots fun p q hpq => ?_
      rw [discover_twins hnamed (hR p q hpq) (hdir p q hpq), List.forall₂_eq_eq_eq]

/-- Every unit that is chosen spells something, if those that are asked for do. -/
theorem names_ne_nil_of_mem_chooseLibs (hnamed : w.Named) {o : CompileOptions}
    (hlibs : ∀ libs, o.libs = some libs → ∀ u ∈ libs, u.names ≠ []) {sources : List Path}
    {u : UnitId} (hu : u ∈ CompilePlan.chooseLibs w o (sourceRoots w sources)) : u.names ≠ [] := by
  rw [CompilePlan.chooseLibs] at hu
  cases hasked : o.libs with
  | some libs =>
      rw [hasked] at hu
      exact hlibs libs hasked u hu
  | none =>
      rw [hasked] at hu
      obtain ⟨root, hroot, hin⟩ := List.mem_flatMap.1 hu
      exact names_ne_nil_of_mem_discover hnamed (List.of_mem_filter hroot) hin

end

/-! ### Twin requests -/

/-- Entries that are one artifact, or paths with one absolute form. -/
inductive ClasspathEntry.Twins (cwd : Path) : ClasspathEntry → ClasspathEntry → Prop
  | artifact (c : Coordinate) : Twins cwd (.artifact c) (.artifact c)
  | path {p q : Path} : Path.absolute? cwd p = Path.absolute? cwd q →
      Twins cwd (.path p) (.path q)

/-- Toolchains that differ in how their runtime is written. -/
structure Toolchain.Twins (cwd : Path) (t t' : Toolchain) : Prop where
  java : t.java = t'.java
  javac : t.javac = t'.javac
  scalac : t.scalac = t'.scalac
  groovyc : t.groovyc = t'.groovyc
  repository : t.repository = t'.repository
  runtime : List.Forall₂ (ClasspathEntry.Twins cwd) t.runtime t'.runtime

/-- Requests with sources that are related one by one, and with one absolute form of all else. -/
structure CompileRequest.Twins (cwd : Path) (R : Path → Path → Prop)
    (request request' : CompileRequest) : Prop where
  sources : List.Forall₂ R request.sources request'.sources
  target : Path.absolute? cwd request.target = Path.absolute? cwd request'.target
  dependencies : List.Forall₂ (ClasspathEntry.Twins cwd) request.dependencies request'.dependencies

section

variable {w : World} {R : Path → Path → Prop}

theorem absolutePath_meets {p q : Path}
    (h : Path.absolute? w.cwdPath p = Path.absolute? w.cwdPath q) :
    Meets Eq (absolutePath w p) (absolutePath w q) := by
  rw [absolutePath, absolutePath, h]
  cases Path.absolute? w.cwdPath q with
  | none => exact .error _ _
  | some a => exact .ok rfl

theorem resolveEntry_meets (repository : Path) {entry entry' : ClasspathEntry}
    (h : entry.Twins w.cwdPath entry') :
    Meets Eq (Classpath.resolveEntry w repository entry)
      (Classpath.resolveEntry w repository entry') := by
  cases h with
  | artifact c => exact .refl _
  | path habsolute => exact absolutePath_meets habsolute

theorem resolve_meets (repository : Path) {entries entries' : List ClasspathEntry}
    (h : List.Forall₂ (ClasspathEntry.Twins w.cwdPath) entries entries') :
    Meets Eq (Classpath.resolve w repository entries)
      (Classpath.resolve w repository entries') := by
  induction h with
  | nil => exact .ok rfl
  | cons hentry _ ih =>
      refine (resolveEntry_meets repository hentry).bind fun a a' heq => ?_
      refine ih.bind fun others others' hothers => ?_
      rw [heq, hothers]
      exact .ok rfl

/-- Twin sources have the same roots among them. -/
theorem sourceRoots_twins (hR : ∀ p q, R p q → SourceTwins w p q) {sources sources' : List Path}
    (h : List.Forall₂ R sources sources') :
    List.Forall₂ (fun p q => R p q ∧ w.isDir p = true) (sourceRoots w sources)
      (sourceRoots w sources') := by
  induction h with
  | nil => exact .nil
  | @cons p q _ _ hpq _ ih =>
      have hsame := (hR p q hpq).isDir_eq
      cases hdir : w.isDir p with
      | true =>
          rw [sourceRoots, sourceRoots, List.filter_cons_of_pos hdir,
            List.filter_cons_of_pos (hsame ▸ hdir)]
          exact .cons ⟨hpq, hdir⟩ ih
      | false =>
          have hnot : w.isDir q = false := hsame ▸ hdir
          rw [sourceRoots, sourceRoots, List.filter_cons_of_neg (by simp [hdir]),
            List.filter_cons_of_neg (by simp [hnot])]
          exact ih

/-- The rules for units and copies that are like each other are like each other. -/
theorem rules_like {S : Path → Path → Prop} (hS : ∀ a b, DescendFrom R a b → S a b)
    (target : Path) {xs ys : List LocatedUnit} (hlocated : List.Forall₂ (LocatedUnit.Like R) xs ys)
    {cs ds : List MirrorCopy} (hcopies : List.Forall₂ (MirrorCopy.Like R) cs ds) :
    List.Forall₂ (Rules.Rule.Like S)
      (xs.map (Survey.ruleFor target 0) ++ cs.map MirrorCopy.rule)
      (ys.map (Survey.ruleFor target 0) ++ ds.map MirrorCopy.rule) := by
  refine List.rel_append ?_ ?_
  · rw [List.forall₂_map_left_iff, List.forall₂_map_right_iff]
    refine hlocated.imp fun x y hxy => ⟨?_, rfl, hS _ _ hxy.source⟩
    rw [Survey.ruleFor, Survey.ruleFor, hxy.id]
  · rw [List.forall₂_map_left_iff, List.forall₂_map_right_iff]
    exact hcopies.imp fun c d hcd => ⟨hcd.target, rfl, hS _ _ hcd.source⟩

/-- Twin requests are planned alike. -/
theorem planCompile_twins (hnamed : w.Named) (hR : ∀ p q, R p q → SourceTwins w p q)
    {t t' : Toolchain} (ht : t.Twins w.cwdPath t') {o : CompileOptions}
    (hlibs : ∀ libs, o.libs = some libs → ∀ u ∈ libs, u.names ≠ [])
    {request request' : CompileRequest} (h : request.Twins w.cwdPath R request') {s s' : Session}
    (hs : s.world = w) (hs' : s'.world = w) :
    Meets (CompilePlan.Like R) ((planCompile t o request).runIn s).1
      ((planCompile t' o request').runIn s').1 := by
  have hroots := sourceRoots_twins hR h.sources
  have hR' : ∀ p q, R p q ∧ w.isDir p = true → SourceTwins w p q := fun p q hpq => hR p q hpq.1
  have hdir : ∀ p q, R p q ∧ w.isDir p = true → w.isDir p = true := fun p q hpq => hpq.2
  have hunits := fun u => @names_ne_nil_of_mem_chooseLibs w hnamed o hlibs request.sources u
  have hchosen := chooseLibs_twins hnamed hroots hR' hdir o
  rw [planCompile_result, planCompile_result]
  simp only [hs, hs', ← hchosen, ← ht.java]
  generalize CompilePlan.chooseLibs w o (sourceRoots w request.sources) = libs at hunits ⊢
  have hentries : List.Forall₂ (ClasspathEntry.Twins w.cwdPath)
      (CompilePlan.entries request (sourceRoots w request.sources) ++ t.runtime)
      (CompilePlan.entries request' (sourceRoots w request'.sources) ++ t'.runtime) := by
    refine List.rel_append (List.rel_append h.dependencies ?_) ht.runtime
    rw [List.forall₂_map_left_iff, List.forall₂_map_right_iff]
    exact hroots.imp fun p q hpq => .path (hR' p q hpq).absolute
  refine (absolutePath_meets h.target).bind fun target target' htarget => ?_
  rw [Toolchain.classpath, Toolchain.classpath, ← ht.repository, ← htarget]
  refine (resolve_meets t.repository hentries).bind fun classpath classpath' hclasspath => ?_
  rw [← hclasspath]
  refine (survey_meets hroots hR' hunits).bind fun _ _ hlocated => ?_
  refine (mirror_meets hnamed hroots hR' hdir libs target).bind fun _ _ hcopies => ?_
  have hsame : ∀ p q, R p q ∧ w.isDir p = true → R p q := fun p q hpq => hpq.1
  exact .ok ⟨rfl, rfl, rfl, rfl, hlocated.imp fun _ _ => .mono hsame,
    rules_like (fun _ _ => .mono hsame) target hlocated hcopies⟩

end

end ClojureBuild
