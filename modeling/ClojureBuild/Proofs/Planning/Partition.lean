import ClojureBuild.Proofs.Planning.Plan
import ClojureBuild.Proofs.Planning.SourceName
/-!
Planning as a partition of the sources.

When the names below the roots are texts without dots and hyphens, apart from the extension of a
file, a walk gets to every source file, and no requested one has too long a path, a plan holds one
rule for each source file at each root: it compiles the files whose units are requested and copies
the others.  Planning fails only when one relative path is found below two roots.
-/

namespace ClojureBuild

open World (FileBelow Walkable Opens Shown)

/-- The names are those of texts and, apart from the extension at the end, hold neither a dot nor a
hyphen. -/
def Canonical (names : List OsText) : Prop :=
  ∃ (dirs : List String) (stem : String),
    names = dirs.map Octets.ofText ++ [Octets.ofText stem ++ ".clj"] ∧
      ∀ name ∈ dirs ++ [stem], '.' ∉ name.toList ∧ '-' ∉ name.toList

/-- The rule for a source file below a root. -/
def SourceName.rule (n : SourceName) (libs : List UnitId) (target root : Path) (action : Nat) :
    Rules.Rule :=
  let file := root.descend n.file
  if (unitOf root file).any libs.contains then ⟨target.descend n.loader, file, .invoke action⟩
  else ⟨target.descend n.file, file, .copy⟩

/-- No relative path of a Clojure file is found below two positions of the roots. -/
def NoClash (w : World) (roots : List Path) : Prop :=
  roots.Pairwise fun root root' => ∀ names,
    ¬ (w.ClojureBelow root names ∧ w.ClojureBelow root' names)

/-- Planning is an exact partition of the source files. -/
structure Partition (w : World) (roots : List Path) (libs : List UnitId) (target : Path)
    (action : Nat) : Prop where
  succeeds_iff : PlanSucceeds w roots libs target ↔ NoClash w roots
  mem_iff : PlanSucceeds w roots libs target → ∀ rule,
    rule ∈ plannedRules w roots libs target action ↔
      ∃ root ∈ roots, ∃ n : SourceName, w.ClojureBelow root n.file ∧
        rule = n.rule libs target root action
  /-- A rule belongs to one file below one position of the roots. -/
  origin : PlanSucceeds w roots libs target → ∀ (i j : Fin roots.length) (n n' : SourceName),
    w.ClojureBelow roots[i] n.file → w.ClojureBelow roots[j] n'.file →
      n.rule libs target roots[i] action = n'.rule libs target roots[j] action → i = j ∧ n = n'
  targets : PlanSucceeds w roots libs target →
    (plannedRules w roots libs target action).Pairwise fun r r' => r.target.same r'.target = false

/-- A Clojure file with canonical names is one with plain names. -/
theorem exists_file_eq {root : Path} {names : List String} (hnames : ∀ n ∈ names, Path.IsName n)
    (hext : hasExtension UnitId.sourceExtension (root.descend names) = true)
    (hcanonical : Canonical names) : ∃ n : SourceName, n.file = names := by
  obtain ⟨dirs, stem, rfl, hplain⟩ := hcanonical
  have hlast := hnames (Octets.ofText stem ++ ".clj") (by simp)
  have hstem : Octets.ofText stem ≠ "" := by
    intro hempty
    rw [hasExtension, Path.descend_concat, Path.extension?_div _ hlast, String.toList_append,
      hempty] at hext
    exact absurd hext (by decide)
  have hslash : ∀ {name : String}, '/' ∉ (Octets.ofText name).toList → '/' ∉ name.toList :=
    fun h hin => h ((Octets.mem_ofText_iff (by decide)).2 hin)
  refine ⟨⟨dirs, stem, fun name hname => ?_⟩, rfl⟩
  obtain ⟨hdot, hhyphen⟩ := hplain name hname
  rcases List.mem_append.1 hname with hdir | hname
  · have hentry := hnames (Octets.ofText name) (List.mem_append_left _ (List.mem_map_of_mem hdir))
    refine ⟨?_, hslash hentry.noSlash, hdot, hhyphen⟩
    exact fun hempty => hentry.nonempty (by rw [Octets.toList_ofText, hempty, List.flatMap_nil])
  · obtain rfl := List.mem_singleton.1 hname
    have hin := hlast.noSlash
    rw [String.toList_append, List.mem_append, not_or] at hin
    refine ⟨?_, hslash hin.1, hdot, hhyphen⟩
    exact fun hempty => hstem (Octets.ofText_eq_empty_iff.2 (String.toList_eq_nil_iff.1 hempty))

theorem exists_sourceName {w : World} (htree : w.IsTree) {root : Path} {names : List String}
    (hbelow : w.ClojureBelow root names) (hcanonical : Canonical names) :
    ∃ n : SourceName, n.file = names :=
  exists_file_eq (fun name hname => (hbelow.1.names htree name hname).toIsName) hbelow.2 hcanonical

theorem clojureBelow_file_iff {w : World} {root : Path} (n : SourceName) :
    w.ClojureBelow root n.file ↔ w.FileBelow root n.file := by
  constructor
  · exact fun h => h.1
  · exact fun h => ⟨h, beq_iff_eq.2 (n.extension?_file root)⟩

theorem rule_of_mem {n : SourceName} {libs : List UnitId} (hmem : n.unit ∈ libs)
    (target root : Path) (action : Nat) :
    n.rule libs target root action =
      ⟨target.descend n.loader, root.descend n.file, .invoke action⟩ := by
  simp [SourceName.rule, n.unitOf_file root, hmem]

theorem rule_of_not_mem {n : SourceName} {libs : List UnitId} (hmem : n.unit ∉ libs)
    (target root : Path) (action : Nat) :
    n.rule libs target root action = ⟨target.descend n.file, root.descend n.file, .copy⟩ := by
  simp [SourceName.rule, n.unitOf_file root, hmem]

theorem SourceName.loader_ne_file (n n' : SourceName) : n.loader ≠ n'.file := by
  intro h
  have hlast := congrArg List.getLast? h
  simp only [loader, file, List.getLast?_concat, Option.some.injEq] at hlast
  have hchars := congrArg (fun name => name.toList.getLast?) hlast
  simp at hchars

theorem SourceName.loader_injective {n n' : SourceName} (h : n.loader = n'.loader) : n = n' := by
  obtain ⟨hfolders, hlast⟩ := List.append_inj' h rfl
  exact ext_octets hfolders (by simpa using hlast)

/-- What planning is told when all sources below the roots have plain names. -/
structure PlainSources (w : World) (roots : List Path) (libs : List UnitId) : Prop where
  free : w.LinkFree
  tree : w.IsTree
  walkable : ∀ root ∈ roots, Walkable root
  canonical : ∀ root ∈ roots, ∀ names, w.ClojureBelow root names → Canonical names
  opens : ∀ root ∈ roots, ∀ names, w.ClojureBelow root names → Opens root names
  named : ∀ u ∈ libs, ∃ n : SourceName, n.unit = u
  reach : ∀ root ∈ roots, ∀ n : SourceName, w.ClojureBelow root n.file → n.unit ∈ libs →
    (root.descend n.file).text.length < World.pathLimit

namespace PlainSources

variable {w : World} {roots : List Path} {libs : List UnitId} {target : Path}

/-- A requested unit has its source below a root exactly when the file lies there. -/
theorem isFile_sourceFile_iff (h : PlainSources w roots libs) {root : Path} (hroot : root ∈ roots)
    {n : SourceName} (hmem : n.unit ∈ libs) :
    w.isFile (n.unit.sourceFile root) = true ↔ w.ClojureBelow root n.file := by
  have hnonempty := (h.walkable root hroot).nonempty
  rw [n.sourceFile_unit root, World.isFile_descend_iff h.free h.tree hnonempty n.file_ne_nil
    n.file_isName, ← clojureBelow_file_iff n]
  constructor
  · exact fun hboth => hboth.1
  · exact fun hbelow => ⟨hbelow, h.reach root hroot n hbelow hmem⟩

/-! ### The copies -/

theorem mem_askedBelow_iff (h : PlainSources w roots libs) {root : Path} (hroot : root ∈ roots)
    {c : MirrorCopy} :
    c ∈ Mirror.askedBelow w libs target root ↔
      ∃ n : SourceName, w.ClojureBelow root n.file ∧ n.unit ∉ libs ∧
        c = ⟨n.unit, root.descend n.file, target.descend n.file⟩ := by
  rw [Mirror.mem_askedBelow_iff h.free h.tree (h.walkable root hroot)]
  constructor
  · rintro ⟨names, u, hbelow, -, hunit, hmem, rfl⟩
    obtain ⟨n, rfl⟩ := exists_sourceName h.tree hbelow (h.canonical root hroot names hbelow)
    rw [n.unitOf_file root] at hunit
    obtain rfl := Option.some.inj hunit
    exact ⟨n, hbelow, hmem, rfl⟩
  · rintro ⟨n, hbelow, hmem, rfl⟩
    exact ⟨n.file, n.unit, hbelow, h.opens root hroot _ hbelow, n.unitOf_file root, hmem, rfl⟩

theorem target_same_iff {target : Path} {n n' : SourceName} :
    (target.descend n.file).same (target.descend n'.file) = true ↔ n = n' := by
  rw [Path.descend_same_iff target n.file_isName n'.file_isName]
  exact ⟨SourceName.file_injective, fun heq => heq ▸ rfl⟩

/-- The mirroring succeeds when no file that is copied has its relative path below another root. -/
theorem duplicate_eq_none_iff (h : PlainSources w roots libs) :
    (Mirror.ofRoots w libs target roots).duplicate = none ↔
      roots.Pairwise fun root root' => ∀ n : SourceName, n.unit ∉ libs →
        ¬ (w.ClojureBelow root n.file ∧ w.ClojureBelow root' n.file) := by
  rw [Mirror.duplicate_eq_none_iff, List.pairwise_flatMap]
  have hwithin : ∀ root ∈ roots, (Mirror.askedBelow w libs target root).Pairwise Mirror.Apart :=
    fun root _ => Mirror.pairwise_askedBelow h.tree root
  rw [and_iff_right hwithin]
  refine List.Pairwise.iff_of_mem fun {root root'} hroot hroot' => ?_
  constructor
  · rintro hapart n hmem ⟨hbelow, hbelow'⟩
    have hc : _ ∈ Mirror.askedBelow w libs target root :=
      (h.mem_askedBelow_iff hroot).2 ⟨n, hbelow, hmem, rfl⟩
    have hc' : _ ∈ Mirror.askedBelow w libs target root' :=
      (h.mem_askedBelow_iff hroot').2 ⟨n, hbelow', hmem, rfl⟩
    have hsame := hapart _ hc _ hc'
    rw [Mirror.Apart, Bool.eq_false_iff] at hsame
    exact hsame (target_same_iff.2 rfl)
  · intro hclash c hc c' hc'
    obtain ⟨n, hbelow, hmem, rfl⟩ := (h.mem_askedBelow_iff hroot).1 hc
    obtain ⟨n', hbelow', -, rfl⟩ := (h.mem_askedBelow_iff hroot').1 hc'
    rw [Mirror.Apart, Bool.eq_false_iff, ne_eq, target_same_iff]
    rintro rfl
    exact hclash n hmem ⟨hbelow, hbelow'⟩

/-- The survey succeeds when no file that is compiled has its relative path below another root. -/
theorem failure_eq_none_iff (h : PlainSources w roots libs) :
    (Survey.ofUnits w roots libs).failure = none ↔
      roots.Pairwise fun root root' => ∀ n : SourceName, n.unit ∈ libs →
        ¬ (w.ClojureBelow root n.file ∧ w.ClojureBelow root' n.file) := by
  rw [Survey.failure_eq_none_iff]
  constructor
  · intro hone
    rw [List.pairwise_iff_getElem]
    intro i j hi hj hij n hmem hboth
    have hpair := (length_filter_le_one_iff _ roots).1 (hone n.unit hmem)
    have hnot := List.pairwise_iff_getElem.1 hpair i j hi hj hij
    rw [h.isFile_sourceFile_iff (List.getElem_mem hi) hmem,
      h.isFile_sourceFile_iff (List.getElem_mem hj) hmem] at hnot
    exact hnot hboth
  · intro hpair u hu
    obtain ⟨n, rfl⟩ := h.named u hu
    rw [holders, length_filter_le_one_iff]
    refine hpair.imp_of_mem fun {root root'} hroot hroot' hn => ?_
    rw [h.isFile_sourceFile_iff hroot hu, h.isFile_sourceFile_iff hroot' hu]
    exact hn n hu

/-- Planning succeeds exactly when no relative path is found below two roots. -/
theorem planSucceeds_iff_noClash (h : PlainSources w roots libs) :
    PlanSucceeds w roots libs target ↔ NoClash w roots := by
  rw [planSucceeds_iff, h.failure_eq_none_iff, h.duplicate_eq_none_iff]
  constructor
  · rintro ⟨hcompiled, hcopied⟩
    refine (hcompiled.and hcopied).imp_of_mem fun {root root'} hroot _ hboth names hclash => ?_
    obtain ⟨n, rfl⟩ := exists_sourceName h.tree hclash.1 (h.canonical root hroot names hclash.1)
    by_cases hmem : n.unit ∈ libs
    · exact hboth.1 n hmem hclash
    · exact hboth.2 n hmem hclash
  · intro hclash
    exact ⟨hclash.imp fun hn (n : SourceName) _ => hn n.file,
      hclash.imp fun hn (n : SourceName) _ => hn n.file⟩

/-! ### The rules -/

/-- The rules of a successful plan are those of the files below the roots. -/
theorem mem_plannedRules_iff (h : PlainSources w roots libs) {action : Nat}
    (hplan : PlanSucceeds w roots libs target) {rule : Rules.Rule} :
    rule ∈ plannedRules w roots libs target action ↔
      ∃ root ∈ roots, ∃ n : SourceName, w.ClojureBelow root n.file ∧
        rule = n.rule libs target root action := by
  rw [ClojureBuild.mem_plannedRules_iff h.free h.tree h.walkable hplan]
  constructor
  · rintro (⟨root, hroot, u, hu, hfile, rfl⟩ |
      ⟨root, hroot, names, u, hbelow, -, hunit, hmem, rfl⟩)
    · obtain ⟨n, rfl⟩ := h.named u hu
      refine ⟨root, hroot, n, (h.isFile_sourceFile_iff hroot hu).1 hfile, ?_⟩
      rw [rule_of_mem hu, n.initArtifact_unit, n.sourceFile_unit]
    · obtain ⟨n, rfl⟩ := exists_sourceName h.tree hbelow (h.canonical root hroot names hbelow)
      rw [n.unitOf_file root] at hunit
      obtain rfl := Option.some.inj hunit
      exact ⟨root, hroot, n, hbelow, (rule_of_not_mem hmem target root action).symm⟩
  · rintro ⟨root, hroot, n, hbelow, rfl⟩
    by_cases hmem : n.unit ∈ libs
    · refine Or.inl ⟨root, hroot, n.unit, hmem, (h.isFile_sourceFile_iff hroot hmem).2 hbelow, ?_⟩
      rw [rule_of_mem hmem, n.initArtifact_unit, n.sourceFile_unit]
    · exact Or.inr ⟨root, hroot, n.file, n.unit, hbelow, h.opens root hroot _ hbelow,
        n.unitOf_file root, hmem, rule_of_not_mem hmem target root action⟩

/-- The rule of a file below a root tells the file. -/
theorem eq_of_rule_eq {n n' : SourceName} {root root' : Path} {action : Nat}
    (heq : n.rule libs target root action = n'.rule libs target root' action) : n = n' := by
  by_cases hmem : n.unit ∈ libs
  · by_cases hmem' : n'.unit ∈ libs
    · rw [rule_of_mem hmem, rule_of_mem hmem', Rules.Rule.mk.injEq] at heq
      have hsame : (target.descend n.loader).same (target.descend n'.loader) = true := by
        rw [heq.1]
        exact beq_self_eq_true _
      exact SourceName.loader_injective
        ((Path.descend_same_iff target n.loader_isName n'.loader_isName).1 hsame)
    · rw [rule_of_mem hmem, rule_of_not_mem hmem', Rules.Rule.mk.injEq] at heq
      exact absurd heq.2.2 (by simp)
  · by_cases hmem' : n'.unit ∈ libs
    · rw [rule_of_not_mem hmem, rule_of_mem hmem', Rules.Rule.mk.injEq] at heq
      exact absurd heq.2.2 (by simp)
    · rw [rule_of_not_mem hmem, rule_of_not_mem hmem', Rules.Rule.mk.injEq] at heq
      refine target_same_iff.1 (?_ : (target.descend n.file).same (target.descend n'.file) = true)
      rw [heq.1]
      exact beq_self_eq_true _

/-- The rules of a successful plan make different targets. -/
theorem pairwise_targets (h : PlainSources w roots libs) (hlibs : libs.Nodup) {action : Nat}
    (hplan : PlanSucceeds w roots libs target) :
    (plannedRules w roots libs target action).Pairwise fun r r' =>
      r.target.same r'.target = false := by
  obtain ⟨hsurvey, hmirror⟩ := planSucceeds_iff.1 hplan
  rw [plannedRules, List.pairwise_append]
  refine ⟨?_, ?_, ?_⟩
  · rw [Survey.rules, List.pairwise_map, Survey.located_eq hsurvey, List.pairwise_filterMap]
    refine hlibs.imp_of_mem fun {u u'} hu hu' hne x hx x' hx' => ?_
    obtain ⟨root, -, rfl⟩ := Option.map_eq_some_iff.1 hx
    obtain ⟨root', -, rfl⟩ := Option.map_eq_some_iff.1 hx'
    obtain ⟨n, rfl⟩ := h.named u hu
    obtain ⟨n', rfl⟩ := h.named u' hu'
    rw [Bool.eq_false_iff, Survey.ruleFor_at, Survey.ruleFor_at, n.initArtifact_unit,
      n'.initArtifact_unit, ne_eq,
      Path.descend_same_iff target n.loader_isName n'.loader_isName]
    intro hloader
    exact hne (congrArg SourceName.unit (SourceName.loader_injective hloader))
  · rw [Mirror.rules, List.pairwise_map, Mirror.copies_eq hmirror]
    exact Mirror.duplicate_eq_none_iff.1 hmirror
  · intro r hr r' hr'
    obtain ⟨found, hfound, rfl⟩ := List.mem_map.1 hr
    obtain ⟨c, hc, rfl⟩ := List.mem_map.1 hr'
    obtain ⟨u, hu, root, hroot, -, rfl⟩ := (Survey.mem_located_iff hsurvey).1 hfound
    obtain ⟨n, rfl⟩ := h.named u hu
    rw [Mirror.copies_eq hmirror] at hc
    obtain ⟨root', hroot', hasked⟩ := List.mem_flatMap.1 hc
    obtain ⟨n', -, -, rfl⟩ := (h.mem_askedBelow_iff hroot').1 hasked
    rw [Bool.eq_false_iff, Survey.ruleFor_at, n.initArtifact_unit, ne_eq,
      Path.descend_same_iff target n.loader_isName n'.file_isName]
    exact SourceName.loader_ne_file n n'

/-- A rule belongs to one file below one position of the roots. -/
theorem origin_unique (h : PlainSources w roots libs) {action : Nat}
    (hplan : PlanSucceeds w roots libs target) (i j : Fin roots.length) (n n' : SourceName)
    (hbelow : w.ClojureBelow roots[i] n.file) (hbelow' : w.ClojureBelow roots[j] n'.file)
    (heq : n.rule libs target roots[i] action = n'.rule libs target roots[j] action) :
    i = j ∧ n = n' := by
  obtain rfl := eq_of_rule_eq heq
  have hclash := List.pairwise_iff_getElem.1 (h.planSucceeds_iff_noClash.1 hplan)
  refine ⟨?_, rfl⟩
  rcases Nat.lt_trichotomy i j with hlt | hij | hgt
  · exact absurd ⟨hbelow, hbelow'⟩ (hclash i j i.isLt j.isLt hlt n.file)
  · exact Fin.ext hij
  · exact absurd ⟨hbelow', hbelow⟩ (hclash j i j.isLt i.isLt hgt n.file)

theorem partition (h : PlainSources w roots libs) (hlibs : NoClash w roots → libs.Nodup)
    (action : Nat) : Partition w roots libs target action where
  succeeds_iff := h.planSucceeds_iff_noClash
  mem_iff hplan _ := h.mem_plannedRules_iff hplan
  origin hplan i j n n' hbelow hbelow' heq := h.origin_unique hplan i j n n' hbelow hbelow' heq
  targets hplan := h.pairwise_targets (hlibs (h.planSucceeds_iff_noClash.1 hplan)) hplan

end PlainSources

/-! ### The discovered units -/

theorem discover_eq (w : World) (root : Path) :
    discover w root = (w.filesUnder false root).filterMap (unitOf root) := by
  rw [discover, explore, World.filesUnder, List.filterMap_filterMap, List.filterMap_filterMap]
  refine congrArg (List.filterMap · _) (funext fun sighting => ?_)
  cases sighting with
  | file p =>
      cases hunit : unitOf root p with
      | none =>
          cases hext : hasExtension UnitId.sourceExtension p <;>
            simp [Discovery.ofSighting, Sighting.file?, hext, hunit, Discovery.unit?]
      | some unit =>
          have hext := hasExtension_of_unitOf hunit
          simp [Discovery.ofSighting, Sighting.file?, hext, hunit, Discovery.unit?]
  | begun cwd => rfl
  | hidden p => rfl
  | unreadable p cause => rfl
  | loop p ancestor => rfl

section Discovered

variable {w : World} {roots : List Path}

/-- A discovered unit is that of a file with plain names below its root. -/
theorem exists_of_mem_discover (hfree : w.LinkFree) (htree : w.IsTree) {root : Path}
    (hwalk : Walkable root)
    (hcanonical : ∀ names, w.ClojureBelow root names → Canonical names) {u : UnitId}
    (hu : u ∈ discover w root) :
    ∃ n : SourceName, w.ClojureBelow root n.file ∧ n.unit = u := by
  rw [discover_eq] at hu
  obtain ⟨p, hp, hunit⟩ := List.mem_filterMap.1 hu
  obtain ⟨names, hbelow, -, rfl⟩ := exists_of_unitOf hfree htree hwalk hp hunit
  obtain ⟨n, rfl⟩ := exists_sourceName htree hbelow (hcanonical names hbelow)
  rw [n.unitOf_file root] at hunit
  exact ⟨n, hbelow, Option.some.inj hunit⟩

/-- Without a clash no unit is discovered twice. -/
theorem nodup_discoverAll (hfree : w.LinkFree) (htree : w.IsTree)
    (hwalk : ∀ root ∈ roots, Walkable root)
    (hcanonical : ∀ root ∈ roots, ∀ names, w.ClojureBelow root names → Canonical names)
    (hclash : NoClash w roots) : (discoverAll w roots).Nodup := by
  rw [discoverAll, List.nodup_flatMap]
  constructor
  · intro root hroot
    rw [discover_eq, List.Nodup, List.pairwise_filterMap]
    have hnodup := World.nodup_filesUnder htree false root
    refine hnodup.imp_of_mem fun {p p'} hp hp' hne u hu u' hu' => ?_
    obtain ⟨names, hbelow, -, rfl⟩ := exists_of_unitOf hfree htree (hwalk root hroot) hp hu
    obtain ⟨names', hbelow', -, rfl⟩ := exists_of_unitOf hfree htree (hwalk root hroot) hp' hu'
    obtain ⟨n, rfl⟩ := exists_sourceName htree hbelow (hcanonical root hroot names hbelow)
    obtain ⟨n', rfl⟩ := exists_sourceName htree hbelow' (hcanonical root hroot names' hbelow')
    rw [n.unitOf_file root] at hu
    rw [n'.unitOf_file root] at hu'
    rintro rfl
    have hsame := SourceName.unit_injective ((Option.some.inj hu).trans (Option.some.inj hu').symm)
    exact hne (hsame ▸ rfl)
  · refine hclash.imp_of_mem fun {root root'} hroot hroot' hn u hu hu' => ?_
    obtain ⟨n, hbelow, rfl⟩ :=
      exists_of_mem_discover hfree htree (hwalk root hroot) (hcanonical root hroot) hu
    obtain ⟨n', hbelow', hsame⟩ :=
      exists_of_mem_discover hfree htree (hwalk root' hroot') (hcanonical root' hroot') hu'
    rw [SourceName.unit_injective hsame] at hbelow'
    exact hn n.file ⟨hbelow, hbelow'⟩

end Discovered

/-- On canonical names planning is an exact partition of the source files, as long as a walk gets to
all of them and the system takes the paths of those whose units are requested.  A request without a
list asks for all units that a search discovers. -/
theorem partition_of_canonical {w : World} (hfree : w.LinkFree) (htree : w.IsTree)
    {roots : List Path} (hwalk : ∀ root ∈ roots, Walkable root)
    (hcanonical : ∀ root ∈ roots, ∀ names, w.ClojureBelow root names → Canonical names)
    (hopens : ∀ root ∈ roots, ∀ names, w.ClojureBelow root names → Opens root names)
    {requested : Option (List UnitId)}
    (hrequested : ∀ given, requested = some given → given.Nodup ∧ ∀ u ∈ given,
      (∃ text, UnitId.parse text = .ok u) ∧ '_' ∉ u.text.toList)
    (hreach : ∀ root ∈ roots, ∀ names, w.ClojureBelow root names →
      (unitOf root (root.descend names)).any (requested.getD (discoverAll w roots)).contains →
        (root.descend names).text.length < World.pathLimit)
    (target : Path) (action : Nat) :
    Partition w roots (requested.getD (discoverAll w roots)) target action := by
  have hreach' : ∀ root ∈ roots, ∀ n : SourceName, w.ClojureBelow root n.file →
      n.unit ∈ requested.getD (discoverAll w roots) →
        (root.descend n.file).text.length < World.pathLimit := by
    intro root hroot n hbelow hmem
    apply hreach root hroot n.file hbelow
    simp [n.unitOf_file root, hmem]
  cases requested with
  | none =>
      refine PlainSources.partition ⟨hfree, htree, hwalk, hcanonical, hopens, ?_, hreach'⟩ ?_ action
      · intro u hu
        obtain ⟨root, hroot, hfound⟩ := List.mem_flatMap.1 hu
        obtain ⟨n, -, hunit⟩ := exists_of_mem_discover hfree htree (hwalk root hroot)
          (hcanonical root hroot) hfound
        exact ⟨n, hunit⟩
      · exact nodup_discoverAll hfree htree hwalk hcanonical
  | some given =>
      obtain ⟨hnodup, hparsed⟩ := hrequested given rfl
      refine PlainSources.partition ⟨hfree, htree, hwalk, hcanonical, hopens, ?_, hreach'⟩
        (fun _ => hnodup) action
      intro u hu
      obtain ⟨⟨text, htext⟩, hunder⟩ := hparsed u hu
      exact SourceName.exists_of_parse htext hunder

/-- Two roots, one within the other. -/
def nestedWorld : World where
  nodes := [(["src"], .dir 0), (["foo", "src"], .dir 0),
    (["a_b.clj", "foo", "src"], .file ByteArray.empty 0 false),
    (["c.clj", "src"], .file ByteArray.empty 0 false)]
  cwd := []
  clock := 1

/-- A file below both roots, requested under one of its units. -/
theorem partition_of_canonical_nested :
    Partition nestedWorld [⟨"src"⟩, ⟨"src/foo"⟩] [⟨"foo.a-b"⟩] ⟨"out"⟩ 0 := by
  have hsrc : nestedWorld.clojureNames ⟨"src"⟩ = [["foo", "a_b.clj"], ["c.clj"]] := by decide
  have hfoo : nestedWorld.clojureNames ⟨"src/foo"⟩ = [["a_b.clj"]] := by decide
  have hcanonical : ∀ root ∈ [(⟨"src"⟩ : Path), ⟨"src/foo"⟩], ∀ names,
      nestedWorld.ClojureBelow root names → Canonical names := by
    intro root hroot names hbelow
    have hnames := hbelow.mem_clojureNames
    simp only [List.mem_cons, List.not_mem_nil, or_false] at hroot
    rcases hroot with rfl | rfl
    · simp only [hsrc, List.mem_cons, List.not_mem_nil, or_false] at hnames
      rcases hnames with rfl | rfl
      · exact ⟨["foo"], "a_b", rfl, by decide⟩
      · exact ⟨[], "c", rfl, by decide⟩
    · obtain rfl := List.mem_singleton.1 (hfoo ▸ hnames)
      exact ⟨[], "a_b", rfl, by decide⟩
  have hrequested : ∀ given, some [(⟨"foo.a-b"⟩ : UnitId)] = some given → given.Nodup ∧
      ∀ u ∈ given, (∃ text, UnitId.parse text = .ok u) ∧ '_' ∉ u.text.toList := by
    rintro given ⟨rfl⟩
    refine ⟨by decide, fun u hu => ?_⟩
    obtain rfl := List.mem_singleton.1 hu
    exact ⟨⟨"foo.a-b", rfl⟩, by decide⟩
  have hshort : ∀ root ∈ [(⟨"src"⟩ : Path), ⟨"src/foo"⟩], ∀ names ∈ nestedWorld.clojureNames root,
      Opens root names ∧ (root.descend names).text.length < World.pathLimit := by
    decide +kernel
  exact partition_of_canonical (by decide +kernel) (by decide +kernel) (by decide +kernel)
    hcanonical (fun root hroot names hbelow => (hshort root hroot names hbelow.mem_clojureNames).1)
    hrequested
    (fun root hroot names hbelow _ => (hshort root hroot names hbelow.mem_clojureNames).2) ⟨"out"⟩ 0

/-! ### A root with a long path -/

/-- The text of a directory behind some turns on the spot. -/
def dotted (n : Nat) : List Char := (List.replicate n ['.', '/']).flatten ++ ['s', 'r', 'c']

theorem dotted_succ (n : Nat) : dotted (n + 1) = '.' :: '/' :: dotted n := by
  simp [dotted, List.replicate_succ]

theorem splitOn_dotted (n : Nat) :
    Text.splitOn '/' (dotted n) = List.replicate n ['.'] ++ [['s', 'r', 'c']] := by
  induction n with
  | zero => decide
  | succ n ih => simp [dotted_succ, Text.splitOn, ih, List.replicate_succ]

theorem stepsOf_dotted (n : Nat) :
    World.stepsOf (String.ofList (dotted n)) = List.replicate n .stay ++ [.down "src"] := by
  have hlast : (dotted n).getLast? ≠ some '/' := by simp [dotted, List.getLast?_append]
  have hsteps : ((List.replicate n ['.']).map String.ofList).filterMap World.stepOfPiece =
      List.replicate n .stay := by
    rw [List.map_replicate, List.filterMap_replicate_of_some]
    rfl
  rw [World.stepsOf, Text.splitString, String.toList_ofList, if_neg hlast, splitOn_dotted,
    List.map_append, List.filterMap_append, hsteps]
  rfl

theorem length_dotted (n : Nat) : (String.ofList (dotted n)).length = 2 * n + 3 := by
  induction n with
  | zero => decide
  | succ n ih =>
      have htext : String.ofList (dotted (n + 1)) = "./" ++ String.ofList (dotted n) := by
        rw [dotted_succ, ← String.toList_inj]
        simp
      have hturn : "./".length = 2 := by decide
      rw [htext, String.length_append, ih, hturn]
      omega

theorem mem_dotted {n : Nat} {c : Char} (h : c ∈ dotted n) :
    c ∈ ['.', '/', 's', 'r', 'c'] := by
  induction n with
  | zero =>
      have hsrc : c ∈ ['s', 'r', 'c'] := h
      simp only [List.mem_cons, List.not_mem_nil, or_false] at hsrc ⊢
      tauto
  | succ n ih =>
      rw [dotted_succ] at h
      rcases List.mem_cons.1 h with rfl | h
      · decide
      · rcases List.mem_cons.1 h with rfl | h
        · decide
        · exact ih h

/-- A tree with one source file. -/
def plainWorld : World where
  nodes := [(["src"], .dir 0), (["a.clj", "src"], .file ByteArray.empty 0 false)]
  cwd := []
  clock := 1

/-- A root that the system takes, though not the file below it. -/
def longRoot : Path := ⟨String.ofList (dotted 2045)⟩

theorem walkable_longRoot : Walkable longRoot := by
  have hhead : longRoot.head = .here := by
    rw [Path.head, longRoot, String.toList_ofList, dotted_succ]
    rfl
  have hother : (⟨"-"⟩ : Path).components = [.name "-"] := by decide
  refine ⟨?_, ?_⟩
  · intro hempty
    have hsize := length_dotted 2045
    change String.ofList (dotted 2045) = "" at hempty
    rw [hempty] at hsize
    exact absurd hsize (by decide)
  · rw [Path.same, Path.components_eq, hhead, hother]
    rfl

/-- The system takes the path of the root. -/
theorem stat_longRoot {w : World} (hcwd : w.cwd = []) {t : Int}
    (hsrc : w.node? ["src"] = some (.dir t)) : w.stat longRoot = .ok (["src"], .dir t) := by
  have hask : World.Askable longRoot := by
    refine ⟨walkable_longRoot.nonempty, ?_, ?_⟩
    · intro hnul
      rw [longRoot, String.toList_ofList] at hnul
      exact absurd (mem_dotted hnul) (by decide)
    · rw [longRoot, length_dotted]
      decide
  have hrelative : longRoot.isAbsolute = false := by
    rw [Path.isAbsolute, longRoot, String.toList_ofList, dotted_succ]
    rfl
  have hstays : ∀ (n : Nat) (rest : List PathStep),
      w.traverse true (w.resolveFrom true (World.linkLimit - 1)) []
        (List.replicate n .stay ++ rest) =
      w.traverse true (w.resolveFrom true (World.linkLimit - 1)) [] rest := by
    intro n rest
    induction n with
    | zero => rfl
    | succ n ih =>
        rw [List.replicate_succ, List.cons_append, World.traverse]
        exact ih
  have hlast : w.traverse true (w.resolveFrom true (World.linkLimit - 1)) [] [.down "src"] =
      .ok (.taken ["src"]) := by
    rw [World.traverse, if_neg (by decide), hsrc]
    rfl
  refine World.stat_eq_ok.2 ⟨World.resolve_eq_ok.2 ⟨hask, ?_⟩, hsrc⟩
  rw [hrelative, longRoot, stepsOf_dotted, if_neg Bool.false_ne_true, hcwd]
  exact (hstays 2045 _).trans hlast

/-- The file below the root. -/
def plainSource : SourceName where
  dirs := []
  stem := "a"
  plain := by
    intro name hname
    obtain rfl := List.mem_singleton.1 hname
    exact ⟨by decide, by decide, by decide, by decide⟩

theorem clojureBelow_longRoot_iff (names : List String) :
    plainWorld.ClojureBelow longRoot names ↔ names = plainSource.file := by
  constructor
  · intro hbelow
    have hmem := hbelow.1.mem_entriesBelow (stat_longRoot rfl rfl)
    have hentries : (plainWorld.entriesBelow ["src"]).map Prod.fst = [[], ["a.clj"]] := by decide
    rw [hentries] at hmem
    simp only [List.mem_cons, List.not_mem_nil, or_false, List.reverse_eq_iff] at hmem
    rcases hmem with rfl | rfl
    · exact absurd rfl hbelow.1.1
    · rfl
  · rintro rfl
    exact (clojureBelow_file_iff plainSource).2
      ⟨plainSource.file_ne_nil, ["src"], 0, stat_longRoot rfl rfl, rfl⟩

theorem not_short_longRoot :
    ¬ (longRoot.descend plainSource.file).text.length < World.pathLimit := by
  have htext := World.text_div_append longRoot (plainSource.file_isName "a.clj" (by decide))
  have hroot : longRoot.text.length = 4093 := length_dotted 2045
  have hfile : "a.clj".length = 5 := by decide
  have hsize : longRoot.text.length + 5 ≤ (longRoot / "a.clj").text.length := by
    rw [htext, String.length_append, String.length_append, hfile]
    omega
  change ¬ (longRoot / "a.clj").text.length < 4096
  omega

theorem isFile_longRoot : plainWorld.isFile (longRoot.descend plainSource.file) = false := by
  rw [Bool.eq_false_iff, ne_eq, World.isFile_descend_iff (by decide +kernel) (by decide +kernel)
    walkable_longRoot.nonempty plainSource.file_ne_nil plainSource.file_isName]
  exact fun hboth => not_short_longRoot hboth.2

theorem opens_longRoot : Opens longRoot plainSource.file := by
  have hroot : longRoot.text.length = 4093 := length_dotted 2045
  change longRoot.text.length < 4096
  omega

/-- Behind a long root a requested file is found by the walk, but the system does not take its path,
so it is neither compiled nor copied. -/
theorem not_partition_longRoot : ¬ Partition plainWorld [longRoot] [⟨"a"⟩] ⟨"out"⟩ 0 := by
  intro hlaw
  have hunit : plainSource.unit = ⟨"a"⟩ := by decide
  have hsucceeds := hlaw.succeeds_iff.2 (List.pairwise_singleton _ _)
  have hrule := (hlaw.mem_iff hsucceeds _).2 ⟨longRoot, List.mem_singleton_self _, plainSource,
    (clojureBelow_longRoot_iff _).2 rfl, rfl⟩
  rw [rule_of_mem (by rw [hunit]; exact List.mem_singleton_self _), plannedRules,
    List.mem_append] at hrule
  rcases hrule with hcompile | hcopy
  · obtain ⟨found, hfound, -⟩ := List.mem_map.1 hcompile
    obtain ⟨u, hu, root, hroot, hfile, -⟩ :=
      (Survey.mem_located_iff (planSucceeds_iff.1 hsucceeds).1).1 hfound
    obtain rfl := List.mem_singleton.1 hroot
    have hsame : u = plainSource.unit := (List.mem_singleton.1 hu).trans hunit.symm
    rw [hsame, plainSource.sourceFile_unit, isFile_longRoot] at hfile
    exact absurd hfile Bool.false_ne_true
  · obtain ⟨c, -, hc⟩ := List.mem_map.1 hcopy
    exact absurd (congrArg Rules.Rule.action hc) (by simp)

/-- A tree with one source file, whose name is no text. -/
def octetWorld : World where
  nodes := [(["src"], .dir 0), (["\xff.clj", "src"], .file ByteArray.empty 0 false)]
  cwd := []
  clock := 1

theorem clojureBelow_octetWorld_iff (names : List OsText) :
    octetWorld.ClojureBelow ⟨"src"⟩ names ↔ names = ["\xff" ++ ".clj"] := by
  constructor
  · intro hbelow
    have hnames : octetWorld.clojureNames ⟨"src"⟩ = [["\xff.clj"]] := by decide
    exact List.mem_singleton.1 (hnames ▸ hbelow.mem_clojureNames)
  · rintro rfl
    exact ⟨⟨List.cons_ne_nil _ _, ["src"], 0, rfl, by decide +kernel⟩, by decide +kernel⟩

/-- A file whose name is no text shows no unit, so planning passes it over and succeeds without a
rule for it. -/
theorem plannedRules_octetWorld :
    PlanSucceeds octetWorld [⟨"src"⟩] [] ⟨"out"⟩ ∧
      ∀ action, plannedRules octetWorld [⟨"src"⟩] [] ⟨"out"⟩ action = [] := by
  have hcopies : (Mirror.ofRoots octetWorld [] ⟨"out"⟩ [⟨"src"⟩]).copies = [] := by
    decide +kernel
  refine ⟨planSucceeds_iff.2 ⟨rfl, by decide +kernel⟩, fun action => ?_⟩
  rw [plannedRules, Mirror.rules, hcopies]
  rfl

/-- Both conditions are needed: without the bound on paths the law fails behind a long root, and
without the condition that names are texts a file may get no rule. -/
theorem not_partition :
    (¬ ∀ (w : World) (roots : List Path) (requested : Option (List UnitId)) (target : Path)
      (action : Nat), w.LinkFree → w.IsTree → (∀ root ∈ roots, Walkable root) →
      (∀ root ∈ roots, ∀ names, w.ClojureBelow root names → Canonical names) →
      (∀ root ∈ roots, ∀ names, w.ClojureBelow root names → Opens root names) →
      (∀ given, requested = some given → given.Nodup ∧ ∀ u ∈ given,
        (∃ text, UnitId.parse text = .ok u) ∧ '_' ∉ u.text.toList) →
      Partition w roots (requested.getD (discoverAll w roots)) target action) ∧
    (octetWorld.LinkFree ∧ octetWorld.IsTree ∧ Walkable ⟨"src"⟩ ∧
      (∀ names, octetWorld.ClojureBelow ⟨"src"⟩ names ↔ names = ["\xff" ++ ".clj"]) ∧
      ('.' ∉ "\xff".toList ∧ '-' ∉ "\xff".toList) ∧
      PlanSucceeds octetWorld [⟨"src"⟩] [] ⟨"out"⟩ ∧
      ∀ action, plannedRules octetWorld [⟨"src"⟩] [] ⟨"out"⟩ action = []) := by
  refine ⟨fun hclaim => not_partition_longRoot ?_, by decide +kernel, by decide +kernel,
    by decide +kernel, clojureBelow_octetWorld_iff, by decide, plannedRules_octetWorld⟩
  have hsole : ∀ {root names}, root ∈ [longRoot] → plainWorld.ClojureBelow root names →
      root = longRoot ∧ names = plainSource.file := by
    intro root names hroot hbelow
    obtain rfl := List.mem_singleton.1 hroot
    exact ⟨rfl, (clojureBelow_longRoot_iff names).1 hbelow⟩
  refine hclaim plainWorld [longRoot] (some [⟨"a"⟩]) ⟨"out"⟩ 0 (by decide +kernel)
    (by decide +kernel) ?walkable ?canonical ?opens ?requested
  case walkable =>
    intro root hroot
    exact List.mem_singleton.1 hroot ▸ walkable_longRoot
  case canonical =>
    intro root hroot names hbelow
    exact ⟨[], "a", (hsole hroot hbelow).2, by decide⟩
  case opens =>
    intro root hroot names hbelow
    obtain ⟨rfl, rfl⟩ := hsole hroot hbelow
    exact opens_longRoot
  case requested =>
    rintro given ⟨rfl⟩
    refine ⟨by decide, fun u hu => ?_⟩
    obtain rfl := List.mem_singleton.1 hu
    exact ⟨⟨"a", rfl⟩, by decide⟩

end ClojureBuild
