import ClojureBuild.Proofs.Cli.NewProject
import ClojureBuild.Proofs.Planning.Partition
import ClojureBuild.Proofs.World.Entering
/-!
A new project is found as it was written.

The name of a project becomes an identifier, the identifier a path, and the path is read back as the
search for units meets it.  Main statement: where no sources were before, each of the two roots
holds exactly the unit that was written there, which is located at its file; and the file declares
that unit exactly when a reader of Clojure takes the identifier for one symbol.
-/

namespace ClojureBuild

/-! ### What a source declares -/

/-- How a reader of Clojure tells symbols: the characters that end one, and the texts that are
symbols. -/
structure SymbolReader where
  ends : Char → Bool
  isSymbol : String → Bool
  ends_paren : ends ')' = true
  ends_newline : ends '\n' = true

namespace SymbolReader

variable (r : SymbolReader)

/-- The namespace that a source declares in the form at its beginning. -/
def declared? (source : String) : Option String :=
  match source.toList with
  | '(' :: 'n' :: 's' :: ' ' :: rest =>
      let text := String.ofList (rest.takeWhile fun c => !r.ends c)
      if r.isSymbol text then some text else none
  | _ => none

/-- A text is read as one symbol, to its end. -/
def Reads (text : String) : Prop :=
  (∀ c ∈ text.toList, r.ends c = false) ∧ r.isSymbol text = true

/-- A text in front of what ends a symbol is declared exactly if it is read as one. -/
theorem declared?_eq_some_iff {source text : String} {c : Char} {tail : List Char}
    (hc : r.ends c = true) (hsource : source.toList = "(ns ".toList ++ (text.toList ++ c :: tail)) :
    r.declared? source = some text ↔ r.Reads text := by
  have hdeclared : r.declared? source =
      let front := String.ofList ((text.toList ++ c :: tail).takeWhile fun c => !r.ends c)
      if r.isSymbol front then some front else none := by
    rw [declared?, hsource]
    rfl
  rw [hdeclared]
  constructor
  · intro h
    obtain ⟨hsymbol, hfront⟩ := Option.ite_none_right_eq_some.1 h
    have hsame := Option.some.inj hfront
    refine ⟨fun d hd => ?_, hsame ▸ hsymbol⟩
    rw [← hsame, String.toList_ofList] at hd
    simpa using List.mem_takeWhile_imp hd
  · rintro ⟨hinside, hsymbol⟩
    have hfront : (text.toList ++ c :: tail).takeWhile (fun c => !r.ends c) = text.toList := by
      rw [List.takeWhile_append_of_pos fun d hd => by simp [hinside d hd],
        List.takeWhile_cons_of_neg (by simp [hc]), List.append_nil]
    simp only [hfront, String.ofList_toList, hsymbol, ↓reduceIte]

/-- A reader that tells symbols as Clojure does: they end at white space and delimiters, and begin
like no number, keyword or form of the reader. -/
def plain : SymbolReader where
  ends c := c.isWhitespace || ",\x22;@^~()[]\x7b\x7d\x60\\".toList.contains c
  isSymbol text :=
    match text.toList with
    | [] => false
    | [c] => !c.isDigit && !"#':".toList.contains c
    | c :: next :: _ =>
        !c.isDigit && !"#':".toList.contains c && !("+-".toList.contains c && next.isDigit)
  ends_paren := by decide
  ends_newline := by decide

end SymbolReader

/-! ### One source below a root -/

section

variable {w : World} {p : Path} {loc : Location} {front : List String}

theorem SourceName.shown (n : SourceName) (all : Bool) : World.Shown all n.file := by
  refine Or.inr fun name hname => beq_eq_false_iff_ne.2 fun hhead => ?_
  rcases List.mem_append.1 hname with hdir | hlast
  · exact (n.plain_octets name (List.mem_append_left _ hdir)).noDot (List.mem_of_head? hhead)
  · obtain rfl := List.mem_singleton.1 hlast
    rw [String.toList_append, List.head?_append_of_ne_nil _ n.plain_base.nonempty] at hhead
    exact n.plain_base.noDot (List.mem_of_head? hhead)

theorem walkable_descend (p : Path) (hfront : 1 < front.length)
    (hnames : ∀ name ∈ front, Path.IsName name) : World.Walkable (p.descend front) := by
  refine ⟨World.text_descend_ne p (List.length_pos_iff.1 (by omega)) hnames, ?_⟩
  refine beq_eq_false_iff_ne.2 fun hsame => ?_
  have hdash : (⟨"-"⟩ : Path).components.length = 1 := by decide
  rw [← hsame, Path.components_descend p hnames, List.length_append, List.length_map] at hdash
  omega

/-- If one source alone is below a root, its unit is discovered there and no other. -/
theorem discover_of_sole {n : SourceName} {spot : Spot}
    (henters : w.Enters p loc) (hfront : 1 < front.length)
    (hnames : ∀ name ∈ front, Path.IsName name)
    (hclear : ∀ names, names ≠ [] → names <+: front ∨ front <+: names → ∀ link : String,
      w.node? (names.reverse ++ loc) ≠ some (.link link))
    (hresolve : w.resolve true (p.descend (front ++ n.file)) = .ok spot)
    (hfile : (w.node? ((front ++ n.file).reverse ++ loc)).any Node.isFile = true)
    (hsole : ∀ way, (w.node? ((front ++ way).reverse ++ loc)).any Node.isFile = true →
      hasExtension UnitId.sourceExtension (p.descend (front ++ way)) = true → way = n.file) :
    discover w (p.descend front) = [n.unit] := by
  have hne : front ≠ [] := List.length_pos_iff.1 (by omega)
  have hall : ∀ name ∈ front ++ n.file, Path.IsName name := fun name hname =>
    (List.mem_append.1 hname).elim (hnames name) (n.file_isName name)
  have hdown : w.ClearDown loc (front ++ n.file) := fun way hway hsome =>
    hclear way hsome (List.prefix_or_prefix_of_prefix hway (List.prefix_append _ _))
  have hdirs : ∀ way, way <+: n.file → way ≠ n.file →
      ∃ t, w.stat (p.descend (front ++ way)) = .ok ((front ++ way).reverse ++ loc, .dir t) :=
    fun _ => henters.stat_between hne hall hdown hresolve
  obtain ⟨t, hroot⟩ := hdirs [] List.nil_prefix n.file_ne_nil.symm
  rw [List.append_nil] at hroot
  have hplace : ∀ way : List String, (front ++ way).reverse ++ loc =
      way.reverse ++ (front.reverse ++ loc) := fun way => by simp
  have hkind : hasExtension UnitId.sourceExtension ((p.descend front).descend n.file) = true :=
    beq_iff_eq.2 (n.extension?_file _)
  have hfiles : (w.filesUnder false (p.descend front)).filter
      (hasExtension UnitId.sourceExtension) = [(p.descend front).descend n.file] := by
    rw [World.filesUnder_eq (walkable_descend p hfront hnames), hroot]
    refine World.filter_shownBelow n.file_ne_nil (fun way link => ?_) (fun way hway hext => ?_) ?_
      (fun way hway hnot => ?_) hkind (n.shown false)
    · have hlink := hclear (front ++ way.reverse) (by simp [hne]) (Or.inr (List.prefix_append _ _))
      have hthere := hlink link
      rwa [hplace, List.reverse_reverse] at hthere
    · refine hsole way ?_ ?_
      · rwa [hplace]
      · rwa [Path.descend_append]
    · rwa [← hplace]
    · rw [← hplace, ← Path.descend_append]
      exact hdirs way hway hnot
  have hunits : (w.filesUnder false (p.descend front)).filterMap (unitOf (p.descend front)) =
      ((w.filesUnder false (p.descend front)).filter
        (hasExtension UnitId.sourceExtension)).filterMap (unitOf (p.descend front)) := by
    rw [List.filterMap_filter]
    refine congrArg (List.filterMap · _) (funext fun file => ?_)
    unfold unitOf
    split <;> rfl
  rw [discover_eq, hunits, hfiles, List.filterMap_cons_some (n.unitOf_file _), List.filterMap_nil]

/-- A unit whose source is below one of the roots alone is located there, in any part of the roots
that has this one. -/
theorem locate_of_sole {roots part : List Path} {root : Path} {unit : UnitId}
    (hnodup : roots.Nodup)
    (hsole : ∀ other ∈ roots, w.isFile (unit.sourceFile other) = true ↔ other = root)
    (hpart : part.Sublist roots) (hroot : root ∈ part) :
    locate w part unit = .ok (some ⟨unit, root, unit.sourceFile root⟩) := by
  have hholders : holders w unit part = [root] := by
    have hfilter : holders w unit part = part.filter (· == root) := by
      refine List.filter_congr fun other hother => ?_
      rw [Bool.eq_iff_iff, hsole other (hpart.subset hother), beq_iff_eq]
    rw [hfilter, List.filter_beq, List.count_eq_one_of_mem (hnodup.sublist hpart) hroot]
    rfl
  rw [locate, hholders]

end

namespace Cli.Init

open World

variable {s s' : Session} {settings : Settings} {named : Option String}

/-! ### What matters to the search -/

/-- The names that lead from the directory of a project to its sources. -/
def mainNames : List String := ["src", "main", "clojure"]

/-- The names that lead from the directory of a project to its suites. -/
def testNames : List String := ["src", "test", "clojure"]

theorem shape_of_mem {root : List String} (h : root ∈ [mainNames, testNames]) :
    1 < root.length ∧ ∀ name ∈ root, Path.IsName name := by
  obtain rfl | rfl := List.mem_pair.1 h <;> decide

theorem div_mainRoot (p : Path) : p / mainRoot = p.descend mainNames := by
  have htext : Path.ofPieces mainNames = ⟨mainRoot⟩ := by decide
  rw [← Path.join_ofPieces p (by decide) (by decide), htext]
  rfl

theorem div_testRoot (p : Path) : p / Layout.defaultTestRoot = p.descend testNames := by
  have htext : Path.ofPieces testNames = ⟨Layout.defaultTestRoot⟩ := by decide
  rw [← Path.join_ofPieces p (by decide) (by decide), htext]
  rfl

/-- Names that lead to the configuration of a project, or on the way to its roots or below them. -/
def Concerns (names : List String) : Prop :=
  names ≠ [] ∧ (names = [Config.fileName] ∨
    ∃ root ∈ [mainNames, testNames], names <+: root ∨ root <+: names)

/-- A directory without sources: where a project has its configuration and its roots, and below
them, there is nothing yet, or only directories and files that are no sources.  A link there may
lead to sources elsewhere. -/
def Sourceless (w : World) (p : Path) (loc : Location) : Prop :=
  ∀ names node, Concerns names → w.node? (names.reverse ++ loc) = some node →
    node.isDir = true ∨
      node.isFile = true ∧ hasExtension UnitId.sourceExtension (p.descend names) = false

section

variable {w w' : World} {p : Path} {loc : Location} {names root : List String}

theorem concerns_of_mem (hroot : root ∈ [mainNames, testNames]) (hne : names ≠ [])
    (h : names <+: root ∨ root <+: names) : Concerns names :=
  ⟨hne, Or.inr ⟨root, hroot, h⟩⟩

theorem concerns_append (hroot : root ∈ [mainNames, testNames]) (more : List String) :
    Concerns (root ++ more) := by
  refine concerns_of_mem hroot (fun hnil => ?_) (Or.inr (List.prefix_append _ _))
  rw [(List.append_eq_nil_iff.1 hnil).1] at hroot
  exact absurd hroot (by decide)

theorem isName_source (hroot : root ∈ [mainNames, testNames]) (n : SourceName) :
    ∀ name ∈ root ++ n.file, Path.IsName name := fun name hname =>
  (List.mem_append.1 hname).elim ((shape_of_mem hroot).2 name) (n.file_isName name)

/-- As long as nothing is taken away, only directories and files come to stand where no sources
were. -/
theorem Sourceless.plain (h : Sourceless w p loc) (hrenewed : Renewed w w')
    (hconcerns : Concerns names) {node : Node}
    (hnode : w'.node? (names.reverse ++ loc) = some node) :
    node.isDir = true ∨ node.isFile = true := by
  cases hdir : node.isDir with
  | true => exact Or.inl rfl
  | false =>
      cases hfile : node.isFile with
      | true => exact Or.inr rfl
      | false =>
          rcases h names node hconcerns (hrenewed.special hnode hdir hfile) with hin | ⟨hin, -⟩
          · exact absurd (hdir.symm.trans hin) (by simp)
          · exact absurd (hfile.symm.trans hin) (by simp)

theorem Sourceless.ne_link (h : Sourceless w p loc) (hrenewed : Renewed w w')
    (hconcerns : Concerns names) (link : String) :
    w'.node? (names.reverse ++ loc) ≠ some (.link link) :=
  fun hnode => absurd (h.plain hrenewed hconcerns hnode) (by simp [Node.isDir, Node.isFile])

theorem Sourceless.ne_device (h : Sourceless w p loc) (hrenewed : Renewed w w')
    (hconcerns : Concerns names) (t : Int) : w'.node? (names.reverse ++ loc) ≠ some (.device t) :=
  fun hnode => absurd (h.plain hrenewed hconcerns hnode) (by simp [Node.isDir, Node.isFile])

theorem Sourceless.clearDown (h : Sourceless w p loc) (hrenewed : Renewed w w')
    (hroot : root ∈ [mainNames, testNames]) (more : List String) :
    w'.ClearDown loc (root ++ more) := fun _ hway hne =>
  h.ne_link hrenewed (concerns_of_mem hroot hne
    (List.prefix_or_prefix_of_prefix hway (List.prefix_append _ _)))

theorem concerns_config : Concerns [Config.fileName] := ⟨by simp, Or.inl rfl⟩

theorem Sourceless.clearDown_config (h : Sourceless w p loc) (hrenewed : Renewed w w') :
    w'.ClearDown loc [Config.fileName] := by
  intro way hway hne
  obtain hall | hnil := List.prefix_concat_iff.1 (show way <+: [] ++ [Config.fileName] from hway)
  · exact hall ▸ h.ne_link hrenewed concerns_config
  · exact absurd (List.prefix_nil.1 hnil) hne

/-- Behind a run the sources in a directory are among those that were written. -/
theorem Sourceless.written (h : Sourceless w p loc)
    {written : List (List String)} {made : Location → Prop}
    (hfootprint : Footprint (· ∈ written.map (·.reverse ++ loc)) made w w')
    (hconcerns : Concerns names) (hfile : (w'.node? (names.reverse ++ loc)).any Node.isFile = true)
    (hext : hasExtension UnitId.sourceExtension (p.descend names) = true) : names ∈ written := by
  obtain ⟨node, hnode, hisFile⟩ := (Option.any_eq_true _ _).1 hfile
  have hdir : node.isDir = false := by
    cases node <;> simp [Node.isFile, Node.isDir] at hisFile ⊢
  by_cases hin : names.reverse ++ loc ∈ written.map (·.reverse ++ loc)
  · obtain ⟨other, hother, hplace⟩ := List.mem_map.1 hin
    rwa [List.reverse_inj.1 (List.append_cancel_right hplace)] at hother
  · rcases h names node hconcerns (hfootprint.node?_before hin hnode hdir) with hwas | ⟨-, hwas⟩
    · exact absurd (hdir.symm.trans hwas) (by simp)
    · exact absurd (hext.symm.trans hwas) (by simp)

/-! ### Step by step -/

theorem footprint_of_mem {written : List (List String)} {made : Location → Prop}
    (hin : names ∈ written) (h : Footprint (· = names.reverse ++ loc) made w w') :
    Footprint (· ∈ written.map (·.reverse ++ loc)) made w w' :=
  h.mono (fun _ hplace => List.mem_map.2 ⟨names, hin, hplace.symm⟩) fun _ => id

theorem exists_enters_of_writeFile {content : ByteArray}
    (h : w.writeFile (p / Config.fileName) content = .ok w') : ∃ loc, w.Enters p loc := by
  obtain ⟨spot, hspot, -⟩ := Task.exists_of_bind_eq_ok h
  have hresolve : w.resolve true (p.descend [Config.fileName]) = .ok spot :=
    resolve_of_openForWriting hspot
  obtain ⟨loc, -, henters, -⟩ := exists_of_resolve_descend (by simp) (by decide) hresolve
  exact ⟨loc, henters⟩

theorem prepareDirectory_adds {result : Except CommandError Path}
    (h : (prepareDirectory named).runIn s = (result, s')) :
    Footprint (fun _ => False) (fun _ => True) s.world s'.world := by
  cases named with
  | none =>
      cases h
      exact .refl _
  | some name =>
      rw [runIn_prepareDirectory_some] at h
      split at h
      · cases h
        exact .refl _
      · cases h
        exact makeDirs_adds s.world (.ofText name)

theorem sourceFile_descend (n : SourceName) (p : Path) (root : List String) :
    n.unit.sourceFile (p.descend root) = p.descend (root ++ n.file) := by
  rw [n.sourceFile_unit, ← Path.descend_append]

theorem writeNamespace_renewed {root file : Path} {unit : UnitId} {text : String}
    (h : (writeNamespace root unit text).runIn s = (.ok file, s')) : Renewed s.world s'.world := by
  obtain ⟨mid, rfl | ⟨parent, rfl⟩, hwrite⟩ := exists_of_writeNamespace h
  · exact writeFile_renewed hwrite
  · exact Trans.trans (makeDirs_renewed _ parent) (writeFile_renewed hwrite)

/-- A source that is written is found again, and no other place is written to. -/
theorem writeSource_stat {file : Path} {text : String} {n : SourceName}
    (hbare : Sourceless w p loc) (hrenewed : Renewed w s.world) (henters : s.world.Enters p loc)
    (hroot : root ∈ [mainNames, testNames])
    (h : (writeNamespace (p.descend root) n.unit text).runIn s = (.ok file, s')) :
    (∃ t x, s'.world.stat (p.descend (root ++ n.file)) =
        .ok ((root ++ n.file).reverse ++ loc, .file text.toUTF8 t x)) ∧
      Footprint (· = (root ++ n.file).reverse ++ loc) (fun _ => True) s.world s'.world ∧
      Keeps (· ≠ (root ++ n.file).reverse ++ loc) s.world s'.world := by
  obtain ⟨mid, hmade, hwrite⟩ := exists_of_writeNamespace h
  have hmid : Renewed s.world mid ∧
      Footprint (· = (root ++ n.file).reverse ++ loc) (fun _ => True) s.world mid ∧
      Keeps (· ≠ (root ++ n.file).reverse ++ loc) s.world mid := by
    rcases hmade with rfl | ⟨parent, rfl⟩
    · exact ⟨Std.Refl.refl _, .refl _, Keeps.refl _⟩
    · exact ⟨makeDirs_renewed _ parent,
        (makeDirs_adds _ parent).mono (fun _ => False.elim) fun _ => id, makeDirs_keeps _ parent⟩
  obtain ⟨hrenewedMid, hfootprint, hkeeps⟩ := hmid
  have hbefore : Renewed w mid := Trans.trans hrenewed hrenewedMid
  rw [sourceFile_descend] at hwrite
  obtain ⟨hstat, hfootprint', hkeeps'⟩ := (henters.renewed hrenewedMid).writeFile
    (by simp [n.file_ne_nil]) (isName_source hroot n) (hbare.clearDown hbefore hroot _)
    (hbare.ne_device hbefore (concerns_append hroot _)) hwrite
  exact ⟨hstat, hfootprint.trans (hfootprint' _), hkeeps.trans hkeeps'⟩

end

/-- The names that lead from the directory of a project to the files that are written for it. -/
def writtenNames (n n' : SourceName) : List (List String) :=
  [[Config.fileName], mainNames ++ n.file, testNames ++ n'.file]

/-- What a run leaves behind in a directory without sources: two sources that are found again, and
beside them and the configuration only directories that were not there before. -/
structure Planted (w w' : World) (p : Path) (loc : Location) (n n' : SourceName) : Prop where
  bare : Sourceless w p loc
  renewed : Renewed w w'
  enters : w'.Enters p loc
  footprint : Footprint (· ∈ (writtenNames n n').map (·.reverse ++ loc)) (fun _ => True) w w'
  main : ∃ t x, w'.stat (p.descend (mainNames ++ n.file)) =
    .ok ((mainNames ++ n.file).reverse ++ loc, .file (mainSource n.unit).toUTF8 t x)
  suite : ∃ t x, w'.stat (p.descend (testNames ++ n'.file)) =
    .ok ((testNames ++ n'.file).reverse ++ loc, .file (suiteSource n'.unit n.unit).toUTF8 t x)

theorem planted_of_run {code : Nat}
    (hbare : ∀ loc, s'.world.Enters (projectDir s.world named) loc →
      Sourceless s.world (projectDir s.world named) loc)
    (h : (run settings named).runIn s = (.ok code, s')) :
    ∃ (loc : Location) (n n' : SourceName),
      starterNamespace (projectName (projectDir s.world named)) = .ok n.unit ∧
      suiteNamespace n.unit = .ok n'.unit ∧
      Planted s.world s'.world (projectDir s.world named) loc n n' := by
  obtain ⟨dir, made, configured, begun, unit, suite, file, file', last, hprepare, -, hunit, hsuite,
    hwrite, hmain, htest, hlast⟩ := exists_of_run h
  obtain rfl := eq_projectDir hprepare
  generalize projectDir s.world named = dir at *
  have hunder := underscore_not_mem_namespaceText (projectName dir)
  obtain ⟨n, rfl⟩ := SourceName.exists_of_parse hunit ((UnitId.text_of_parse hunit).2 ▸ hunder)
  obtain ⟨n', rfl⟩ := SourceName.exists_of_parse hsuite
    ((UnitId.text_of_parse hsuite).2 ▸ underscore_not_mem_suite hunit hunder)
  rw [div_mainRoot] at hmain
  rw [div_testRoot] at htest
  have hprepared : Renewed s.world made.world := (prepareDirectory_gains hprepare).renewed
  have hconfigured := writeFile_renewed hwrite
  have hbegun := writeNamespace_renewed hmain
  have hwritten := writeNamespace_renewed htest
  -- the directory is entered at one place from the first write to the last
  obtain ⟨loc, henters⟩ := exists_enters_of_writeFile hwrite
  have hentersConfigured := henters.renewed hconfigured
  have hentersBegun := hentersConfigured.renewed hbegun
  have hentersLast : s'.world.Enters dir loc := hlast ▸ hentersBegun.renewed hwritten
  have hsourceless := hbare loc hentersLast
  obtain ⟨-, hfootprint, -⟩ := henters.writeFile (by simp) (by decide)
    (hsourceless.clearDown_config hprepared) (hsourceless.ne_device hprepared concerns_config)
    hwrite
  have hbefore : Renewed s.world configured.world := Trans.trans hprepared hconfigured
  obtain ⟨⟨t, x, hmainStat⟩, hmainFootprint, -⟩ := writeSource_stat hsourceless hbefore
    hentersConfigured (by simp) hmain
  obtain ⟨hsuiteStat, hsuiteFootprint, hsuiteKeeps⟩ := writeSource_stat hsourceless
    (Trans.trans hbefore hbegun) hentersBegun (by simp) htest
  have hapart : (mainNames ++ n.file).reverse ++ loc ≠ (testNames ++ n'.file).reverse ++ loc := by
    intro heq
    have hnames := List.reverse_inj.1 (List.append_cancel_right heq)
    simp [mainNames, testNames] at hnames
  refine ⟨loc, n, n', hunit, hsuite, hsourceless, ?_, hentersLast, ?_, ?_, ?_⟩
  · rw [hlast]
    exact Trans.trans (Trans.trans hbefore hbegun) hwritten
  · rw [hlast]
    have hmade : Footprint (· ∈ (writtenNames n n').map (·.reverse ++ loc)) (fun _ => True)
        s.world made.world :=
      (prepareDirectory_adds hprepare).mono (fun _ => False.elim) fun _ => id
    exact ((hmade.trans (footprint_of_mem (by simp [writtenNames]) (hfootprint _))).trans
      (footprint_of_mem (by simp [writtenNames]) hmainFootprint)).trans
        (footprint_of_mem (by simp [writtenNames]) hsuiteFootprint)
  · rw [hlast]
    exact hwritten.stat_file (fun place hplace => hsuiteKeeps place (hplace ▸ hapart)) hmainStat
  · rwa [hlast]

/-! ### What is found -/

/-- How the source of a unit is found: below its root as the only one, in its file, and with what
was written. -/
structure Found (w : World) (roots : List Path) (root : Path) (unit : UnitId) (source : String) :
    Prop where
  accepted : UnitId.parse unit.text = .ok unit
  discovered : discover w root = [unit]
  located : ∀ part : List Path, part.Sublist roots → root ∈ part →
    locate w part unit = .ok (some ⟨unit, root, unit.sourceFile root⟩)
  holds : w.readText (unit.sourceFile root) = .ok source
  declares_iff : ∀ r : SymbolReader, r.declared? source = some unit.text ↔ r.Reads unit.text

section

variable {w w' : World} {p : Path} {loc : Location} {n n' m : SourceName} {root : List String}

namespace Planted

theorem mem_writtenNames_iff (hroot : root ∈ [mainNames, testNames]) {names : List String} :
    root ++ names ∈ writtenNames n n' ↔
      root = mainNames ∧ names = n.file ∨ root = testNames ∧ names = n'.file := by
  obtain rfl | rfl := List.mem_pair.1 hroot <;>
    simp [writtenNames, mainNames, testNames, Config.fileName]

/-- Of all source files with plain names below the roots only those are there that were written. -/
theorem isFile_sourceFile_iff (h : Planted w w' p loc n n')
    (hroot : root ∈ [mainNames, testNames]) :
    w'.isFile (m.unit.sourceFile (p.descend root)) = true ↔
      root = mainNames ∧ m = n ∨ root = testNames ∧ m = n' := by
  rw [sourceFile_descend]
  constructor
  · intro hfile
    obtain ⟨place, node, hstat, hisFile⟩ := isFile_eq_true_iff.1 hfile
    obtain ⟨hresolve, hnode⟩ := stat_eq_ok.1 hstat
    obtain ⟨hplace, -, -, -⟩ := h.enters.wentDown (by simp [m.file_ne_nil]) (isName_source hroot m)
      (h.bare.clearDown h.renewed hroot _) hresolve
    obtain rfl : place = (root ++ m.file).reverse ++ loc := hplace
    have hext : hasExtension UnitId.sourceExtension (p.descend (root ++ m.file)) = true := by
      rw [Path.descend_append]
      exact beq_iff_eq.2 (m.extension?_file _)
    have hwritten := h.bare.written h.footprint (concerns_append hroot _)
      (by rw [hnode]; exact hisFile) hext
    rcases (mem_writtenNames_iff hroot).1 hwritten with ⟨hmain, hfile⟩ | ⟨htest, hfile⟩
    · exact Or.inl ⟨hmain, SourceName.file_injective hfile⟩
    · exact Or.inr ⟨htest, SourceName.file_injective hfile⟩
  · rintro (⟨rfl, rfl⟩ | ⟨rfl, rfl⟩)
    · obtain ⟨t, x, hstat⟩ := h.main
      exact isFile_eq_true_iff.2 ⟨_, _, hstat, rfl⟩
    · obtain ⟨t, x, hstat⟩ := h.suite
      exact isFile_eq_true_iff.2 ⟨_, _, hstat, rfl⟩

theorem discover_eq (h : Planted w w' p loc n n')
    (hin : root = mainNames ∧ m = n ∨ root = testNames ∧ m = n') :
    discover w' (p.descend root) = [m.unit] := by
  have hroot : root ∈ [mainNames, testNames] := List.mem_pair.2 (hin.imp And.left And.left)
  obtain ⟨hlong, hnames⟩ := shape_of_mem hroot
  have hstat : ∃ content t x, w'.stat (p.descend (root ++ m.file)) =
      .ok ((root ++ m.file).reverse ++ loc, .file content t x) := by
    obtain ⟨rfl, rfl⟩ | ⟨rfl, rfl⟩ := hin
    · exact ⟨_, h.main⟩
    · exact ⟨_, h.suite⟩
  obtain ⟨content, t, x, hstat⟩ := hstat
  obtain ⟨hresolve, hnode⟩ := stat_eq_ok.1 hstat
  refine discover_of_sole h.enters hlong hnames (fun names hsome hon => ?_) hresolve
    (by rw [hnode]; rfl) fun way hfile hext => ?_
  · exact h.bare.ne_link h.renewed (concerns_of_mem hroot hsome hon)
  · have hwritten := h.bare.written h.footprint (concerns_append hroot way) hfile hext
    have hapart : mainNames ≠ testNames := by decide
    rcases (mem_writtenNames_iff hroot).1 hwritten with ⟨rfl, rfl⟩ | ⟨rfl, rfl⟩
    · rw [(hin.resolve_right fun htest => hapart htest.1).2]
    · rw [(hin.resolve_left fun hmain => hapart hmain.1.symm).2]

/-- A source that was written is found, unless the other one has the same names. -/
theorem found (h : Planted w w' p loc n n') (hne : n ≠ n')
    (hin : root = mainNames ∧ m = n ∨ root = testNames ∧ m = n') {source : String}
    (haccepted : UnitId.parse m.unit.text = .ok m.unit)
    (hstat : ∃ t x, w'.stat (p.descend (root ++ m.file)) =
      .ok ((root ++ m.file).reverse ++ loc, .file source.toUTF8 t x))
    (hdeclares : ∀ r : SymbolReader, r.declared? source = some m.unit.text ↔ r.Reads m.unit.text) :
    Found w' [p / mainRoot, p / Layout.defaultTestRoot] (p.descend root) m.unit source := by
  have hmain := shape_of_mem (show mainNames ∈ [mainNames, testNames] by simp)
  have htest := shape_of_mem (show testNames ∈ [mainNames, testNames] by simp)
  have hapart : mainNames ≠ testNames := by decide
  have hroots : p.descend mainNames ≠ p.descend testNames := by
    intro heq
    have hsame : (p.descend mainNames).same (p.descend testNames) = true := by
      rw [heq]
      exact beq_self_eq_true _
    exact hapart ((Path.descend_same_iff p hmain.2 htest.2).1 hsame)
  refine ⟨haccepted, h.discover_eq hin, fun part hpart hroot => ?_, ?_, hdeclares⟩
  · rw [div_mainRoot, div_testRoot] at hpart
    refine locate_of_sole (by simpa using hroots) (fun other hother => ?_) hpart hroot
    obtain rfl | rfl := List.mem_pair.1 hother
    · rw [h.isFile_sourceFile_iff (by simp)]
      obtain ⟨rfl, rfl⟩ | ⟨rfl, rfl⟩ := hin
      · simp
      · simp [hapart, hroots, hne.symm]
    · rw [h.isFile_sourceFile_iff (by simp)]
      obtain ⟨rfl, rfl⟩ | ⟨rfl, rfl⟩ := hin
      · simp [hapart.symm, hroots.symm, hne]
      · simp
  · obtain ⟨t, x, hstat⟩ := hstat
    rw [sourceFile_descend]
    exact readText_of_stat hstat

end Planted

end

theorem exists_toList_mainSource (unit : UnitId) :
    ∃ tail, (mainSource unit).toList = "(ns ".toList ++ (unit.text.toList ++ ')' :: tail) := by
  unfold mainSource
  simp only [String.toList_append, List.append_assoc]
  exact ⟨_, rfl⟩

theorem exists_toList_suiteSource (suite unit : UnitId) :
    ∃ tail, (suiteSource suite unit).toList =
      "(ns ".toList ++ (suite.text.toList ++ '\n' :: tail) := by
  unfold suiteSource
  simp only [String.toList_append, List.append_assoc]
  exact ⟨_, rfl⟩

/-- Wherever no sources were, a run that succeeds leaves two units to be found: the first namespace
of the project below its main root and the suite of that namespace below the root of the suites.
Each is found in its file, and the file declares it exactly if it is read as one symbol. -/
theorem run_found {code : Nat}
    (hbare : ∀ loc, s'.world.Enters (projectDir s.world named) loc →
      Sourceless s.world (projectDir s.world named) loc)
    (h : (run settings named).runIn s = (.ok code, s')) :
    ∃ unit suite : UnitId,
      unit.text = namespaceText (projectName (projectDir s.world named)) ∧
      suite.text = unit.text ++ "-test" ∧
      Found s'.world
        [projectDir s.world named / mainRoot, projectDir s.world named / Layout.defaultTestRoot]
        (projectDir s.world named / mainRoot) unit (mainSource unit) ∧
      Found s'.world
        [projectDir s.world named / mainRoot, projectDir s.world named / Layout.defaultTestRoot]
        (projectDir s.world named / Layout.defaultTestRoot) suite (suiteSource suite unit) := by
  obtain ⟨loc, n, n', hunit, hsuite, hplanted⟩ := planted_of_run hbare h
  have hunitText := (UnitId.text_of_parse hunit).2
  have hsuiteText := (UnitId.text_of_parse hsuite).2
  have hne : n ≠ n' := by
    rintro rfl
    have hlength := congrArg String.length hsuiteText
    rw [String.length_append] at hlength
    exact absurd hlength (by simp)
  obtain ⟨tail, hmain⟩ := exists_toList_mainSource n.unit
  obtain ⟨tail', htest⟩ := exists_toList_suiteSource n'.unit n.unit
  refine ⟨n.unit, n'.unit, hunitText, hsuiteText, ?_, ?_⟩
  · have hfound := hplanted.found hne (Or.inl ⟨rfl, rfl⟩) (hunitText ▸ hunit) hplanted.main
      fun r => r.declared?_eq_some_iff r.ends_paren hmain
    rwa [← div_mainRoot] at hfound
  · have hfound := hplanted.found hne (Or.inr ⟨rfl, rfl⟩) (hsuiteText ▸ hsuite) hplanted.suite
      fun r => r.declared?_eq_some_iff r.ends_newline htest
    rwa [← div_testRoot] at hfound

/-- A directory whose name ends a symbol early, and in it the directories of sources to come. -/
def parenthesisSession : Session where
  world := {
    nodes := [(["a)b"], .dir 0), (["src", "a)b"], .dir 0), (["main", "src", "a)b"], .dir 0),
      (["clojure", "main", "src", "a)b"], .dir 0),
      (["a)b", "clojure", "main", "src", "a)b"], .dir 0), (["test", "src", "a)b"], .dir 0),
      (["clojure", "test", "src", "a)b"], .dir 0),
      (["a)b", "clojure", "test", "src", "a)b"], .dir 0)]
    cwd := ["a)b"]
    clock := 1 }
  journal := []

theorem run_parenthesis : ((run default none).runIn parenthesisSession).1.isOk = true := by
  decide +kernel

theorem isDir_parenthesis : ∀ {loc : Location} {node : Node},
    parenthesisSession.world.node? loc = some node → node.isDir = true :=
  (forall_node_iff Node.isDir).2 (by decide)

/-- The first namespace of a project in that directory is found, but it is not what its file
declares, whatever else a reader takes for the end of a symbol. -/
theorem run_found_parenthesis :
    ∃ (code : Nat) (s' : Session), (run default none).runIn parenthesisSession = (.ok code, s') ∧
      discover s'.world ((⟨"/a)b"⟩ : Path) / mainRoot) = [⟨"a)b.core"⟩] ∧
      s'.world.readText (UnitId.sourceFile ⟨"a)b.core"⟩ ((⟨"/a)b"⟩ : Path) / mainRoot)) =
        .ok (mainSource ⟨"a)b.core"⟩) ∧
      (∀ r : SymbolReader, r.declared? (mainSource ⟨"a)b.core"⟩) ≠ some "a)b.core") ∧
      SymbolReader.plain.declared? (mainSource ⟨"a)b.core"⟩) = some "a" := by
  have hok := run_parenthesis
  rcases hrun : (run default none).runIn parenthesisSession with ⟨result, s'⟩
  rw [hrun] at hok
  obtain ⟨code, rfl⟩ := Task.exists_of_isOk hok
  have hdir : projectDir parenthesisSession.world none = ⟨"/a)b"⟩ := by decide
  obtain ⟨unit, suite, hunit, -, hmain, -⟩ :=
    run_found (fun loc _ names node _ hnode => Or.inl (isDir_parenthesis hnode)) hrun
  have hname : namespaceText (projectName ⟨"/a)b"⟩) = "a)b.core" := by decide
  rw [hdir] at hmain
  rw [hdir, hname] at hunit
  obtain rfl : unit = ⟨"a)b.core"⟩ := congrArg UnitId.mk hunit
  refine ⟨code, s', rfl, hmain.discovered, hmain.holds, fun r hdeclared => ?_, by decide⟩
  have hends := ((hmain.declares_iff r).1 hdeclared).1 ')' (by decide)
  exact absurd (r.ends_paren.symm.trans hends) (by simp)

end Cli.Init

end ClojureBuild
