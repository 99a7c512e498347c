import ClojureBuild.Proofs.Cli.Scaffold
import ClojureBuild.Proofs.World.Drafts
/-!
What a new project does to what is there already.

The directory of a new project is made first.  Only then it is asked whether the directory may be
made a project, and of the three files that are written only the configuration is asked for before.
Main statements: a run that is refused leaves the world as it was unless it had a directory to make;
and a file that was there before is overwritten exactly as the paths of the two sources lead to it,
which they never do in a directory that was made for them.
-/

namespace ClojureBuild.Cli

/-- Whether an error refuses a name, or what is there already. -/
def CommandError.refuses : CommandError → Bool
  | .directoryExists _ | .configurationExists _ | .badUnit _ => true
  | _ => false

namespace Init

open World
open ClojureBuild.Task (WritesAt)

variable {s s' : Session} {settings : Settings} {named : Option String}

/-! ### Refusals -/

theorem sayUnless_raises {P : CommandError → Prop} (quiet : Bool) (line : String) :
    Task.Raises P (sayUnless quiet line) :=
  .ite (.pure _) (.note _)

theorem writeText_raises {P : CommandError → Prop} (hio : ∀ cause, P (.io cause)) (p : Path)
    (text : String) : Task.Raises P (writeText p text) :=
  .change hio

theorem writeNamespace_raises {P : CommandError → Prop} (hio : ∀ cause, P (.io cause))
    (root : Path) (unit : UnitId) (text : String) :
    Task.Raises P (writeNamespace root unit text) := by
  unfold writeNamespace
  have hwrite : Task.Raises P (do
      writeText (unit.sourceFile root) text
      return unit.sourceFile root) :=
    .bind (writeText_raises hio _ text) fun _ => .pure _
  cases hparent : (unit.sourceFile root).parent? with
  | none =>
      simp only [hparent]
      exact hwrite
  | some parent =>
      simp only [hparent]
      exact .bind (.change hio) fun _ => hwrite

/-- Once the files are being written, nothing is refused any more. -/
theorem writeProject_raises (settings : Settings) (dir : Path) (unit suite : UnitId) :
    Task.Raises (·.refuses = false) (writeProject settings dir unit suite) := by
  have hio : ∀ cause, (CommandError.io cause).refuses = false := fun _ => rfl
  unfold writeProject
  refine .bind (sayUnless_raises _ _) fun _ => ?_
  refine .bind (writeText_raises hio _ _) fun _ => ?_
  refine .bind (writeNamespace_raises hio _ _ _) fun _ => ?_
  refine .bind (writeNamespace_raises hio _ _ _) fun _ => ?_
  refine .bind (sayUnless_raises _ _) fun _ => ?_
  refine .bind (sayUnless_raises _ _) fun _ => ?_
  exact .bind (sayUnless_raises _ _) fun _ => .pure _

/-- A refusal comes as the directory is prepared, or once it is and before anything is written. -/
theorem refused_cases {e : CommandError} (hrefuses : e.refuses = true)
    (h : (run settings named).runIn s = (.error e, s')) :
    (prepareDirectory named).runIn s = (.error e, s') ∨
      ∃ dir, (prepareDirectory named).runIn s = (.ok dir, s') ∧
        admitted s'.world dir = .error e := by
  obtain ⟨cause, made, hprepare, hrun⟩ | ⟨dir, made, cause, hprepare, hadmitted, hrun⟩ |
    ⟨dir, made, unit, suite, -, -, -, hrun⟩ := run_cases settings named s
  · cases hrun.symm.trans h
    exact Or.inl hprepare
  · cases hrun.symm.trans h
    exact Or.inr ⟨dir, hprepare, hadmitted⟩
  · rw [hrun] at h
    exact absurd hrefuses (by simp [writeProject_raises _ _ _ _ made e s' h])

/-- The directory is refused only if its name leads to something, and then nothing is done. -/
theorem exists_of_prepareDirectory_refused {e : CommandError} (hrefuses : e.refuses = true)
    (h : (prepareDirectory named).runIn s = (.error e, s')) :
    ∃ name, e = .directoryExists name ∧ s' = s := by
  cases named with
  | none => exact absurd (Prod.mk.inj h).1 (by simp)
  | some name =>
      rw [runIn_prepareDirectory_some] at h
      split at h
      · cases h
        exact ⟨name, rfl, rfl⟩
      · cases hmake : (s.world.makeDirs (.ofText name)).2 with
        | ok u => simp [hmake, Except.map] at h
        | error cause =>
            rw [hmake, Prod.mk.injEq] at h
            obtain rfl : CommandError.io cause = e := Except.error.inj h.1
            exact absurd hrefuses (by simp [CommandError.refuses])

theorem admitted_ne_directoryExists (w : World) (dir : Path) (name : String) :
    admitted w dir ≠ .error (.directoryExists name) := by
  unfold admitted
  split
  · simp
  · cases namespaces (projectName dir) <;> simp

theorem world_ne_of_makeDirs {w : World} {name : OsText} (hne : name ≠ "")
    (hnew : w.pathExists ⟨name⟩ = false) (hmake : (w.makeDirs ⟨name⟩).2 = .ok ()) :
    (w.makeDirs ⟨name⟩).1 ≠ w := by
  intro hsame
  obtain ⟨loc, node, hstat, -⟩ := isDir_eq_true_iff.1 (isDir_of_makeDirs hne hmake)
  rw [hsame] at hstat
  rw [pathExists, hstat] at hnew
  exact absurd hnew (by simp)

/-- A refused run leaves the world as it was exactly when the name leads to something or no
directory was to be made; otherwise the directory that was made stays behind.  In any case no file
is changed. -/
theorem refused_unchanged_iff {e : CommandError} (hrefuses : e.refuses = true)
    (h : (run settings named).runIn s = (.error e, s')) :
    (s'.world = s.world ↔
      (∃ name, e = .directoryExists name) ∨ named = none ∨ named = some "") ∧
    Gains s.world s'.world ∧
    ∀ name, named = some name → (∀ other, e ≠ .directoryExists other) →
      s.world.pathExists (.ofText name) = false ∧
        s' = { s with world := (s.world.makeDirs (.ofText name)).1 } ∧
        (name ≠ "" → s'.world.isDir (.ofText name) = true) := by
  rcases refused_cases hrefuses h with hprepare | ⟨dir, hprepare, hadmitted⟩
  · obtain ⟨name, rfl, rfl⟩ := exists_of_prepareDirectory_refused hrefuses hprepare
    exact ⟨⟨fun _ => Or.inl ⟨name, rfl⟩, fun _ => rfl⟩, Std.Refl.refl _,
      fun _ _ hother => absurd rfl (hother name)⟩
  · have hother : ∀ other, e ≠ .directoryExists other := by
      rintro other rfl
      exact admitted_ne_directoryExists _ _ other hadmitted
    cases named with
    | none =>
        cases hprepare
        exact ⟨⟨fun _ => Or.inr (Or.inl rfl), fun _ => rfl⟩, Std.Refl.refl _,
          fun name hname => absurd hname (by simp)⟩
    | some name =>
        obtain ⟨hnew, rfl, hmake, rfl⟩ := exists_of_prepareDirectory_some hprepare
        refine ⟨⟨fun hsame => ?_, ?_⟩, makeDirs_gains s.world (.ofText name), ?_⟩
        · by_cases hne : name = ""
          · exact Or.inr (Or.inr (congrArg some hne))
          · have hfull := mt Octets.ofText_eq_empty_iff.1 hne
            exact absurd hsame (world_ne_of_makeDirs hfull hnew hmake)
        · rintro (⟨other, hexists⟩ | hnone | hempty)
          · exact absurd hexists (hother other)
          · exact absurd hnone (by simp)
          · obtain rfl := Option.some.inj hempty
            rfl
        · rintro other hsame -
          obtain rfl := Option.some.inj hsame
          refine ⟨hnew, rfl, fun hne => ?_⟩
          exact isDir_of_makeDirs (mt Octets.ofText_eq_empty_iff.1 hne) hmake

/-- A session in an empty tree. -/
def emptySession : Session := ⟨⟨[], [], 0⟩, []⟩

theorem run_backslash : ((run default (some "a\\b")).runIn emptySession).1 =
    .error (.badUnit ⟨"a\\b.core"⟩) := by
  decide +kernel

/-- A name that holds a backslash is refused behind its directory. -/
theorem refused_unchanged_iff_backslash : ∃ (e : CommandError) (s' : Session),
    (run default (some "a\\b")).runIn emptySession = (.error e, s') ∧ e.refuses = true ∧
      s'.world ≠ emptySession.world ∧ s'.world.isDir ⟨"a\\b"⟩ = true := by
  have hrun := Prod.ext run_backslash
    (rfl : ((run default (some "a\\b")).runIn emptySession).2 = _)
  obtain ⟨hiff, -, hmade⟩ := refused_unchanged_iff rfl hrun
  refine ⟨_, _, hrun, rfl, mt hiff.1 (by simp), ?_⟩
  exact (hmade "a\\b" rfl (by simp)).2.2 (by decide)

/-! ### What is written -/

/-- The directory of a project that is given a name, or none. -/
def projectDir (w : World) : Option String → Path
  | none => w.cwdPath
  | some name => .ofText name

/-- What is to be written for the namespaces of a project. -/
def draftsOf (dir : Path) (unit suite : UnitId) : List FileDraft :=
  [(unit.sourceFile (dir / mainRoot), (mainSource unit).toUTF8),
    (suite.sourceFile (dir / Layout.defaultTestRoot), (suiteSource suite unit).toUTF8)]

/-- The sources of the project in a directory. -/
def sourceDrafts (dir : Path) : List FileDraft :=
  match namespaces (projectName dir) with
  | .ok (unit, suite) => draftsOf dir unit suite
  | .error _ => []

theorem sourceDrafts_eq {dir : Path} {unit suite : UnitId}
    (h : namespaces (projectName dir) = .ok (unit, suite)) :
    sourceDrafts dir = draftsOf dir unit suite := by
  unfold sourceDrafts
  rw [h]

theorem sayUnless_gains (quiet : Bool) (line : String) (s : Session) :
    Gains s.world ((sayUnless quiet line).runIn s).2.world := by
  cases quiet <;> exact Std.Refl.refl s.world

theorem writesAt_writeText (p : Path) (text : String) (s : Session) :
    WritesAt [(p, text.toUTF8)] (writeText p text) s := by
  rw [WritesAt, writeText, Task.runIn_change]
  cases hwrite : s.world.writeFile p text.toUTF8 with
  | error cause =>
      exact ⟨[], List.nil_prefix, .nothing (Std.Refl.refl _), fun _ h => absurd h (by simp)⟩
  | ok w =>
      exact ⟨_, List.prefix_rfl, .draft (Std.Refl.refl _) hwrite (.nothing (Std.Refl.refl w)),
        fun _ _ => rfl⟩

theorem writeText_gains {p : Path} (hnew : s.world.pathExists p = false) (text : String) :
    Gains s.world ((writeText p text).runIn s).2.world := by
  rw [writeText, Task.runIn_change]
  cases hwrite : s.world.writeFile p text.toUTF8 with
  | error cause => exact Std.Refl.refl _
  | ok w => exact writeFile_gains hnew hwrite

theorem writesAt_writeNamespace (root : Path) (unit : UnitId) (text : String) (s : Session) :
    WritesAt [(unit.sourceFile root, text.toUTF8)] (writeNamespace root unit text) s := by
  have hwrite : ∀ s, WritesAt ([(unit.sourceFile root, text.toUTF8)] ++ []) (do
      writeText (unit.sourceFile root) text
      return unit.sourceFile root) s := fun s =>
    (writesAt_writeText _ text s).bind fun _ mid _ => .of_gains (Std.Refl.refl mid.world)
  unfold writeNamespace
  cases hparent : (unit.sourceFile root).parent? with
  | none =>
      simp only [hparent]
      exact hwrite s
  | some parent =>
      simp only [hparent]
      exact .bind_gains (makeDirs_gains s.world parent) fun _ mid _ => hwrite mid

/-- Where no configuration was, the files of a project change others only as its sources do. -/
theorem writesAt_writeProject (settings : Settings) {dir : Path} (unit suite : UnitId)
    (hnew : s.world.pathExists (dir / Config.fileName) = false) :
    WritesAt (draftsOf dir unit suite) (writeProject settings dir unit suite) s := by
  have hsay : ∀ {drafts : List FileDraft} {line : String} {next : Work Nat} (s : Session),
      (∀ mid, WritesAt drafts next mid) →
        WritesAt drafts (sayUnless settings.quiet line >>= fun _ => next) s :=
    fun s hnext => .bind_gains (sayUnless_gains _ _ s) fun _ mid _ => hnext mid
  unfold writeProject
  refine .bind_gains (sayUnless_gains _ _ s) fun _ told hsaid => ?_
  have hfree : told.world.pathExists (dir / Config.fileName) = false := by
    rw [world_sayUnless hsaid, hnew]
  refine .bind_gains (writeText_gains hfree _) fun _ configured _ => ?_
  refine (writesAt_writeNamespace _ unit _ configured).bind fun _ begun _ => ?_
  refine (writesAt_writeNamespace _ suite _ begun).bind fun _ written _ => ?_
  refine hsay written fun _ => hsay _ fun _ => hsay _ fun mid => ?_
  exact .of_gains (Std.Refl.refl mid.world)

theorem prepareDirectory_gains {result : Except CommandError Path} {made : Session}
    (h : (prepareDirectory named).runIn s = (result, made)) : Gains s.world made.world := by
  cases named with
  | none =>
      cases h
      exact Std.Refl.refl _
  | some name =>
      rw [runIn_prepareDirectory_some] at h
      split at h
      · cases h
        exact Std.Refl.refl _
      · cases h
        exact makeDirs_gains s.world (.ofText name)

theorem eq_projectDir {dir : Path} {made : Session}
    (h : (prepareDirectory named).runIn s = (.ok dir, made)) : dir = projectDir s.world named := by
  cases named with
  | none =>
      cases h
      rfl
  | some name => exact (exists_of_prepareDirectory_some h).2.1

/-- A run writes the sources of the project, and changes no file apart from that. -/
theorem writesAt_run (settings : Settings) (named : Option String) (s : Session) :
    WritesAt (sourceDrafts (projectDir s.world named)) (run settings named) s := by
  have hnothing : ∀ {e made}, Gains s.world made.world →
      (run settings named).runIn s = (.error e, made) →
        WritesAt (sourceDrafts (projectDir s.world named)) (run settings named) s := by
    intro e made hmade hrun
    rw [WritesAt, hrun]
    exact ⟨[], List.nil_prefix, .nothing hmade, fun _ h => absurd h (by simp)⟩
  obtain ⟨e, made, hprepare, hrun⟩ | ⟨dir, made, e, hprepare, -, hrun⟩ |
    ⟨dir, made, unit, suite, hprepare, hnew, hunits, hrun⟩ := run_cases settings named s
  · exact hnothing (prepareDirectory_gains hprepare) hrun
  · exact hnothing (prepareDirectory_gains hprepare) hrun
  · obtain rfl := eq_projectDir hprepare
    obtain ⟨written, hfront, hwritten, hall⟩ := writesAt_writeProject settings unit suite hnew
    rw [WritesAt, hrun, sourceDrafts_eq hunits]
    exact ⟨written, hfront, hwritten.of_gains (prepareDirectory_gains hprepare), hall⟩

/-! ### Files that were there before -/

/-- The sources of a project are below its directory. -/
theorem exists_descend_of_mem_draftsOf {dir : Path} {unit suite : UnitId} {draft : FileDraft}
    (hunits : namespaces (projectName dir) = .ok (unit, suite))
    (h : draft ∈ draftsOf dir unit suite) :
    ∃ names, 1 < names.length ∧ (∀ n ∈ names, Path.IsName n) ∧ draft.1 = dir.descend names := by
  obtain ⟨hunit, hsuite⟩ := namespaces_eq_ok hunits
  have hunder := underscore_not_mem_namespaceText (projectName dir)
  rw [draftsOf, List.mem_pair] at h
  rcases h with rfl | rfl
  · dsimp only
    exact exists_descend_source dir spellsNames_mainRoot hunit hunder
  · dsimp only
    exact exists_descend_source dir spellsNames_testRoot hsuite
      (underscore_not_mem_suite hunit hunder)

/-- In a directory that was made under a plain name, no source is written to a file that was there
before. -/
theorem run_keeps_of_name {name : String} (settings : Settings) (hname : Path.IsName name)
    (htree : s.world.IsTree) :
    Keeps (fun _ => True) s.world ((run settings (some name)).runIn s).2.world := by
  obtain ⟨e, made, hprepare, hrun⟩ | ⟨dir, made, e, hprepare, -, hrun⟩ |
    ⟨dir, made, unit, suite, hprepare, hnew, hunits, hrun⟩ := run_cases settings (some name) s
  · exact hrun ▸ (prepareDirectory_gains hprepare).keeps
  · exact hrun ▸ (prepareDirectory_gains hprepare).keeps
  · obtain ⟨rfl, hfresh⟩ := fresh_of_prepareDirectory htree hname hprepare
    obtain ⟨written, hfront, hwritten, -⟩ := writesAt_writeProject settings unit suite hnew
    rw [← hrun] at hwritten
    rintro loc - content hcontent
    have hmade := (prepareDirectory_gains hprepare).keeps loc trivial content hcontent
    have hapart : ∀ draft ∈ written, ∀ spot,
        ((run settings (some name)).runIn s).2.world.resolve true draft.1 = .ok spot →
          spot.location ≠ loc := by
      intro draft hdraft spot hspot hsame
      obtain ⟨names, hlong, hnames, hpath⟩ :=
        exists_descend_of_mem_draftsOf hunits (hfront.subset hdraft)
      have hclear := hwritten.renewed.unlinked (hfresh.unlinked hname.ofText hnames)
      rw [hpath] at hspot
      have hplace := location_of_resolve hclear hspot
      rw [placeFrom_descend _ hnames, hwritten.renewed.cwd, placeFrom_name hname.ofText] at hplace
      have hempty := hfresh.empty (List.reverse_ne_nil_iff.2
        (List.length_pos_iff.1 (Nat.zero_lt_of_lt hlong)))
      obtain ⟨t, x, hfile⟩ := contentAt_eq_some_iff.1 hmade
      rw [← hplace, hsame, hfile] at hempty
      exact absurd hempty (by simp)
    rw [hwritten.contentAt hmade, lastWrite?_eq_none hapart, Option.getD_none]

/-- A file that was there before holds the last of the written sources whose path leads to it, or
else what it held; in a directory that is made under a plain name it holds what it held.  A run that
succeeds writes both sources, and one that fails the first ones of them. -/
theorem contentAt_run (settings : Settings) (named : Option String) (s : Session) :
    ∃ written, written <+: sourceDrafts (projectDir s.world named) ∧
      (∀ code, ((run settings named).runIn s).1 = .ok code →
        written = sourceDrafts (projectDir s.world named)) ∧
      (∀ loc content, s.world.contentAt loc = some content →
        ((run settings named).runIn s).2.world.contentAt loc =
          some ((Rules.lastWrite? (written.filterMap
            (FileDraft.write? ((run settings named).runIn s).2.world)) loc).getD content)) ∧
      ∀ name, named = some name → Path.IsName name → s.world.IsTree →
        Keeps (fun _ => True) s.world ((run settings named).runIn s).2.world := by
  obtain ⟨written, hfront, hwritten, hall⟩ := writesAt_run settings named s
  refine ⟨written, hfront, hall, fun loc content h => hwritten.contentAt h, ?_⟩
  rintro name rfl hname htree
  exact run_keeps_of_name settings hname htree

/-- A directory in which the first namespace of its project is written already. -/
def grownSession : Session where
  world := {
    nodes := [(["p"], .dir 0), (["src", "p"], .dir 0), (["main", "src", "p"], .dir 0),
      (["clojure", "main", "src", "p"], .dir 0), (["p", "clojure", "main", "src", "p"], .dir 0),
      (["core.clj", "p", "clojure", "main", "src", "p"],
        .file "(ns p.core)\n(def mine 1)\n".toUTF8 0 false),
      (["test", "src", "p"], .dir 0), (["clojure", "test", "src", "p"], .dir 0),
      (["p", "clojure", "test", "src", "p"], .dir 0)]
    cwd := ["p"]
    clock := 1 }
  journal := []

theorem run_grown : (((run default none).runIn grownSession).1.isOk &&
    decide ((sourceDrafts (projectDir grownSession.world none)).map (fun draft =>
        ((run default none).runIn grownSession).2.world.resolve true draft.1) =
      [.ok (.taken ["core.clj", "p", "clojure", "main", "src", "p"]),
        .ok (.taken ["core_test.clj", "p", "clojure", "test", "src", "p"])])) = true := by
  decide +kernel

theorem namespaces_grown :
    namespaces (projectName (projectDir grownSession.world none)) =
      .ok (⟨"p.core"⟩, ⟨"p.core-test"⟩) := rfl

/-- A project that is begun in its directory loses the first namespace that is there. -/
theorem contentAt_run_grown :
    grownSession.world.contentAt ["core.clj", "p", "clojure", "main", "src", "p"] =
        some "(ns p.core)\n(def mine 1)\n".toUTF8 ∧
      ((run default none).runIn grownSession).2.world.contentAt
          ["core.clj", "p", "clojure", "main", "src", "p"] =
        some (mainSource ⟨"p.core"⟩).toUTF8 := by
  have hbefore : grownSession.world.contentAt ["core.clj", "p", "clojure", "main", "src", "p"] =
      some "(ns p.core)\n(def mine 1)\n".toUTF8 := rfl
  obtain ⟨hends, hplaces⟩ := Bool.and_eq_true_iff.1 run_grown
  have hresolves := of_decide_eq_true hplaces
  obtain ⟨code, hcode⟩ := Task.exists_of_isOk hends
  obtain ⟨written, -, hall, hcontent, -⟩ := contentAt_run default none grownSession
  obtain rfl := hall code hcode
  rw [sourceDrafts_eq namespaces_grown] at hcontent hresolves
  generalize ((run default none).runIn grownSession).2.world = after at hcontent hresolves ⊢
  generalize projectDir grownSession.world none = dir at hcontent hresolves
  rw [draftsOf, List.map_cons, List.map_singleton, List.cons.injEq, List.cons.injEq] at hresolves
  obtain ⟨hmain, hsuite, -⟩ := hresolves
  refine ⟨hbefore, ?_⟩
  rw [hcontent _ _ hbefore, draftsOf, List.filterMap_cons_some (write?_of_resolve hmain),
    List.filterMap_cons_some (write?_of_resolve hsuite)]
  simp [Rules.lastWrite?, Spot.location]

end Init

end ClojureBuild.Cli
