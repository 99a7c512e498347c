import ClojureBuild.Proofs.Config.Starter
import ClojureBuild.Proofs.Planning.SourceName
import ClojureBuild.Proofs.World.Fresh
/-!
A new project can be loaded.

The directory of a new project is empty when it is made, and no link leads out of it, so what is
written there is found there again.  Hence the configuration that is loaded from a new project is
the one that was written, and it names the project after its directory exactly when the name of the
directory may stand in a string as it is.
-/

namespace ClojureBuild.Cli.Init

open World

variable {s s' : Session} {settings : Settings} {name : String}

/-! ### Writing -/

theorem world_sayUnless {quiet : Bool} {line : String} {u : Unit}
    (h : (sayUnless quiet line).runIn s = (.ok u, s')) : s'.world = s.world := by
  cases quiet with
  | true =>
      cases h
      rfl
  | false =>
      cases h
      rfl

theorem writeFile_of_writeText {p : Path} {text : String} {u : Unit}
    (h : (writeText p text).runIn s = (.ok u, s')) :
    s.world.writeFile p text.toUTF8 = .ok s'.world := by
  rw [writeText, Task.runIn_change] at h
  cases hwrite : s.world.writeFile p text.toUTF8 with
  | ok w' =>
      rw [hwrite] at h
      cases h
      rfl
  | error e =>
      rw [hwrite] at h
      exact absurd h (by simp)

/-- Writing the source of a unit whose file has a parent makes that directory first. -/
theorem writeNamespace_eq {root file parent : Path} {unit : UnitId} {text : String}
    (hfile : unit.sourceFile root = file) (hparent : file.parent? = some parent) :
    writeNamespace root unit text = (do
      Task.change (·.makeDirs parent) CommandError.io
      writeText file text
      return file) := by
  subst hfile
  unfold writeNamespace
  dsimp only
  rw [hparent]

/-- The source of a unit is written to its file once directories were made for it. -/
theorem exists_of_writeNamespace {root file : Path} {unit : UnitId} {text : String}
    (h : (writeNamespace root unit text).runIn s = (.ok file, s')) :
    ∃ mid : World, (mid = s.world ∨ ∃ parent, mid = (s.world.makeDirs parent).1) ∧
      mid.writeFile (unit.sourceFile root) text.toUTF8 = .ok s'.world := by
  unfold writeNamespace at h
  cases hparent : (unit.sourceFile root).parent? with
  | none =>
      simp only [hparent] at h
      obtain ⟨u, last, hwrite, h⟩ := Task.runIn_bind_eq_ok h
      rw [Task.runIn_pure, Prod.mk.injEq] at h
      exact ⟨s.world, Or.inl rfl, writeFile_of_writeText (h.2 ▸ hwrite)⟩
  | some parent =>
      simp only [hparent] at h
      obtain ⟨u, mid, hmake, h⟩ := Task.runIn_bind_eq_ok h
      obtain ⟨u', last, hwrite, h⟩ := Task.runIn_bind_eq_ok h
      rw [Task.runIn_pure, Prod.mk.injEq] at h
      have hworld : mid.world = (s.world.makeDirs parent).1 :=
        congrArg (fun result => result.2.world) hmake.symm
      exact ⟨mid.world, Or.inr ⟨parent, hworld⟩, writeFile_of_writeText (h.2 ▸ hwrite)⟩

/-- Writing the source of a unit leaves the files at other places as they are. -/
theorem writeNamespace_keeps {root file : Path} {unit : UnitId} {text : String} {loc : Location}
    (hclear : s.world.Unlinked (unit.sourceFile root))
    (hne : (unit.sourceFile root).placeFrom s.world.cwd ≠ loc)
    (h : (writeNamespace root unit text).runIn s = (.ok file, s')) :
    Renewed s.world s'.world ∧ Keeps (· = loc) s.world s'.world := by
  obtain ⟨mid, hmade, hwritten⟩ := exists_of_writeNamespace h
  have hdirs : Renewed s.world mid ∧ Keeps (· = loc) s.world mid := by
    rcases hmade with rfl | ⟨parent, rfl⟩
    · exact ⟨Std.Refl.refl _, Keeps.refl _⟩
    · exact ⟨makeDirs_renewed s.world parent, makeDirs_keeps s.world parent⟩
  obtain ⟨hrenewed, hkeeps⟩ := hdirs
  have hplace : (unit.sourceFile root).placeFrom mid.cwd ≠ loc := hrenewed.cwd ▸ hne
  exact ⟨Trans.trans hrenewed (writeFile_renewed hwritten),
    hkeeps.trans (writeFile_keeps (hrenewed.unlinked hclear) hplace hwritten)⟩

/-! ### The names of a new project -/

theorem namespaceChar_ne_underscore (c : Char) : namespaceChar c ≠ '_' := by
  unfold namespaceChar
  split
  · decide
  next hc =>
      intro hlower
      rw [Char.toLower] at hlower
      split at hlower
      next hupper =>
          have hval := congrArg (fun d : Char => d.val.toNat) hlower
          have hleast := UInt32.le_iff_toNat_le.1 hupper.1
          have hgreatest := UInt32.le_iff_toNat_le.1 hupper.2
          simp only [UInt32.toNat_add] at hval hleast hgreatest
          simp at hval hleast hgreatest
          omega
      · exact hc (by simp [hlower])

theorem underscore_not_mem_namespaceText (project : String) :
    '_' ∉ (namespaceText project).toList := by
  rw [namespaceText, String.toList_append, String.toList_ofList, List.mem_append, not_or]
  refine ⟨fun hin => ?_, by decide⟩
  obtain ⟨c, -, hc⟩ := List.mem_map.1 hin
  exact namespaceChar_ne_underscore c hc

theorem underscore_not_mem_suite {unit : UnitId} (h : starterNamespace name = .ok unit)
    (hunder : '_' ∉ (namespaceText name).toList) : '_' ∉ (unit.text ++ "-test").toList := by
  rw [(UnitId.text_of_parse h).2, String.toList_append, List.mem_append, not_or]
  exact ⟨hunder, by decide⟩

theorem namespaceChar_of_mem {unit : UnitId} (h : starterNamespace name = .ok unit) {c : Char}
    (hc : c ∈ name.toList) : Text.isBlank (namespaceChar c) = false ∧ namespaceChar c ≠ '\\' := by
  have hwell := (UnitId.text_of_parse h).1
  have hin : namespaceChar c ∈ (namespaceText name).toList := by
    rw [namespaceText, String.toList_append, String.toList_ofList]
    exact List.mem_append_left _ (List.mem_map_of_mem hc)
  simp only [UnitId.wellFormed, Bool.and_eq_true, List.all_eq_true] at hwell
  simpa using And.intro (hwell.2 _ hin).1.1 (hwell.2 _ hin).2

/-- A name whose namespace is well formed cannot reach into the next line of the configuration. -/
theorem quoted_of_starterNamespace {unit : UnitId} (h : starterNamespace name = .ok unit) :
    Toml.Quoted name.toList belowName.toList :=
  quoted_belowName
    ⟨fun hin => (namespaceChar_of_mem h hin).2 (by decide),
      fun hin => absurd (namespaceChar_of_mem h hin).1 (by decide)⟩
    (fun hin => absurd (namespaceChar_of_mem h hin).1 (by decide))

/-- In such a name the characters that may stand in a string are those that are neither quotes nor
control characters. -/
theorem isBasicChar_iff {unit : UnitId} (h : starterNamespace name = .ok unit) {c : Char}
    (hc : c ∈ name.toList) :
    Toml.isBasicChar c = true ↔ c ≠ '"' ∧ 0x20 ≤ c.toNat ∧ c.toNat ≠ 0x7f := by
  have htab : c ≠ '\t' := by
    rintro rfl
    exact absurd (namespaceChar_of_mem h hc).1 (by decide)
  have hbackslash : c ≠ '\\' := by
    rintro rfl
    exact (namespaceChar_of_mem h hc).2 (by decide)
  simp only [Toml.isBasicChar, htab, decide_false, Bool.false_or, Bool.and_eq_true,
    decide_eq_true_eq, hbackslash, not_false_eq_true, ne_eq, and_true]
  exact and_comm

theorem exists_descend_sourceFile {text : String} {unit : UnitId}
    (h : UnitId.parse text = .ok unit) (hunder : '_' ∉ text.toList) :
    ∃ names, names ≠ [] ∧ (∀ n ∈ names, Path.IsName n) ∧
      ∀ root, unit.sourceFile root = root.descend names := by
  obtain ⟨n, rfl⟩ := SourceName.exists_of_parse h ((UnitId.text_of_parse h).2 ▸ hunder)
  exact ⟨n.file, n.file_ne_nil, n.file_isName, n.sourceFile_unit⟩

/-! ### The parts of a run -/

/-- The name of the project in a directory. -/
def projectName (dir : Path) : String := (dir.fileName?.bind Octets.text?).getD fallbackName

/-- The first namespace of a project, and its suite. -/
def namespaces (project : String) : Except UnitId.Malformed (UnitId × UnitId) := do
  let unit ← starterNamespace project
  let suite ← suiteNamespace unit
  return (unit, suite)

theorem namespaces_eq_ok {project : String} {unit suite : UnitId}
    (h : namespaces project = .ok (unit, suite)) :
    starterNamespace project = .ok unit ∧ suiteNamespace unit = .ok suite := by
  obtain ⟨first, hfirst, h⟩ := Task.exists_of_bind_eq_ok h
  obtain ⟨second, hsecond, h⟩ := Task.exists_of_bind_eq_ok h
  cases h
  exact ⟨hfirst, hsecond⟩

/-- The namespaces of the project that a directory may be made, if it may be made one. -/
def admitted (w : World) (dir : Path) : Except CommandError (UnitId × UnitId) :=
  if w.pathExists (dir / Config.fileName) then .error (.configurationExists dir)
  else (namespaces (projectName dir)).mapError CommandError.badUnit

theorem admitted_eq_ok_iff {w : World} {dir : Path} {units : UnitId × UnitId} :
    admitted w dir = .ok units ↔ w.pathExists (dir / Config.fileName) = false ∧
      namespaces (projectName dir) = .ok units := by
  unfold admitted
  cases w.pathExists (dir / Config.fileName) with
  | true => simp
  | false =>
      rw [if_neg Bool.false_ne_true, Task.mapError_eq_ok_iff]
      simp

/-- Writes the files of a project. -/
def writeProject (settings : Settings) (dir : Path) (unit suite : UnitId) : Work Nat := do
  sayUnless settings.quiet ("  Creating new Kiln project \x60" ++ projectName dir ++ "\x60")
  writeText (dir / Config.fileName) (configText (projectName dir))
  let mainFile ← writeNamespace (dir / mainRoot) unit (mainSource unit)
  let suiteFile ← writeNamespace (dir / Layout.defaultTestRoot) suite (suiteSource suite unit)
  sayUnless settings.quiet ("     Created " ++ (dir / Config.fileName).display)
  sayUnless settings.quiet ("     Created " ++ mainFile.display)
  sayUnless settings.quiet ("     Created " ++ suiteFile.display)
  return 0

/-- A run makes the directory, asks whether it may be made a project, and writes the files. -/
theorem runIn_run (settings : Settings) (named : Option String) (s : Session) :
    (run settings named).runIn s =
      match (prepareDirectory named).runIn s with
      | (.error e, made) => (.error e, made)
      | (.ok dir, made) =>
          match admitted made.world dir with
          | .error e => (.error e, made)
          | .ok (unit, suite) => (writeProject settings dir unit suite).runIn made := by
  rw [run, Task.runIn_bind]
  rcases (prepareDirectory named).runIn s with ⟨result, made⟩
  cases result with
  | error e => rfl
  | ok dir =>
      simp only [admitted, namespaces, writeProject, projectName]
      rw [Task.runIn_bind, Task.runIn_look]
      cases made.world.pathExists (dir / Config.fileName) with
      | true => rfl
      | false =>
          simp only [Bool.false_eq_true, ↓reduceIte]
          rw [Task.runIn_bind, Task.runIn_ofExcept]
          cases hunit : starterNamespace ((dir.fileName?.bind Octets.text?).getD fallbackName) with
          | error e => rfl
          | ok unit =>
              rw [Task.mapError_ok, Task.ok_bind]
              simp only
              rw [Task.runIn_bind, Task.runIn_ofExcept]
              cases hsuite : suiteNamespace unit with
              | error e => rfl
              | ok suite => rfl

/-- A run fails as the directory is prepared, or as it is asked whether the directory may be made a
project, or else it goes on to write the files. -/
theorem run_cases (settings : Settings) (named : Option String) (s : Session) :
    (∃ e made, (prepareDirectory named).runIn s = (.error e, made) ∧
      (run settings named).runIn s = (.error e, made)) ∨
    (∃ dir made e, (prepareDirectory named).runIn s = (.ok dir, made) ∧
      admitted made.world dir = .error e ∧ (run settings named).runIn s = (.error e, made)) ∨
    ∃ dir made unit suite, (prepareDirectory named).runIn s = (.ok dir, made) ∧
      made.world.pathExists (dir / Config.fileName) = false ∧
      namespaces (projectName dir) = .ok (unit, suite) ∧
      (run settings named).runIn s = (writeProject settings dir unit suite).runIn made := by
  have hrun := runIn_run settings named s
  rcases hprepare : (prepareDirectory named).runIn s with ⟨result, made⟩
  rw [hprepare] at hrun
  cases result with
  | error e => exact Or.inl ⟨e, made, rfl, hrun⟩
  | ok dir =>
      cases hadmitted : admitted made.world dir with
      | error e =>
          simp only [hadmitted] at hrun
          exact Or.inr (Or.inl ⟨dir, made, e, rfl, hadmitted, hrun⟩)
      | ok units =>
          obtain ⟨unit, suite⟩ := units
          obtain ⟨hnew, hunits⟩ := admitted_eq_ok_iff.1 hadmitted
          simp only [hadmitted] at hrun
          exact Or.inr (Or.inr ⟨dir, made, unit, suite, rfl, hnew, hunits, hrun⟩)

/-- The directory of a named project is made unless the name leads to something. -/
theorem runIn_prepareDirectory_some (name : String) (s : Session) :
    (prepareDirectory (some name)).runIn s =
      if s.world.pathExists (.ofText name) then (.error (.directoryExists name), s)
      else ((s.world.makeDirs (.ofText name)).2.mapError CommandError.io |>.map fun _ =>
          .ofText name,
        { s with world := (s.world.makeDirs (.ofText name)).1 }) := by
  rw [prepareDirectory, Task.runIn_bind, Task.runIn_look]
  cases s.world.pathExists (.ofText name) with
  | true => rfl
  | false =>
      simp only [Bool.false_eq_true, ↓reduceIte]
      rw [Task.runIn_bind, Task.runIn_change]
      cases (s.world.makeDirs (.ofText name)).2 <;> rfl

/-- A directory that was prepared under a name is the one that was made for it. -/
theorem exists_of_prepareDirectory_some {name : String} {dir : Path}
    (h : (prepareDirectory (some name)).runIn s = (.ok dir, s')) :
    s.world.pathExists (.ofText name) = false ∧ dir = .ofText name ∧
      (s.world.makeDirs (.ofText name)).2 = .ok () ∧
      s' = { s with world := (s.world.makeDirs (.ofText name)).1 } := by
  rw [runIn_prepareDirectory_some] at h
  cases hnew : s.world.pathExists (.ofText name) with
  | true => simp [hnew] at h
  | false =>
      rw [hnew, if_neg Bool.false_ne_true, Prod.mk.injEq] at h
      cases hmake : (s.world.makeDirs (.ofText name)).2 with
      | error cause => simp [hmake, Except.map] at h
      | ok u =>
          rw [hmake] at h
          exact ⟨rfl, (Except.ok.inj h.1).symm, rfl, h.2.symm⟩

/-! ### The whole command -/

theorem fresh_of_prepareDirectory {dir : Path} (htree : s.world.IsTree) (hname : Path.IsName name)
    (h : (prepareDirectory (some name)).runIn s = (.ok dir, s')) :
    dir = .ofText name ∧ s'.world.Fresh (Octets.ofText name) := by
  obtain ⟨hnew, hdir, hmake, rfl⟩ := exists_of_prepareDirectory_some h
  exact ⟨hdir, fresh_of_makeDirs htree hname.ofText hnew hmake⟩

/-- A successful run makes the directory and writes three files to it: the configuration, the first
namespace and its suite. -/
theorem exists_of_run {named : Option String} {code : Nat}
    (h : (run settings named).runIn s = (.ok code, s')) :
    ∃ (dir : Path) (made configured begun : Session) (unit suite : UnitId) (file file' : Path)
      (last : Session),
      (prepareDirectory named).runIn s = (.ok dir, made) ∧
      made.world.pathExists (dir / Config.fileName) = false ∧
      starterNamespace (projectName dir) = .ok unit ∧
      suiteNamespace unit = .ok suite ∧
      made.world.writeFile (dir / Config.fileName) (configText (projectName dir)).toUTF8 =
        .ok configured.world ∧
      (writeNamespace (dir / mainRoot) unit (mainSource unit)).runIn configured =
        (.ok file, begun) ∧
      (writeNamespace (dir / Layout.defaultTestRoot) suite (suiteSource suite unit)).runIn begun =
        (.ok file', last) ∧
      s'.world = last.world := by
  obtain ⟨e, made, -, hrun⟩ | ⟨dir, made, e, -, -, hrun⟩ |
    ⟨dir, made, unit, suite, hprepare, hnew, hunits, hrun⟩ := run_cases settings named s
  · rw [hrun] at h
    exact absurd (Prod.mk.inj h).1 (by simp)
  · rw [hrun] at h
    exact absurd (Prod.mk.inj h).1 (by simp)
  · rw [hrun, writeProject] at h
    obtain ⟨hunit, hsuite⟩ := namespaces_eq_ok hunits
    obtain ⟨_, told, hsay, h⟩ := Task.runIn_bind_eq_ok h
    obtain ⟨_, configured, hconfig, h⟩ := Task.runIn_bind_eq_ok h
    obtain ⟨file, begun, hmain, h⟩ := Task.runIn_bind_eq_ok h
    obtain ⟨file', last, htest, h⟩ := Task.runIn_bind_eq_ok h
    have hwrite := writeFile_of_writeText hconfig
    rw [world_sayUnless hsay] at hwrite
    have hsaid : s'.world = last.world := by
      obtain ⟨_, mid₃, hfirst, h⟩ := Task.runIn_bind_eq_ok h
      obtain ⟨_, mid₄, hnext, h⟩ := Task.runIn_bind_eq_ok h
      obtain ⟨_, mid₅, hlast, h⟩ := Task.runIn_bind_eq_ok h
      rw [Task.runIn_pure, Prod.mk.injEq] at h
      rw [← h.2, world_sayUnless hlast, world_sayUnless hnext, world_sayUnless hfirst]
    exact ⟨dir, made, configured, begun, unit, suite, file, file', last, hprepare, hnew, hunit,
      hsuite, hwrite, hmain, htest, hsaid⟩

/-! ### Below the new directory -/

/-- A text that spells one or more names. -/
def SpellsNames (text : String) : Prop :=
  ∃ names, names ≠ [] ∧ (∀ n ∈ names, Path.IsName n) ∧ Path.ofPieces names = ⟨text⟩

theorem SpellsNames.exists_descend {text : String} (h : SpellsNames text) (p : Path) :
    ∃ names, names ≠ [] ∧ (∀ n ∈ names, Path.IsName n) ∧ p / text = p.descend names := by
  obtain ⟨names, hne, hnames, htext⟩ := h
  refine ⟨names, hne, hnames, ?_⟩
  rw [← Path.join_ofPieces p hne hnames, htext]
  rfl

theorem spellsNames_mainRoot : SpellsNames mainRoot :=
  ⟨["src", "main", "clojure"], by decide, by decide, by decide⟩

theorem spellsNames_testRoot : SpellsNames Layout.defaultTestRoot :=
  ⟨["src", "test", "clojure"], by decide, by decide, by decide⟩

/-- A source file below a root goes down by more than one name. -/
theorem exists_descend_source (p : Path) {root text : String} {unit : UnitId}
    (hroot : SpellsNames root) (hunit : UnitId.parse text = .ok unit) (hunder : '_' ∉ text.toList) :
    ∃ names, 1 < names.length ∧ (∀ n ∈ names, Path.IsName n) ∧
      unit.sourceFile (p / root) = p.descend names := by
  obtain ⟨above, hne, habove, hpath⟩ := hroot.exists_descend p
  obtain ⟨names, hnonempty, hnames, hfile⟩ := exists_descend_sourceFile hunit hunder
  refine ⟨above ++ names, ?_, fun n hn => ?_, ?_⟩
  · have habove' := List.length_pos_iff.2 hne
    have hnames' := List.length_pos_iff.2 hnonempty
    rw [List.length_append]
    omega
  · exact (List.mem_append.1 hn).elim (habove n) (hnames n)
  · rw [hfile, hpath, ← Path.descend_append]

section

variable {w w' : World}

theorem unlinked_of_fresh (hfresh : w.Fresh name) (hname : Path.IsName name) {text : String}
    (htext : SpellsNames text) : w.Unlinked ((⟨name⟩ : Path) / text) := by
  obtain ⟨names, -, hnames, hpath⟩ := htext.exists_descend ⟨name⟩
  rw [hpath]
  exact hfresh.unlinked hname hnames

/-- A source file of the new project is below its directory, and deeper than the configuration. -/
theorem sourceFile_apart (hfresh : w.Fresh name) (hname : Path.IsName name) {root text : String}
    {unit : UnitId} (hroot : SpellsNames root) (hunit : UnitId.parse text = .ok unit)
    (hunder : '_' ∉ text.toList) :
    w.Unlinked (unit.sourceFile ((⟨name⟩ : Path) / root)) ∧
      (unit.sourceFile ((⟨name⟩ : Path) / root)).placeFrom w.cwd ≠
        ((⟨name⟩ : Path) / Config.fileName).placeFrom w.cwd := by
  obtain ⟨names, hlong, hnames, hfile⟩ := exists_descend_source ⟨name⟩ hroot hunit hunder
  have hconfig : ∀ n ∈ [Config.fileName], Path.IsName n := by decide
  rw [hfile]
  refine ⟨hfresh.unlinked hname hnames, fun heq => ?_⟩
  change _ = ((⟨name⟩ : Path).descend [Config.fileName]).placeFrom w.cwd at heq
  rw [placeFrom_descend _ hnames, placeFrom_descend _ hconfig] at heq
  have hlength := congrArg List.length heq
  simp only [List.length_append, List.length_reverse, List.length_singleton] at hlength
  omega

/-- Writing a source file of the new project leaves its configuration as it is. -/
theorem writeSource_keeps (hfresh : w.Fresh name) (hname : Path.IsName name) {root text : String}
    {unit : UnitId} (hroot : SpellsNames root) (hunit : UnitId.parse text = .ok unit)
    (hunder : '_' ∉ text.toList) (hrenewed : Renewed w s.world) {file : Path} {source : String}
    (h : (writeNamespace ((⟨name⟩ : Path) / root) unit source).runIn s = (.ok file, s')) :
    Renewed s.world s'.world ∧
      Keeps (· = ((⟨name⟩ : Path) / Config.fileName).placeFrom w.cwd) s.world s'.world := by
  obtain ⟨hclear, hapart⟩ := sourceFile_apart hfresh hname hroot hunit hunder
  refine writeNamespace_keeps (hrenewed.unlinked hclear) ?_ h
  rwa [hrenewed.cwd]

end

theorem projectName_ofText (hname : Path.IsName name) : projectName (.ofText name) = name := by
  have hdiv : (⟨""⟩ : Path) / Octets.ofText name = .ofText name := ofPieces_name hname.ofText
  rw [projectName, ← hdiv, Path.fileName?_div _ hname.ofText, Option.bind_some,
    Octets.text?_ofText, Option.getD_some]

/-- What is loaded from a new project is the configuration that was written. -/
theorem load_of_run {code : Nat} (htree : s.world.IsTree) (hname : Path.IsName name)
    (h : (run settings (some name)).runIn s = (.ok code, s')) :
    Config.load s'.world (.ofText name) = Config.ofText (configText name) ∧
      ∃ unit, starterNamespace name = .ok unit := by
  obtain ⟨dir, made, configured, begun, unit, suite, file, file', last, hprepare, hnew, hunit,
    hsuite, hwrite, hmain, htest, hlast⟩ := exists_of_run h
  obtain ⟨rfl, hfresh⟩ := fresh_of_prepareDirectory htree hname hprepare
  rw [projectName_ofText hname] at hunit hwrite
  have hoctets := hname.ofText
  have hclear : made.world.Unlinked (Path.ofText name / Config.fileName) :=
    unlinked_of_fresh hfresh hoctets ⟨[Config.fileName], by decide, by decide, by decide⟩
  have hdevice : ¬ made.world.LeadsToDevice (Path.ofText name / Config.fileName) := by
    rintro ⟨loc, t, hstat⟩
    rw [pathExists, hstat] at hnew
    exact absurd hnew (by simp)
  have hunder := underscore_not_mem_namespaceText name
  have hunderSuite := underscore_not_mem_suite hunit hunder
  have hrenewed := writeFile_renewed hwrite
  obtain ⟨hrenewed₁, hkeeps₁⟩ :=
    writeSource_keeps hfresh hoctets spellsNames_mainRoot hunit hunder hrenewed hmain
  obtain ⟨hrenewed₂, hkeeps₂⟩ :=
    writeSource_keeps hfresh hoctets spellsNames_testRoot hsuite hunderSuite
      (Trans.trans hrenewed hrenewed₁) htest
  obtain ⟨loc, t, x, hstat⟩ := exists_stat_of_writeFile hfresh.standing hclear hdevice hwrite
    (Trans.trans hrenewed₁ hrenewed₂) (hkeeps₁.trans hkeeps₂)
  refine ⟨?_, unit, hunit⟩
  rw [Config.load, hlast, readText_of_stat hstat, Task.mapError_ok, Task.ok_bind]

/-- A new project is loaded under the name of its directory exactly when that name holds neither
quotes nor control characters. -/
theorem load_scaffold_iff {code : Nat} (htree : s.world.IsTree) (hname : Path.IsName name)
    (h : (run settings (some name)).runIn s = (.ok code, s')) :
    (∃ config, Config.load s'.world (.ofText name) = .ok config ∧ config.project.name = name) ↔
      ∀ c ∈ name.toList, c ≠ '"' ∧ 0x20 ≤ c.toNat ∧ c.toNat ≠ 0x7f := by
  obtain ⟨hload, unit, hunit⟩ := load_of_run htree hname h
  have hne : name ≠ "" := by
    rintro rfl
    exact hname.nonempty rfl
  rw [hload, ofText_configText_iff hne (quoted_of_starterNamespace hunit)]
  exact forall₂_congr fun c hc => isBasicChar_iff hunit hc

theorem run_quote : ((run default (some "\"")).runIn ⟨⟨[], [], 0⟩, []⟩).1.isOk = true := by
  have hprepare : (prepareDirectory (some "\"")).runIn ⟨⟨[], [], 0⟩, []⟩ =
      (.ok ⟨"\""⟩, ⟨⟨[([], .dir 0), (["\""], .dir 0)], [], 0⟩, []⟩) := by cbv
  have hadmitted : admitted ⟨[([], .dir 0), (["\""], .dir 0)], [], 0⟩ ⟨"\""⟩ =
      .ok (⟨"\".core"⟩, ⟨"\".core-test"⟩) :=
    admitted_eq_ok_iff.2 ⟨by decide +kernel, rfl⟩
  have hmain : UnitId.sourceFile ⟨"\".core"⟩ ((⟨"\""⟩ : Path) / mainRoot) =
      ⟨"\"/src/main/clojure/\"/core.clj"⟩ := by decide +kernel
  have hsuite : UnitId.sourceFile ⟨"\".core-test"⟩ ((⟨"\""⟩ : Path) / Layout.defaultTestRoot) =
      ⟨"\"/src/test/clojure/\"/core_test.clj"⟩ := by decide +kernel
  have hmainParent : (⟨"\"/src/main/clojure/\"/core.clj"⟩ : Path).parent? =
      some ⟨"\"/src/main/clojure/\""⟩ := by decide +kernel
  have hsuiteParent : (⟨"\"/src/test/clojure/\"/core_test.clj"⟩ : Path).parent? =
      some ⟨"\"/src/test/clojure/\""⟩ := by decide +kernel
  rw [runIn_run, hprepare]
  simp only [hadmitted, writeProject, writeNamespace_eq hmain hmainParent,
    writeNamespace_eq hsuite hsuiteParent]
  decide +kernel

/-- A new project whose directory is named by a quote is made, but not loaded under its name. -/
theorem load_scaffold_iff_quote :
    ∃ (s s' : Session) (code : Nat), s.world.IsTree ∧ Path.IsName "\"" ∧
      (run default (some "\"")).runIn s = (.ok code, s') ∧
      ¬ ∃ config, Config.load s'.world ⟨"\""⟩ = .ok config ∧ config.project.name = "\"" := by
  have htree : (⟨[], [], 0⟩ : World).IsTree := by decide
  have hname : Path.IsName "\"" := by decide
  have hquote : ¬ ∀ c ∈ "\"".toList, c ≠ '"' ∧ 0x20 ≤ c.toNat ∧ c.toNat ≠ 0x7f :=
    fun hall => (hall '"' (by simp)).1 rfl
  have hends : ∀ {result : Except CommandError Nat × Session}, result.1.isOk = true →
      ∃ code s', result = (.ok code, s') := by
    rintro ⟨e | code, s'⟩ h
    · exact absurd h Bool.false_ne_true
    · exact ⟨code, s', rfl⟩
  obtain ⟨code, s', hrun⟩ := hends run_quote
  exact ⟨_, s', code, htree, hname, hrun, mt (load_scaffold_iff htree hname hrun).1 hquote⟩

end ClojureBuild.Cli.Init
