import ClojureBuild.Cli.Project
import ClojureBuild.Proofs.Coordinate
import ClojureBuild.Proofs.Path.Shown
import ClojureBuild.Proofs.Session
import Mathlib.Data.List.Forall2
/-!
What the classpath entries of a configuration stand for.

An entry is read twice: the layout of a project asks whether it is a coordinate, in which case it
stays as it was written, and puts it below the project directory otherwise; and the classpath reads
the text that comes out of this once more.  A path that was put below a directory holds a separator,
and one that is seen from the empty directory stays as it was written.  Main statement: both
readings agree, for every project directory and every text, up to what a path that is no text loses
when it is shown.
-/

namespace ClojureBuild

/-- A path below one that is not empty holds a separator. -/
theorem Path.slash_mem_join {p : Path} (hp : p.text ≠ "") (q : Path) :
    '/' ∈ (p.join q).text.toList := by
  have hne : p.text.toList ≠ [] := by simpa using hp
  rw [join, String.toList_ofList, joinChars]
  split
  next hroot => exact List.mem_of_mem_head? hroot
  · split
    next hended =>
        exact List.mem_append_left _ (List.mem_of_getLast? (hended.resolve_left hne))
    · simp

theorem Path.empty_join (q : Path) : (⟨""⟩ : Path).join q = q := by
  have hchars : joinChars [] q.text.toList = q.text.toList := by simp [joinChars]
  rw [join, String.toList_empty, hchars, String.ofList_toList]

/-! ### The home directory -/

theorem expandHome_append (home : Path) (rest : String) :
    expandHome (some home) ("~/" ++ rest) = home / Path.ofText rest := by
  have hdrop : Text.dropFront? ['~', '/'] ("~/" ++ rest).toList = some rest.toList :=
    Text.dropFront?_eq_some_iff.2 String.toList_append
  unfold expandHome
  rw [hdrop]
  simp only [String.ofList_toList]

/-- Without a home directory, or without `~/` in front, a text is the path that it spells. -/
theorem expandHome_of_ne {home : Option Path} {text : String}
    (h : home = none ∨ ∀ rest, text ≠ "~/" ++ rest) : expandHome home text = .ofText text := by
  unfold expandHome
  split
  next rest dir hrest =>
      refine absurd ?_ (h.resolve_left (by simp) (String.ofList rest))
      rw [← String.toList_inj, Text.dropFront?_eq_some_iff.1 hrest]
      simp
  · rfl

/-- A text is either one that the home directory is put into or one that it is not. -/
theorem expandHome_cases (home : Option Path) (text : String) :
    (∃ dir rest, home = some dir ∧ text = "~/" ++ rest) ∨
      home = none ∨ ∀ rest, text ≠ "~/" ++ rest := by
  cases home with
  | none => exact Or.inr (Or.inl rfl)
  | some dir =>
      by_cases hfront : ∃ rest, text = "~/" ++ rest
      · obtain ⟨rest, hrest⟩ := hfront
        exact Or.inl ⟨dir, rest, rfl, hrest⟩
      · exact Or.inr (Or.inr (not_exists.1 hfront))

/-- A home directory that is none the empty path. -/
def HomeNamed (home : Option Path) : Prop := ∀ dir, home = some dir → dir.text ≠ ""

theorem text_expandHome_eq_empty_iff {home : Option Path} (hhome : HomeNamed home)
    {text : String} : (expandHome home text).text = "" ↔ text = "" := by
  rcases expandHome_cases home text with ⟨dir, rest, rfl, rfl⟩ | hplain
  · rw [expandHome_append]
    refine iff_of_false (fun hempty => ?_) (by simp)
    have hslash := Path.slash_mem_join (hhome dir rfl) (.ofText rest)
    rw [show (dir.join (.ofText rest)).text = "" from hempty] at hslash
    simp at hslash
  · rw [expandHome_of_ne hplain]
    exact Octets.ofText_eq_empty_iff

theorem Cli.Environment.homeNamed (env : Environment) : HomeNamed env.home := by
  intro dir hdir hempty
  obtain ⟨named, -, hnamed⟩ := List.exists_of_findSome?_eq_some hdir
  obtain ⟨-, hne⟩ := Option.filter_eq_some_iff.1 hnamed
  exact (of_decide_eq_true hne) (congrArg Path.mk hempty)

/-- A run that finds nothing around it but a home directory. -/
def Cli.Environment.homed (home : OsText) : Environment := ⟨[("HOME", home)], none⟩

namespace Layout

variable {w : World} {home : Option Path} {dir : Path} {around : Surroundings}
  {config : ProjectConfig}

/-! ### One entry -/

theorem spells_eq_false_of_slash {text : String} (h : '/' ∈ text.toList) :
    Coordinate.spells text = false := by
  rw [Bool.eq_false_iff]
  exact fun hspells => (Coordinate.spells_iff.1 hspells).1 h

/-- A path does not turn into a coordinate when it is put below a directory. -/
theorem spells_placed (hhome : HomeNamed home) {text : String}
    (h : Coordinate.spells text = false) :
    Coordinate.spells (dir / expandHome home text).display = false := by
  have hslash : ∀ {p : Path}, '/' ∈ p.text.toList → Coordinate.spells p.display = false :=
    fun hin => spells_eq_false_of_slash (Octets.mem_toText_of_mem (by decide) hin)
  by_cases hdir : dir.text = ""
  · obtain rfl : dir = ⟨""⟩ := congrArg Path.mk hdir
    rw [show (⟨""⟩ : Path) / expandHome home text = expandHome home text from Path.empty_join _]
    rcases expandHome_cases home text with ⟨base, rest, rfl, rfl⟩ | hplain
    · rw [expandHome_append]
      exact hslash (Path.slash_mem_join (hhome base rfl) (.ofText rest))
    · rw [expandHome_of_ne hplain, Path.display, Path.ofText, Octets.toText_ofText]
      exact h
  · exact hslash (Path.slash_mem_join hdir (expandHome home text))

/-- A text that is placed is read as before if it is a coordinate, and else as a path below the
directory. -/
theorem parse_placeEntry (hhome : HomeNamed home) (dir : Path) (text : String) :
    ClasspathEntry.parse (placeEntry home dir text) =
      if Coordinate.spells text then ClasspathEntry.parse text
      else .path (dir / expandHome home text).shown := by
  rw [placeEntry]
  split
  · rfl
  next hspells =>
      exact ClasspathEntry.parse_eq_path_iff.2
        ⟨spells_placed hhome (Bool.eq_false_iff.2 hspells), rfl⟩

/-- Source entries are placed one by one, and each has to exist. -/
theorem placeSources_eq_ok_iff {entries : List String} {sources : List Path} :
    placeSources w dir entries = .ok sources ↔ sources = entries.map (dir / Path.ofText ·) ∧
      ∀ entry ∈ entries, w.pathExists (dir / Path.ofText entry) = true := by
  induction entries generalizing sources with
  | nil => exact ⟨fun h => ⟨(Except.ok.inj h).symm, by simp⟩, fun h => h.1 ▸ rfl⟩
  | cons entry rest ih =>
      rw [List.forall_mem_cons, List.map_cons, placeSources]
      by_cases hthere : w.pathExists (dir / Path.ofText entry) = true
      · rw [if_pos hthere, and_iff_right hthere]
        cases hrest : placeSources w dir rest with
        | error e =>
            refine iff_of_false (by simp [bind, Except.bind]) fun hboth => ?_
            exact absurd (ih.2 ⟨rfl, hboth.2⟩) (by simp [hrest])
        | ok others =>
            obtain ⟨rfl, hall⟩ := ih.1 hrest
            exact ⟨fun h => ⟨(Except.ok.inj h).symm, hall⟩, fun h => h.1 ▸ rfl⟩
      · simp [hthere]

theorem exists_placeSources_iff {entries : List String} :
    (∃ sources, placeSources w dir entries = .ok sources) ↔
      ∀ entry ∈ entries, w.pathExists (dir / Path.ofText entry) = true := by
  simp only [placeSources_eq_ok_iff, exists_eq_left]

/-- A project has a layout when each source entry that is configured exists. -/
theorem exists_resolve_iff :
    (∃ layout, Layout.resolve w around config dir = .ok layout) ↔
      ∀ entries, config.project.sources = some entries →
        ∀ entry ∈ entries, w.pathExists (dir / Path.ofText entry) = true := by
  rw [Layout.resolve]
  cases config.project.sources with
  | none => simp [bind, Except.bind, pure, Except.pure]
  | some entries =>
      simp only [Option.some.injEq, forall_eq']
      rw [← exists_placeSources_iff]
      cases placeSources w dir entries <;> simp [bind, Except.bind, pure, Except.pure]

/-- Only the sources of a layout depend on what exists. -/
theorem exists_of_resolve {layout : Layout}
    (h : Layout.resolve w around config dir = .ok layout) :
    ∃ sources, (match config.project.sources with
        | some entries => placeSources w dir entries
        | none => .ok ((defaultSources.map fun (d : String) => dir / d).filter w.isDir)) =
          .ok sources ∧
      layout = {
        sources
        target := dir / Path.ofText (config.project.target.getD defaultTarget)
        dependencies := config.project.dependencies.map (placeEntry around.home dir)
        runtime := config.runtime.map (placeEntry around.home dir)
        testRoot := dir / Path.ofText (config.test.sources.getD defaultTestRoot) } := by
  rw [Layout.resolve] at h
  cases hconfigured : config.project.sources with
  | some entries =>
      rw [hconfigured] at h
      obtain ⟨sources, hsources, hlayout⟩ := Task.exists_of_bind_eq_ok h
      exact ⟨sources, hsources, (Except.ok.inj hlayout).symm⟩
  | none =>
      rw [hconfigured] at h
      exact ⟨_, rfl, (Except.ok.inj h).symm⟩

theorem entries_of_resolve {layout : Layout}
    (h : Layout.resolve w around config dir = .ok layout) :
    layout.dependencies = config.project.dependencies.map (placeEntry around.home dir) ∧
      layout.runtime = config.runtime.map (placeEntry around.home dir) := by
  obtain ⟨sources, -, rfl⟩ := exists_of_resolve h
  exact ⟨rfl, rfl⟩

theorem roots_of_resolve {layout : Layout}
    (h : Layout.resolve w around config dir = .ok layout) :
    layout.target = dir / Path.ofText (config.project.target.getD defaultTarget) ∧
      layout.testRoot = dir / Path.ofText (config.test.sources.getD defaultTestRoot) := by
  obtain ⟨sources, -, rfl⟩ := exists_of_resolve h
  exact ⟨rfl, rfl⟩

/-- The sources of a layout are the entries that are configured, all of which exist, or else those
of the default ones that are directories. -/
theorem sources_of_resolve {layout : Layout}
    (h : Layout.resolve w around config dir = .ok layout) :
    (∃ entries, config.project.sources = some entries ∧
        layout.sources = entries.map (dir / Path.ofText ·) ∧
          ∀ entry ∈ entries, w.pathExists (dir / Path.ofText entry) = true) ∨
      config.project.sources = none ∧
        layout.sources = (defaultSources.map fun (d : String) => dir / d).filter w.isDir := by
  obtain ⟨sources, hsources, rfl⟩ := exists_of_resolve h
  cases hconfigured : config.project.sources with
  | some entries =>
      rw [hconfigured] at hsources
      exact Or.inl ⟨entries, rfl, placeSources_eq_ok_iff.1 hsources⟩
  | none =>
      rw [hconfigured] at hsources
      exact Or.inr ⟨rfl, (Except.ok.inj hsources).symm⟩

end Layout

end ClojureBuild
