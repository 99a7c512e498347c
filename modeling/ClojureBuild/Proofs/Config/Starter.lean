import ClojureBuild.Cli.Init
import ClojureBuild.Proofs.Session
import ClojureBuild.Proofs.Toml.Strings
import Mathlib
/-!
Reading the configuration of a new project.

The name of the project is put between quotes as it is.  It is read back exactly when every
character of it may stand for itself in a string; a quote or a control character makes the text no
document, or one that names another project.
-/

namespace ClojureBuild.Cli.Init

open Toml

/-- The text of the configuration below the line of the name. -/
def belowName : String :=
  "version = \"0.1.0\"\n\n[clojure]\nspec = \"" ++ String.intercalate "" defaultRuntime ++
    "\"\n\n[cljc]\n\n[test]\ninclude = []\nexclude = []\n"

theorem toList_configText (name : String) :
    (configText name).toList =
      "[project]\nname = ".toList ++ '"' :: (name.toList ++ '"' :: '\n' :: belowName.toList) := by
  unfold configText belowName
  generalize String.intercalate "" defaultRuntime = spec
  simp

/-- The document behind its first line. -/
def opened : Draft := ⟨["project"], [("project", .table false false [])]⟩

/-- The document behind the line of the name. -/
def named (name : String) : Draft :=
  ⟨["project"], [("project", .table false false [("name", .value (.text name))])]⟩

/-- The whole document. -/
def written (name : String) : Draft where
  path := ["test"]
  root := [
    ("project", .table false false
      [("name", .value (.text name)), ("version", .value (.text "0.1.0"))]),
    ("clojure", .table false false
      [("spec", .value (.text (String.intercalate "" defaultRuntime)))]),
    ("cljc", .table false false []),
    ("test", .table false false [("include", .list []), ("exclude", .list [])])]

/-- The table that the document spells. -/
def entries (name : String) : List (String × Value) := [
  ("cljc", .table []),
  ("clojure", .table [("spec", .text (String.intercalate "" defaultRuntime))]),
  ("project", .table [("name", .text name), ("version", .text "0.1.0")]),
  ("test", .table [("exclude", .array []), ("include", .array [])])]

/-- What a new project is configured to be. -/
def starterConfig (name : String) : ProjectConfig :=
  { ProjectConfig.blank with
    project := { ProjectMeta.blank with name, version := "0.1.0" }
    runtime := [String.intercalate "" defaultRuntime] }

/-! ### Line by line -/

theorem lines_opened (fuel : Nat) (rest : List Char) :
    lines (fuel + 1) ⟨[], []⟩ ("[project]\nname = ".toList ++ rest) =
      lines fuel opened ("name = ".toList ++ rest) := by
  rfl

theorem key_name (rest : List Char) :
    key ("name = ".toList ++ rest) = some (["name"], '=' :: ' ' :: rest) := by
  rfl

theorem assign_name (name : String) :
    Section.assign opened.path ["name"] (.value (.text name)) opened.root =
      some (named name).root := by
  rfl

theorem value_of_quote (depth : Nat) (text : List Char) :
    value depth ('"' :: text) =
      (string ('"' :: text)).bind fun read => some (.value (.text read.1), read.2) := by
  have hplain : value.plain ('"' :: text) =
      (string ('"' :: text)).bind fun read => some (.value (.text read.1), read.2) := by
    simp [value.plain, scalar, Option.bind_assoc]
  cases depth with
  | zero => exact hplain
  | succ depth => exact hplain

theorem line_name (rest : List Char) :
    line opened ("name = ".toList ++ '"' :: rest) =
      (string ('"' :: rest)).bind fun read =>
        (lineEnd read.2).bind fun behind => some (named read.1, behind.2) := by
  have hkey := key_name ('"' :: rest)
  obtain ⟨text, htext⟩ : ∃ text, "name = ".toList ++ '"' :: rest = 'n' :: text := ⟨_, rfl⟩
  rw [htext] at hkey ⊢
  simp only [line, hkey, Option.bind_eq_bind, Option.bind_some, Reader.exactly, ↓reduceIte, blanks]
  simp [isBlankChar, value_of_quote, Option.bind_assoc, assign_name]
  rfl

/-- Reading the line of the name is reading a string and the end of the line. -/
theorem lines_name (fuel : Nat) (rest : List Char) :
    lines (fuel + 1) opened ("name = ".toList ++ '"' :: rest) =
      (string ('"' :: rest)).bind fun read =>
        (lineEnd read.2).bind fun behind => lines fuel (named read.1) behind.2 := by
  have hline := line_name rest
  obtain ⟨text, htext⟩ : ∃ text, "name = ".toList ++ '"' :: rest = 'n' :: text := ⟨_, rfl⟩
  rw [htext] at hline ⊢
  have hblank : ('n' :: text).dropWhile isBlankChar = 'n' :: text := by simp [isBlankChar]
  simp only [lines, hblank, hline]
  cases string ('"' :: rest) with
  | none => rfl
  | some read =>
      rw [Option.bind_some, Option.bind_some]
      cases lineEnd read.2 <;> rfl

theorem lines_belowName (name : String) :
    lines 12 (named name) belowName.toList = some (written name) := by
  cbv

theorem finish_written (name : String) :
    (Section.finishEntries (written name).root).map Section.inOrder = some (entries name) := by
  unfold written entries
  generalize String.intercalate "" defaultRuntime = spec
  simp only [Section.finishEntries, Section.finish, Section.finishTable, Section.finishList,
    Section.momentKey, Section.inOrder, sortBy, insertBy, List.foldl_cons, List.foldl_nil,
    Option.map_some, decide_true, decide_false, Bool.false_eq_true, String.reduceEq,
    String.reduceLT, ↓reduceIte]

/-! ### The whole text -/

/-- Reading the text is reading the name, and then the rest of the lines. -/
theorem parse?_configText (name : String) :
    ∃ fuel, parse? (configText name) =
      (string ('"' :: (name.toList ++ '"' :: '\n' :: belowName.toList))).bind fun read =>
        (lineEnd read.2).bind fun behind =>
          (lines (12 + fuel) (named read.1) behind.2).bind fun draft =>
            (Section.finishEntries draft.root).map Section.inOrder := by
  have hchars := toList_configText name
  generalize name.toList ++ '"' :: '\n' :: belowName.toList = rest at hchars ⊢
  obtain ⟨more, hmore⟩ : ∃ more, "[project]\nname = ".toList ++ '"' :: rest = '[' :: more :=
    ⟨_, rfl⟩
  have hlong : 13 ≤ ('[' :: more).length := by
    rw [← hmore]
    simp
  obtain ⟨fuel, hfuel⟩ := Nat.exists_eq_add_of_le hlong
  have hfuel' : ('[' :: more).length + 1 = 12 + fuel + 1 + 1 := by omega
  refine ⟨fuel, ?_⟩
  have hfirst : ¬ '['.toNat = 0xfeff := by decide
  simp only [parse?, hchars, hmore, hfirst, ↓reduceIte, hfuel']
  rw [← hmore, lines_opened, lines_name]
  simp only [Option.bind_eq_bind, Option.bind_assoc, Option.map_eq_bind]
  rfl

/-- The text of a name that stands for itself spells the table of that name. -/
theorem parse?_of_basic {name : String} (hname : name ≠ "")
    (hall : ∀ c ∈ name.toList, isBasicChar c = true) :
    parse? (configText name) = some (entries name) := by
  obtain ⟨fuel, hparse⟩ := parse?_configText name
  have hstring := string_of_basic (by simpa using hname) hall ('\n' :: belowName.toList)
  have hend : lineEnd ('\n' :: belowName.toList) = some ((), belowName.toList) := by
    simp [lineEnd, blanks, isBlankChar, Reader.optional, comment, newline]
  rw [hparse, hstring]
  simp [hend, lines_add (lines_belowName name) fuel, finish_written]

theorem quoted_belowName {line : List Char} (hline : Literal line) (hbreak : '\n' ∉ line) :
    Quoted line belowName.toList := by
  have hbelow : ('\\' ∉ belowName.toList ∧ '\r' ∉ belowName.toList) ∧
      ¬ List.replicate 3 '"' <:+: belowName.toList := by
    decide +kernel
  exact ⟨hline.append ⟨hbelow.1.1, hbelow.1.2⟩, hbreak, hbelow.2⟩

/-- Whatever name is read, the table is the one of that name; and it is the name that was written
only if every character of it stands for itself. -/
theorem exists_of_parse? {name : String} {found : List (String × Value)}
    (hquoted : Quoted name.toList belowName.toList) (h : parse? (configText name) = some found) :
    ∃ read, found = entries read ∧
      (read = name → ∀ c ∈ name.toList, isBasicChar c = true) := by
  obtain ⟨fuel, hparse⟩ := parse?_configText name
  rw [hparse] at h
  obtain ⟨⟨read, rest⟩, hstring, h⟩ := Option.bind_eq_some_iff.1 h
  obtain ⟨⟨⟨⟩, below⟩, hend, h⟩ := Option.bind_eq_some_iff.1 h
  obtain ⟨⟨front, hfront, rfl⟩, hsame⟩ := exists_front_of_string hquoted hstring
  have hbelow : below = belowName.toList := by
    refine eq_of_lineEnd (fun hin => ?_) (fun hin => ?_) hend
    · rcases List.mem_append.1 (hfront.subset hin) with hin | hin
      · exact hquoted.noBreak hin
      · exact absurd hin (by decide)
    · rcases List.mem_append.1 (hfront.subset hin) with hin | hin
      · exact hquoted.literal.noReturn (List.mem_append_left _ hin)
      · exact absurd hin (by decide)
  subst hbelow
  simp only [lines_add (lines_belowName read) fuel, Option.bind_some, finish_written] at h
  exact ⟨read, (Option.some.inj h).symm, fun heq => hsame (by rw [heq])⟩

/-! ### The configuration -/

theorem decode_entries (name : String) :
    Config.projectConfig.decode (.table (entries name)) = .ok (starterConfig name) := by
  unfold entries starterConfig
  generalize String.intercalate "" defaultRuntime = spec
  cbv

theorem ofText_of_parse? {text name : String} (h : parse? text = some (entries name)) :
    Config.ofText text =
      if name = "" then .error (.missingField "project.name") else .ok (starterConfig name) := by
  have hoptions : Config.checkOptions (Config.optionKeys (entries name)) = .ok () := by
    cbv
  have hvalid : Config.validate (starterConfig name) =
      if name = "" then .error (.missingField "project.name") else .ok () := by
    simp [Config.validate, starterConfig, ProjectConfig.blank, ProjectMeta.blank]
  rw [Config.ofText]
  simp only [h, hoptions, decode_entries, Task.mapError_ok, Task.ok_bind, hvalid]
  split <;> rfl

/-- The configuration names the project it was written for exactly when every character of the name
stands for itself. -/
theorem ofText_configText_iff {name : String} (hname : name ≠ "")
    (hquoted : Quoted name.toList belowName.toList) :
    (∃ config, Config.ofText (configText name) = .ok config ∧ config.project.name = name) ↔
      ∀ c ∈ name.toList, isBasicChar c = true := by
  constructor
  · rintro ⟨config, hconfig, hsame⟩
    cases hparse : parse? (configText name) with
    | none =>
        rw [Config.ofText, hparse] at hconfig
        exact absurd hconfig (by simp)
    | some found =>
        obtain ⟨read, rfl, hread⟩ := exists_of_parse? hquoted hparse
        rw [ofText_of_parse? hparse] at hconfig
        split at hconfig
        · exact absurd hconfig (by simp)
        · cases hconfig
          exact hread hsame
  · intro hall
    refine ⟨starterConfig name, ?_, rfl⟩
    rw [ofText_of_parse? (parse?_of_basic hname hall), if_neg hname]

end ClojureBuild.Cli.Init
