import ClojureBuild.Config.Load
import ClojureBuild.Proofs.Planning.Grammar
import ClojureBuild.Proofs.Session
import ClojureBuild.Proofs.Toml.KeyOrder
import Mathlib.Data.List.TakeWhile
/-!
What a configuration that was loaded is known to be, and which defect is told.

A document may hold a table, an array or some other value at any place.  What the decoder of a
record gives is what the record was before, changed by its fields, so a property that every field
keeps holds of whatever is decoded.  The checks behind the decoder see to the rest.  Main statement:
a text is judged by the first of its defects, in one order of the kinds of defects, and without any
its configuration is sound.
-/

namespace ClojureBuild

namespace Config

open Toml (Value)

/-! ### What decoders give -/

section

variable {α σ : Type} {P : σ → Prop} {Q : α → Prop} {r : Record σ}

/-- Whatever the decoder makes of a value has a property. -/
def Ensures (Q : α → Prop) (decoder : Decoder α) : Prop := ∀ v a, decoder v = .ok a → Q a

/-- Reading the field keeps a property of the record. -/
def Field.Keeps (P : σ → Prop) (f : Field σ) : Prop :=
  ∀ v s s', P s → f.read v s = .ok s' → P s'

theorem ensures_list {item : Decoder α} (h : Ensures Q item) :
    Ensures (fun as => ∀ a ∈ as, Q a) (list item) := by
  have heach : ∀ items as, each item items = .ok as → ∀ a ∈ as, Q a := by
    intro items
    induction items with
    | nil =>
        intro as has
        cases has
        exact fun a ha => absurd ha List.not_mem_nil
    | cons v rest ih =>
        intro as has
        obtain ⟨a, ha, has⟩ := Task.exists_of_bind_eq_ok has
        obtain ⟨others, hothers, has⟩ := Task.exists_of_bind_eq_ok has
        cases has
        exact List.forall_mem_cons.2 ⟨h v a ha, ih others hothers⟩
  intro v as has
  cases v with
  | array items => exact heach items as has
  | _ => cases has

/-- Only texts that follow the grammar are decoded to identifiers. -/
theorem ensures_unit : Ensures (fun u => UnitId.Dotted u.text) unit := by
  intro v u hu
  obtain ⟨s, -, hu⟩ := Task.exists_of_bind_eq_ok hu
  cases hparse : UnitId.parse s with
  | error e =>
      simp only [hparse] at hu
      cases hu
  | ok read =>
      simp only [hparse] at hu
      cases hu
      obtain ⟨hdotted, rfl⟩ := UnitId.parse_eq_ok_iff.1 hparse
      exact hdotted

theorem keeps_optional {name : String} {mayEnd : Bool} {decoder : Decoder α} {put : α → σ → σ}
    (hdecoder : Ensures Q decoder) (hput : ∀ a s, Q a → P s → P (put a s)) :
    (Record.optional name mayEnd decoder put).Keeps P := by
  intro v s s' hs h
  obtain ⟨a, ha, h⟩ := Task.exists_of_bind_eq_ok h
  cases h
  exact hput a s (hdecoder v a ha) hs

theorem keeps_other {name : String} {mayEnd : Bool} {decoder : Decoder α} {put : α → σ → σ}
    (hput : ∀ a s, P s → P (put a s)) : (Record.optional name mayEnd decoder put).Keeps P :=
  keeps_optional (Q := fun _ => True) (fun _ _ _ => trivial) fun a s _ => hput a s

theorem Record.readKeys_keeps (hfields : ∀ f ∈ r.fields, f.Keeps P)
    {entries : List (String × Value)} {s s' : σ} (hs : P s)
    (h : r.readKeys entries s = .ok s') : P s' := by
  induction entries generalizing s with
  | nil =>
      cases h
      exact hs
  | cons e rest ih =>
      rw [readKeys] at h
      split at h
      next f hf =>
          obtain ⟨between, hread, h⟩ := Task.exists_of_bind_eq_ok h
          have hkept : P between := hfields f (List.mem_of_find?_eq_some hf) e.2 s between hs
            (Task.mapError_eq_ok_iff.1 hread)
          exact ih hkept h
      · split at h
        · cases h
        · exact ih hs h

theorem Record.readItems_keeps {n : Nat} {fields : List (Field σ)}
    (hfields : ∀ f ∈ fields, f.Keeps P) {items rest : List Value} {s s' : σ} (hs : P s)
    (h : r.readItems n fields items s = .ok (s', rest)) : P s' := by
  induction fields generalizing n items s with
  | nil =>
      cases h
      exact hs
  | cons f fields ih =>
      obtain ⟨hf, hfields⟩ := List.forall_mem_cons.1 hfields
      cases items with
      | nil =>
          rw [readItems] at h
          split at h
          · exact ih hfields hs h
          · cases h
      | cons v items =>
          obtain ⟨between, hread, h⟩ := Task.exists_of_bind_eq_ok h
          exact ih hfields (hf v s between hs hread) h

/-- A property of the blank record that all fields keep holds of every record that is decoded,
whatever the value is. -/
theorem ensures_decode (hblank : P r.blank) (hfields : ∀ f ∈ r.fields, f.Keeps P) :
    Ensures P r.decode := by
  intro v s h
  cases v with
  | table entries =>
      obtain ⟨read, hread, h⟩ := Task.exists_of_bind_eq_ok h
      split at h
      · cases h
      · cases h
        exact r.readKeys_keeps hfields hblank hread
  | array items =>
      obtain ⟨⟨read, rest⟩, hread, h⟩ := Task.exists_of_bind_eq_ok h
      simp only at h
      split at h
      · cases h
        exact r.readItems_keeps hfields hblank hread
      · cases h
  | _ => cases h

end

/-! ### The identifiers of a configuration -/

/-- All identifiers of a list follow the grammar. -/
def AllDotted (units : List UnitId) : Prop := ∀ u ∈ units, UnitId.Dotted u.text

/-- All identifiers among the compile options follow the grammar. -/
def Identified (options : CompileOptions) : Prop :=
  ∀ libs, options.libs = some libs → AllDotted libs

theorem ensures_compileOptions : Ensures Identified compileOptions.decode := by
  apply ensures_decode
  · exact fun _ => nofun
  · refine List.forall_mem_cons.2 ⟨?_, List.forall_mem_cons.2 ⟨?_, List.forall_mem_cons.2 ⟨?_,
      List.forall_mem_singleton.2 ?_⟩⟩⟩
    · refine keeps_optional (ensures_list ensures_unit) fun units options hunits _ libs hlibs => ?_
      cases hlibs
      exact hunits
    all_goals exact keeps_other fun _ _ h => h

theorem ensures_testSettings :
    Ensures (fun t => AllDotted t.added ∧ AllDotted t.excluded) testSettings.decode := by
  apply ensures_decode
  · exact ⟨fun _ => nofun, fun _ => nofun⟩
  · refine List.forall_mem_cons.2 ⟨?_, List.forall_mem_cons.2 ⟨?_, List.forall_mem_singleton.2 ?_⟩⟩
    · exact keeps_other fun _ _ h => h
    · exact keeps_optional (ensures_list ensures_unit) fun _ _ hunits h => ⟨hunits, h.2⟩
    · exact keeps_optional (ensures_list ensures_unit) fun _ _ hunits h => ⟨h.1, hunits⟩

/-- Whatever shape a document has, a configuration that is decoded from it holds no identifier that
does not follow the grammar. -/
theorem ensures_projectConfig :
    Ensures (fun c => Identified c.cljc ∧ AllDotted c.test.added ∧ AllDotted c.test.excluded)
      projectConfig.decode := by
  apply ensures_decode
  · exact ⟨fun _ => nofun, fun _ => nofun, fun _ => nofun⟩
  · refine List.forall_mem_cons.2 ⟨?_, List.forall_mem_cons.2 ⟨?_, List.forall_mem_cons.2 ⟨?_,
      List.forall_mem_cons.2 ⟨?_, List.forall_mem_singleton.2 ?_⟩⟩⟩⟩
    · intro v s s' hs h
      obtain ⟨project, -, h⟩ := Task.exists_of_bind_eq_ok h
      cases h
      exact hs
    · exact keeps_other fun _ _ h => h
    · exact keeps_other fun _ _ h => h
    · exact keeps_optional ensures_compileOptions fun _ _ hoptions h => ⟨hoptions, h.2⟩
    · exact keeps_optional ensures_testSettings fun _ _ htests h => ⟨h.1, htests⟩

/-! ### Keys that are no compile options -/

/-- The document holds a table of compile options, and among its keys one that is none. -/
def UnknownOption (text key : String) : Prop :=
  ∃ entries options, Toml.parse? text = some entries ∧
    Toml.entry? "cljc" entries = some (.table options) ∧ key ∈ options.map (·.1) ∧
    key ∉ CompileOptions.keys

theorem mem_optionKeys_iff {entries : List (String × Value)} {key : String} :
    key ∈ optionKeys entries ↔
      ∃ options, Toml.entry? "cljc" entries = some (.table options) ∧ key ∈ options.map (·.1) := by
  unfold optionKeys
  split
  next options hoptions => simp [hoptions]
  next hnone =>
      simp only [List.not_mem_nil, false_iff]
      rintro ⟨options, hoptions, -⟩
      exact hnone options hoptions

theorem unknownOption_iff {text key : String} :
    UnknownOption text key ↔
      ∃ entries ∈ Toml.parse? text, key ∈ optionKeys entries ∧ key ∉ CompileOptions.keys := by
  simp only [UnknownOption, mem_optionKeys_iff, Option.mem_def]
  grind

instance (text key : String) : Decidable (UnknownOption text key) :=
  decidable_of_iff ((Toml.parse? text).any fun entries =>
      decide (key ∈ optionKeys entries ∧ key ∉ CompileOptions.keys)) (by
    rw [unknownOption_iff]
    cases Toml.parse? text <;> simp)

theorem mem_of_entry_eq_some {key : String} {entries : List (String × Value)} {v : Value}
    (h : Toml.entry? key entries = some v) : (key, v) ∈ entries := by
  induction entries with
  | nil => cases h
  | cons e rest ih =>
      obtain ⟨k, w⟩ := e
      rw [Toml.entry?] at h
      split at h
      next hkey =>
          cases h
          exact hkey ▸ List.mem_cons_self
      · exact List.mem_cons_of_mem _ (ih h)

theorem pairwise_optionKeys {text : String} {entries : List (String × Value)}
    (h : Toml.parse? text = some entries) :
    (optionKeys entries).Pairwise fun a b => Text.bytes a ≤ Text.bytes b := by
  unfold optionKeys
  split
  next options hoptions =>
      exact List.pairwise_map.2
        ((Toml.ascending_of_parse? h).2 "cljc" options (mem_of_entry_eq_some hoptions))
  · exact List.Pairwise.nil

theorem checkOptions_eq_ok_iff {keys : List String} :
    checkOptions keys = .ok () ↔ ∀ key ∈ keys, key ∈ CompileOptions.keys := by
  unfold checkOptions
  split
  next key hkey =>
      have hunknown := List.find?_some hkey
      simp only [reduceCtorEq, false_iff, not_forall]
      exact ⟨key, List.mem_of_find?_eq_some hkey, by simpa using hunknown⟩
  next hnone => simpa using hnone

/-- Of keys that ascend the check refuses the least that is unknown. -/
theorem checkOptions_eq_error {keys : List String} {e : ConfigError}
    (hkeys : keys.Pairwise fun a b => Text.bytes a ≤ Text.bytes b)
    (h : checkOptions keys = .error e) :
    ∃ key ∈ keys, key ∉ CompileOptions.keys ∧ e = .unknownOption key ∧
      ∀ other ∈ keys, other ∉ CompileOptions.keys → Text.bytes key ≤ Text.bytes other := by
  unfold checkOptions at h
  split at h
  next key hkey =>
      cases h
      obtain ⟨hunknown, front, back, rfl, hfront⟩ := List.find?_eq_some_iff_append.1 hkey
      -- All keys in front of it are known, and those behind it are no less.
      obtain ⟨-, hback, -⟩ := List.pairwise_append.1 hkeys
      refine ⟨key, by simp, by simpa using hunknown, rfl, fun other hother hnot => ?_⟩
      rcases List.mem_append.1 hother with hother | hother
      · exact absurd (hfront other hother) (by simpa using hnot)
      · rcases List.mem_cons.1 hother with rfl | hother
        · exact Text.bytes_le_iff.2 le_rfl
        · exact (List.pairwise_cons.1 hback).1 other hother
  · cases h

theorem checkOptions_eq_ok_iff_known {text : String} {entries : List (String × Value)}
    (h : Toml.parse? text = some entries) :
    checkOptions (optionKeys entries) = .ok () ↔ ∀ key, ¬ UnknownOption text key := by
  rw [checkOptions_eq_ok_iff]
  simp only [unknownOption_iff, h, Option.mem_def, Option.some.injEq, exists_eq_left', not_and,
    not_not]

/-- With an unknown key in the table of compile options the loader tells the least. -/
theorem exists_least_of_unknownOption {text key : String} (h : UnknownOption text key) :
    ∃ least, UnknownOption text least ∧
      (∀ other, UnknownOption text other → Text.bytes least ≤ Text.bytes other) ∧
      ofText text = .error (.unknownOption least) := by
  obtain ⟨entries, hparse, -⟩ := unknownOption_iff.1 h
  cases hcheck : checkOptions (optionKeys entries) with
  | ok u => exact absurd h ((checkOptions_eq_ok_iff_known hparse).1 hcheck key)
  | error e =>
      obtain ⟨least, hleast, hnot, rfl, hmin⟩ :=
        checkOptions_eq_error (pairwise_optionKeys hparse) hcheck
      refine ⟨least, unknownOption_iff.2 ⟨entries, hparse, hleast, hnot⟩, fun other hother => ?_,
        ?_⟩
      · obtain ⟨found, hfound, hmem, hother⟩ := unknownOption_iff.1 hother
        obtain rfl : entries = found := Option.some.inj (hparse.symm.trans hfound)
        exact hmin other hmem hother
      · rw [ofText, hparse]
        simp only [hcheck, Task.error_bind]

/-! ### The judgement of a text -/

/-- A string of nothing but white space. -/
def Blank (text : String) : Prop := ∀ c ∈ text.toList, Text.isBlank c = true

theorem isEmpty_trimString_iff {text : String} :
    (Text.trimString text).isEmpty = true ↔ Blank text := by
  have hempty : (Text.trimString text).isEmpty = true ↔ Text.trim text.toList = [] := by
    rw [String.isEmpty_iff, ← String.toList_inj, Text.trimString, String.toList_ofList]
    rfl
  rw [hempty]
  constructor
  · intro h
    rw [Text.trim, List.reverse_eq_nil_iff, List.dropWhile_eq_nil_iff] at h
    have hrest : text.toList.dropWhile Text.isBlank = [] := by
      cases hdrop : text.toList.dropWhile Text.isBlank with
      | nil => rfl
      | cons c rest =>
          -- What is left at the front cannot begin with white space.
          have hfirst := List.head?_dropWhile_not Text.isBlank text.toList
          simp only [hdrop, List.head?_cons] at hfirst
          exact absurd (h c (by simp [hdrop])) (by simpa using hfirst)
    exact List.dropWhile_eq_nil_iff.1 hrest
  · intro h
    rw [Text.trim, List.dropWhile_eq_nil_iff.2 h]
    rfl

/-- The target is given and says nothing. -/
def BlankTarget (config : ProjectConfig) : Prop :=
  ∃ target, config.project.target = some target ∧ Blank target

theorem any_target_iff {config : ProjectConfig} :
    config.project.target.any (fun t => (Text.trimString t).isEmpty) = true ↔
      BlankTarget config := by
  rw [BlankTarget, Option.any_eq_true]
  simp only [isEmpty_trimString_iff]

/-- The text is a document without unknown compile options, and it decodes to the configuration. -/
structure Spells (text : String) (config : ProjectConfig) : Prop where
  known : ∀ key, ¬ UnknownOption text key
  decoded : ∃ entries, Toml.parse? text = some entries ∧
    projectConfig.decode (.table entries) = .ok config

theorem Spells.ofText_eq {text : String} {config : ProjectConfig} (h : Spells text config) :
    ofText text = (validate config).map fun _ => config := by
  obtain ⟨entries, hparse, hdecode⟩ := h.decoded
  rw [ofText, hparse]
  simp only [(checkOptions_eq_ok_iff_known hparse).2 h.known, hdecode, Task.ok_bind,
    Task.mapError_ok]
  cases validate config <;> rfl

/-- What a text comes to: the first of its defects, in the order of the cases, or the configuration
it spells. -/
inductive Judged (text : String) : Except ConfigError ProjectConfig → Prop where
  | malformed (h : Toml.parse? text = none) : Judged text (.error .malformed)
  | unknownOption {key : String} (h : UnknownOption text key)
      (hleast : ∀ other, UnknownOption text other → Text.bytes key ≤ Text.bytes other) :
      Judged text (.error (.unknownOption key))
  | mismatch {entries : List (String × Value)} {why : Mismatch}
      (hparse : Toml.parse? text = some entries) (hknown : ∀ key, ¬ UnknownOption text key)
      (h : projectConfig.decode (.table entries) = .error why) :
      Judged text (.error (.mismatch why))
  | unnamed {config : ProjectConfig} (h : Spells text config) (hname : config.project.name = "") :
      Judged text (.error (.missingField "project.name"))
  | noRuntime {config : ProjectConfig} (h : Spells text config)
      (hname : config.project.name ≠ "") (hruntime : config.runtime = []) :
      Judged text (.error (.invalid "clojure.spec must name at least one runtime artifact"))
  | blankTarget {config : ProjectConfig} (h : Spells text config)
      (hname : config.project.name ≠ "") (hruntime : config.runtime ≠ [])
      (htarget : BlankTarget config) :
      Judged text (.error (.invalid "project.target must not be empty"))
  | loaded {config : ProjectConfig} (h : Spells text config) (hname : config.project.name ≠ "")
      (hruntime : config.runtime ≠ []) (htarget : ¬ BlankTarget config) :
      Judged text (.ok config)

theorem Spells.judged {text : String} {config : ProjectConfig} (h : Spells text config) :
    Judged text (ofText text) := by
  rw [h.ofText_eq, validate]
  split_ifs with hname hruntime htarget
  · exact .unnamed h (String.isEmpty_iff.1 hname)
  · exact .noRuntime h (mt String.isEmpty_iff.2 hname) (List.isEmpty_iff.1 hruntime)
  · exact .blankTarget h (mt String.isEmpty_iff.2 hname) (mt List.isEmpty_iff.2 hruntime)
      (any_target_iff.1 htarget)
  · exact .loaded h (mt String.isEmpty_iff.2 hname) (mt List.isEmpty_iff.2 hruntime)
      (mt any_target_iff.2 htarget)

theorem judged_ofText (text : String) : Judged text (ofText text) := by
  cases hparse : Toml.parse? text with
  | none =>
      rw [ofText, hparse]
      exact .malformed hparse
  | some entries =>
      by_cases hknown : ∀ key, ¬ UnknownOption text key
      · cases hdecode : projectConfig.decode (.table entries) with
        | ok config => exact Spells.judged ⟨hknown, entries, hparse, hdecode⟩
        | error why =>
            rw [ofText, hparse]
            simp only [(checkOptions_eq_ok_iff_known hparse).2 hknown, hdecode, Task.ok_bind,
              Task.mapError_error, Task.error_bind]
            exact .mismatch hparse hknown hdecode
      · obtain ⟨key, hkey⟩ := not_forall_not.1 hknown
        obtain ⟨least, hleast, hmin, hresult⟩ := exists_least_of_unknownOption hkey
        exact hresult ▸ .unknownOption hleast hmin

/-- A text comes to one thing only: what the loader gives. -/
theorem Judged.eq_ofText {text : String} {result : Except ConfigError ProjectConfig}
    (h : Judged text result) : ofText text = result := by
  cases h with
  | malformed h => rw [ofText, h]
  | unknownOption h hleast =>
      obtain ⟨least, hfound, hmin, hresult⟩ := exists_least_of_unknownOption h
      rw [hresult, le_antisymm (Text.bytes_le_iff.1 (hmin _ h))
        (Text.bytes_le_iff.1 (hleast _ hfound))]
  | mismatch hparse hknown h =>
      rw [ofText, hparse]
      simp only [(checkOptions_eq_ok_iff_known hparse).2 hknown, h, Task.ok_bind,
        Task.mapError_error, Task.error_bind]
  | unnamed h hname =>
      rw [h.ofText_eq, validate, if_pos (String.isEmpty_iff.2 hname)]
      rfl
  | noRuntime h hname hruntime =>
      rw [h.ofText_eq, validate, if_neg (mt String.isEmpty_iff.1 hname),
        if_pos (List.isEmpty_iff.2 hruntime)]
      rfl
  | blankTarget h hname hruntime htarget =>
      rw [h.ofText_eq, validate, if_neg (mt String.isEmpty_iff.1 hname),
        if_neg (mt List.isEmpty_iff.1 hruntime), if_pos (any_target_iff.2 htarget)]
      rfl
  | loaded h hname hruntime htarget =>
      rw [h.ofText_eq, validate, if_neg (mt String.isEmpty_iff.1 hname),
        if_neg (mt List.isEmpty_iff.1 hruntime), if_neg (mt any_target_iff.1 htarget)]
      rfl

/-- What is known of a configuration that was loaded. -/
structure Sound (config : ProjectConfig) : Prop where
  named : config.project.name ≠ ""
  runs : config.runtime ≠ []
  placed : ∀ target, config.project.target = some target → ¬ Blank target
  libs : ∀ units, config.cljc.libs = some units → AllDotted units
  added : AllDotted config.test.added
  excluded : AllDotted config.test.excluded

/-- Whatever text is loaded: the configuration is sound and the table of compile options holds no
other keys. -/
theorem sound_of_ofText {text : String} {config : ProjectConfig}
    (h : ofText text = .ok config) : Sound config ∧ ∀ key, ¬ UnknownOption text key := by
  have hjudged := judged_ofText text
  rw [h] at hjudged
  cases hjudged with
  | loaded hspells hname hruntime htarget =>
      obtain ⟨entries, -, hdecode⟩ := hspells.decoded
      obtain ⟨hlibs, hadded, hexcluded⟩ := ensures_projectConfig (.table entries) config hdecode
      exact ⟨⟨hname, hruntime, fun target ht hblank => htarget ⟨target, ht, hblank⟩, hlibs, hadded,
        hexcluded⟩, hspells.known⟩

/-- The loader gives what a text comes to: the first of its defects, and of unknown compile options
the least by its bytes, whatever else is wrong.  What it accepts is sound. -/
theorem ofText_judged (text : String) :
    (∀ result, ofText text = result ↔ Judged text result) ∧
      (∀ key, UnknownOption text key → ∃ least, UnknownOption text least ∧
        (∀ other, UnknownOption text other → Text.bytes least ≤ Text.bytes other) ∧
        ofText text = .error (.unknownOption least)) ∧
      ∀ config, ofText text = .ok config → Sound config ∧ ∀ key, ¬ UnknownOption text key := by
  refine ⟨fun result => ⟨?_, Judged.eq_ofText⟩, fun key => exists_least_of_unknownOption,
    fun config => sound_of_ofText⟩
  rintro rfl
  exact judged_ofText text

/-- A document with a defect of every kind but the first, and two keys that are no options. -/
def mistaken : String :=
  "[cljc]\nzed = 1\nZeta = 2\nlibs = [\"a..b\"]\n[clojure]\nspec = []\n[project]\nname = 5\n"

/-- A document whose compile options are an array instead of a table. -/
def unusual : String :=
  "cljc = [[\"a.b\"]]\n[project]\nname = \"p\"\ntarget = \"out\"\n[test]\ninclude = [\"t-1\"]\n"

/-- What the array spells. -/
def unusualConfig : ProjectConfig :=
  { ProjectConfig.blank with
    project := { ProjectMeta.blank with name := "p", target := some "out" }
    cljc := { CompileOptions.default with libs := some [⟨"a.b"⟩] }
    test := { TestSettings.blank with added := [⟨"t-1"⟩] } }

/-- The key in capitals is the least, though it comes second; and options in an array are held to
the same grammar. -/
theorem ofText_judged_mistaken :
    (UnknownOption mistaken "zed" ∧ (∃ least, UnknownOption mistaken least ∧
        (∀ other, UnknownOption mistaken other → Text.bytes least ≤ Text.bytes other) ∧
        ofText mistaken = .error (.unknownOption least)) ∧
        Judged mistaken (.error (.unknownOption "Zeta"))) ∧
      ofText unusual = .ok unusualConfig ∧ Sound unusualConfig := by
  have hzed : UnknownOption mistaken "zed" := by decide +kernel
  have hmistaken : ofText mistaken = .error (.unknownOption "Zeta") := by decide +kernel
  have hunusual : ofText unusual = .ok unusualConfig := by decide +kernel
  obtain ⟨hjudged, hleast, -⟩ := ofText_judged mistaken
  exact ⟨⟨hzed, hleast "zed" hzed, (hjudged _).1 hmistaken⟩, hunusual,
    ((ofText_judged unusual).2.2 unusualConfig hunusual).1⟩

end Config

end ClojureBuild
