import ClojureBuild.Proofs.World.Naming
import ClojureBuild.Proofs.World.Scanning
/-!
Scans of source lists as sets.

A scan finds what the entries of its list contribute, and each place once.  Main statements: the
files of two lists together are the union of those of both; lists with the same entries need the
same mode and have the same files; and the texts of these can differ by a separator at the front
alone, and only if an entry begins with exactly two.
-/

namespace ClojureBuild

variable {w : World} {ext : String} {xs ys sources : List Path}

/-- Two lists that name the same places in the same order. -/
abbrev SamePlaces : List Path → List Path → Prop :=
  List.Forall₂ fun p q => p.same q = true

namespace SamePlaces

theorem nil_iff {ps qs : List Path} (h : SamePlaces ps qs) : ps = [] ↔ qs = [] := by
  cases h <;> simp

theorem exists_same {ps qs : List Path} (h : SamePlaces ps qs) {r : Path} :
    (∃ p ∈ ps, p.same r = true) ↔ ∃ q ∈ qs, q.same r = true := by
  induction h with
  | nil => simp
  | cons hsame _ ih =>
      rw [Path.same, beq_iff_eq] at hsame
      simp only [List.mem_cons, exists_eq_or_imp, ih]
      rw [Path.same, Path.same, hsame]

end SamePlaces

namespace Scan

variable {listed : Path → Bool}

/-! ### Places -/

/-- The places of a scan are those that its entries contribute. -/
theorem exists_same_mem_files_iff {p : Path} :
    (∃ q ∈ (ofSources w ext listed sources).files, q.same p = true) ↔
      ∃ source ∈ sources, ∃ q ∈ (ofSource w ext listed source).files,
        ∃ r, Path.absolute? w.cwdPath q = some r ∧ r.same p = true := by
  constructor
  · rintro ⟨r, hr, hsame⟩
    obtain ⟨source, hsource, q, hq, habsolute⟩ := exists_of_mem_files hr
    exact ⟨source, hsource, q, hq, r, habsolute, hsame⟩
  · rintro ⟨source, hsource, q, hq, r, habsolute, hsame⟩
    obtain ⟨r', hr', hsame'⟩ := exists_same_mem_files hsource hq habsolute
    exact ⟨r', hr', beq_iff_eq.2 ((eq_of_beq hsame').trans (eq_of_beq hsame))⟩

theorem exists_same_mem_files_append {p : Path} :
    (∃ q ∈ (ofSources w ext listed (xs ++ ys)).files, q.same p = true) ↔
      (∃ q ∈ (ofSources w ext listed xs).files, q.same p = true) ∨
        ∃ q ∈ (ofSources w ext listed ys).files, q.same p = true := by
  simp only [exists_same_mem_files_iff, List.mem_append, or_and_right, exists_or]

theorem exists_same_mem_files_congr (h : ∀ source, source ∈ xs ↔ source ∈ ys) {p : Path} :
    (∃ q ∈ (ofSources w ext listed xs).files, q.same p = true) ↔
      ∃ q ∈ (ofSources w ext listed ys).files, q.same p = true := by
  simp only [exists_same_mem_files_iff, h]

theorem files_ne_nil_iff {scan : Scan} :
    scan.files ≠ [] ↔ ∃ p, ∃ q ∈ scan.files, q.same p = true := by
  constructor
  · intro hne
    obtain ⟨p, hp⟩ := List.exists_mem_of_ne_nil _ hne
    exact ⟨p, p, hp, beq_self_eq_true _⟩
  · rintro ⟨-, q, hq, -⟩
    exact List.ne_nil_of_mem hq

/-! ### Lists -/

theorem sorted_append (ps qs : List Path) :
    sorted (ps ++ qs) = sorted (sorted ps ++ sorted qs) :=
  distinctBy_append Path.before_asymm Path.before_trans Path.level_trans ps qs

theorem mem_sorted_append_left {front : List Path} (hfront : Ascends front) (back : List Path)
    {p : Path} (h : p ∈ front) : p ∈ sorted (front ++ back) := by
  refine (mem_distinctBy_append Path.before_trans Path.level_trans).2 (Or.inl ?_)
  rwa [distinctBy_of_pairwise Path.before_asymm (hfront.imp fun hpq => hpq.1)]

/-- The files of two lists, one behind the other, are those of the first and then, of the places
that it does not have, those of the second. -/
theorem files_append :
    (ofSources w ext listed (xs ++ ys)).files =
      sorted ((ofSources w ext listed xs).files ++ (ofSources w ext listed ys).files) := by
  simp only [ofSources, List.map_append, List.flatMap_append, List.filterMap_append]
  exact sorted_append _ _

/-- Two lists that ascend and have the same places have them in the same order. -/
theorem samePlaces_of_ascends {ps qs : List Path} (hps : Ascends ps) (hqs : Ascends qs)
    (h : ∀ p, (∃ q ∈ ps, q.same p = true) ↔ ∃ q ∈ qs, q.same p = true) : SamePlaces ps qs := by
  have hascends : ∀ {rs : List Path}, Ascends rs →
      (rs.map Path.components).Pairwise (Path.before.go · · = true) := by
    intro rs hrs
    exact List.pairwise_map.2 (hrs.imp fun hpq => hpq.1)
  have hmem : ∀ (rs : List Path) (a : List Path.Component),
      a ∈ rs.map Path.components → ∀ rs' : List Path,
        (∀ p, (∃ q ∈ rs, q.same p = true) → ∃ q ∈ rs', q.same p = true) →
          a ∈ rs'.map Path.components := by
    intro rs a ha rs' himp
    obtain ⟨p, hp, rfl⟩ := List.mem_map.1 ha
    obtain ⟨q, hq, hsame⟩ := himp p ⟨p, hp, beq_self_eq_true _⟩
    exact List.mem_map.2 ⟨q, hq, eq_of_beq hsame⟩
  have hmaps : ps.map Path.components = qs.map Path.components :=
    eq_of_pairwise_of_mem_iff Path.before.go_asymm (hascends hps) (hascends hqs) fun a =>
      ⟨fun ha => hmem ps a ha qs fun p => (h p).1, fun ha => hmem qs a ha ps fun p => (h p).2⟩
  rw [← List.forall₂_eq_eq_eq, List.forall₂_map_left_iff, List.forall₂_map_right_iff] at hmaps
  exact hmaps.imp fun _ _ => beq_iff_eq.2

theorem samePlaces_sorted {ps qs ps' qs' : List Path} (h : SamePlaces ps qs)
    (h' : SamePlaces ps' qs') : SamePlaces (sorted (ps ++ ps')) (sorted (qs ++ qs')) := by
  refine samePlaces_of_ascends (ascends_sorted _) (ascends_sorted _) fun r => ?_
  rw [exists_same_mem_sorted_iff, exists_same_mem_sorted_iff]
  simp only [List.mem_append, or_and_right, exists_or, h.exists_same, h'.exists_same]

theorem samePlaces_files (h : ∀ source, source ∈ xs ↔ source ∈ ys) :
    SamePlaces (ofSources w ext listed xs).files (ofSources w ext listed ys).files :=
  samePlaces_of_ascends (ascends_sorted _) (ascends_sorted _) fun _ =>
    exists_same_mem_files_congr h

end Scan

/-! ### Presence and modes -/

theorem hasLanguage_append :
    hasLanguage w ext (xs ++ ys) = (hasLanguage w ext xs || hasLanguage w ext ys) := by
  rw [Bool.eq_iff_iff, Bool.or_eq_true, hasLanguage_eq_true_iff, hasLanguage_eq_true_iff,
    hasLanguage_eq_true_iff]
  simp only [Scan.files_ne_nil_iff, languageEvidence, Scan.exists_same_mem_files_append, exists_or]

theorem hasLanguage_congr (h : ∀ source, source ∈ xs ↔ source ∈ ys) :
    hasLanguage w ext xs = hasLanguage w ext ys := by
  rw [Bool.eq_iff_iff, hasLanguage_eq_true_iff, hasLanguage_eq_true_iff]
  simp only [Scan.files_ne_nil_iff, languageEvidence, Scan.exists_same_mem_files_congr h]

theorem hasLanguage_of_languageFiles (h : (languageFiles w ext sources).files ≠ []) :
    hasLanguage w ext sources = true := by
  obtain ⟨p, hp⟩ := List.exists_mem_of_ne_nil _ h
  obtain ⟨source, hsource, q, hq, habsolute⟩ := Scan.exists_of_mem_files hp
  rw [hasLanguage_eq_true_iff]
  have hlisted : q ∈ (Scan.ofSource w ext (fun _ => true) source).files := by
    rw [Scan.mem_files_ofSource_iff] at hq ⊢
    exact hq.imp_right fun ⟨hdir, hfile, _, heq⟩ => ⟨hdir, hfile, rfl, heq⟩
  obtain ⟨r, hr, -⟩ := Scan.exists_same_mem_files hsource hlisted habsolute
  exact List.ne_nil_of_mem hr

/-- A language is present if it has files, or if a single file is listed. -/
theorem hasLanguage_iff :
    hasLanguage w ext sources = true ↔
      (languageFiles w ext sources).files ≠ [] ∨ ∃ source ∈ sources, w.isFile source = true := by
  constructor
  · intro h
    obtain ⟨p, hp⟩ := List.exists_mem_of_ne_nil _ (hasLanguage_eq_true_iff.1 h)
    obtain ⟨source, hsource, q, hq, habsolute⟩ := Scan.exists_of_mem_files hp
    rcases Scan.mem_files_ofSource_iff.1 hq with hshown | ⟨-, hfile, -, -⟩
    · obtain ⟨r, hr, -⟩ := @Scan.exists_same_mem_files w ext sources (hasExtension ext) source p q
        hsource (Scan.mem_files_ofSource_iff.2 (Or.inl hshown)) habsolute
      exact Or.inl (List.ne_nil_of_mem hr)
    · exact Or.inr ⟨source, hsource, hfile⟩
  · rintro (hfiles | ⟨source, hsource, hfile⟩)
    · exact hasLanguage_of_languageFiles hfiles
    · exact hasLanguage_of_isFile hsource hfile

namespace MixedMode

theorem detect_eq_withScala_iff :
    detect w sources = .withScala ↔ hasLanguage w "scala" sources = true := by
  rw [detect_eq]
  cases hasLanguage w "scala" sources with
  | true => simp
  | false => cases hasLanguage w "groovy" sources <;> cases hasLanguage w "java" sources <;> simp

/-- How far behind the front of the order of languages a mode is. -/
def rank (mode : MixedMode) : Nat :=
  match mode.language? with
  | none => Language.priority.length
  | some language => Language.priority.idxOf language

theorem rank_detect_append :
    (detect w (xs ++ ys)).rank = min (detect w xs).rank (detect w ys).rank := by
  rw [detect_eq, detect_eq, detect_eq, hasLanguage_append, hasLanguage_append, hasLanguage_append]
  cases hasLanguage w "scala" xs <;> cases hasLanguage w "scala" ys <;>
    cases hasLanguage w "groovy" xs <;> cases hasLanguage w "groovy" ys <;>
    cases hasLanguage w "java" xs <;> cases hasLanguage w "java" ys <;> rfl

theorem detect_congr (h : ∀ source, source ∈ xs ↔ source ∈ ys) : detect w xs = detect w ys := by
  simp only [detect_eq, hasLanguage_congr h]

end MixedMode

/-! ### Source lists as sets -/

/-- In a world scans take a source list for the set of its entries. -/
structure TakesSets (w : World) : Prop where
  /-- Of two spellings of a place that of the first list stays. -/
  files : ∀ ext xs ys, (languageFiles w ext (xs ++ ys)).files =
    Scan.sorted ((languageFiles w ext xs).files ++ (languageFiles w ext ys).files)
  places : ∀ ext xs ys p, (∃ q ∈ (languageFiles w ext (xs ++ ys)).files, q.same p = true) ↔
    (∃ q ∈ (languageFiles w ext xs).files, q.same p = true) ∨
      ∃ q ∈ (languageFiles w ext ys).files, q.same p = true
  present : ∀ ext xs ys,
    hasLanguage w ext (xs ++ ys) = (hasLanguage w ext xs || hasLanguage w ext ys)
  present_of_files : ∀ ext xs, (languageFiles w ext xs).files ≠ [] → hasLanguage w ext xs = true
  mode : ∀ xs ys, (MixedMode.detect w (xs ++ ys)).rank =
    min (MixedMode.detect w xs).rank (MixedMode.detect w ys).rank

theorem takesSets (w : World) : TakesSets w where
  files _ _ _ := Scan.files_append
  places _ _ _ _ := Scan.exists_same_mem_files_append
  present _ _ _ := hasLanguage_append
  present_of_files _ _ := hasLanguage_of_languageFiles
  mode _ _ := MixedMode.rank_detect_append

/-! ### Texts -/

/-- A file of a language is spelled as the entry is that contributes it. -/
theorem exists_spelled_of_mem_languageFiles (hstanding : w.Standing) (hnamed : w.Named) {p : Path}
    (h : p ∈ (languageFiles w ext sources).files) : ∃ source ∈ sources, p.Spelled source.lead := by
  obtain ⟨source, hsource, q, hq, habsolute⟩ := Scan.exists_of_mem_files h
  refine ⟨source, hsource, ?_⟩
  have hplain := World.plain_cwdPath (hstanding.names hnamed)
  rcases Scan.mem_files_ofSource_iff.1 hq with ⟨hdir, hshown, hext⟩ | ⟨-, hfile, hlisted, rfl⟩
  · obtain ⟨names, hne, hnames, rfl⟩ := World.exists_descend_of_isDir hnamed hdir hshown
    obtain ⟨loc, node, hstat, -⟩ := World.isDir_eq_true_iff.1 hdir
    rw [← Path.lead_descend (World.askable_of_stat hstat).nonempty hnames]
    exact Path.spelled_of_absolute? hplain (World.getLast?_of_descend source hne hnames)
      (Path.exists_significant_of_extension? (eq_of_beq hext)) habsolute
  · exact Path.spelled_of_absolute? hplain (World.getLast?_of_isFile hstanding hfile)
      (Path.exists_significant_of_extension? (eq_of_beq hlisted)) habsolute

/-- Files at the same places have the same texts but for a separator at the front, and are the
same where no entry begins with exactly two separators. -/
theorem SamePlaces.alike {ps qs : List Path} (h : SamePlaces ps qs)
    (hps : ∀ p ∈ ps, ∃ source ∈ xs, p.Spelled source.lead)
    (hqs : ∀ q ∈ qs, ∃ source ∈ ys, q.Spelled source.lead) :
    List.Forall₂ Path.SpelledAlike ps qs ∧
      ((∀ source ∈ xs ++ ys, source.doubled = false) → ps = qs) := by
  induction h with
  | nil => exact ⟨.nil, fun _ => rfl⟩
  | cons hsame _ ih =>
      obtain ⟨⟨s, hs, hp⟩, hps⟩ := List.forall_mem_cons.1 hps
      obtain ⟨⟨s', hs', hq⟩, hqs⟩ := List.forall_mem_cons.1 hqs
      obtain ⟨halike, hexact⟩ := ih hps hqs
      refine ⟨.cons (hp.alike_of_same hq hsame) halike, fun hnone => ?_⟩
      have hlead : ∀ source ∈ xs ++ ys, source.lead = [] := by
        intro source hin
        rw [Path.lead, hnone source hin, if_neg Bool.false_ne_true]
      rw [hlead s (List.mem_append_left _ hs)] at hp
      rw [hlead s' (List.mem_append_right _ hs')] at hq
      rw [hp.eq_of_same hq hsame, hexact hnone]

end ClojureBuild
