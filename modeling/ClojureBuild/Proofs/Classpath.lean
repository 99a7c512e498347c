import ClojureBuild.Classpath
import ClojureBuild.Proofs.Path.Descent
import ClojureBuild.Proofs.Planning.Grammar
import ClojureBuild.Proofs.Session
import ClojureBuild.Proofs.World.Links
import Mathlib.Data.List.Forall2
/-!
Where the entries of a classpath stand.

An entry stands for one absolute path, or it fails with one error.  Main statements: a classpath is
resolved to the paths that its entries stand for, one for each and in their order, and otherwise
fails as the first entry that stands for none; and its text lists the paths with a colon between any
two neighbours, so that they are read back from it exactly when none of them holds a colon.
-/

namespace ClojureBuild

theorem absolutePath_eq_error_iff {w : World} {p : Path} {e : BuildError} :
    absolutePath w p = .error e ↔ p.text = "" ∧ e = .io p .emptyPath := by
  by_cases hp : p.text = ""
  · have hnone : Path.absolute? w.cwdPath p = none := by simp [Path.absolute?, hp]
    simp [absolutePath, hnone, hp, eq_comm]
  · obtain ⟨q, hq⟩ := Path.exists_absolute? w.cwdPath hp
    simp [absolutePath, hq, hp]

namespace ClasspathEntry

/-- The absolute path that an entry stands for: a path for its own, whatever is there, and an
artifact for that of its file in the repository, if that is there. -/
inductive Stands (w : World) (repository : Path) : ClasspathEntry → Path → Prop where
  | path {p q : Path} (h : Path.absolute? w.cwdPath p = some q) : Stands w repository (.path p) q
  | artifact {c : Coordinate} {q : Path} (hfile : w.isFile (c.repositoryPath repository) = true)
      (h : Path.absolute? w.cwdPath (c.repositoryPath repository) = some q) :
      Stands w repository (.artifact c) q

/-- Why an entry stands for nothing. -/
inductive Fails (w : World) (repository : Path) : ClasspathEntry → BuildError → Prop where
  | path {p : Path} (h : p.text = "") : Fails w repository (.path p) (.io p .emptyPath)
  | artifact {c : Coordinate} (h : w.isFile (c.repositoryPath repository) = false) :
      Fails w repository (.artifact c) (.unresolvedArtifact c (c.repositoryPath repository))

end ClasspathEntry

namespace Classpath

open ClasspathEntry

variable {w : World} {repository : Path} {entry : ClasspathEntry} {entries : List ClasspathEntry}

theorem resolveEntry_eq_ok_iff {p : Path} :
    resolveEntry w repository entry = .ok p ↔ Stands w repository entry p := by
  constructor
  · intro h
    cases entry with
    | path q => exact .path (absolutePath_eq_ok_iff.1 h)
    | artifact c =>
        rw [resolveEntry, resolveArtifact] at h
        split at h
        next hfile => exact .artifact hfile (absolutePath_eq_ok_iff.1 h)
        · cases h
  · intro h
    cases h with
    | path h => exact absolutePath_eq_ok_iff.2 h
    | artifact hfile h =>
        rw [resolveEntry, resolveArtifact, if_pos hfile]
        exact absolutePath_eq_ok_iff.2 h

theorem resolveEntry_eq_error_iff {e : BuildError} :
    resolveEntry w repository entry = .error e ↔ Fails w repository entry e := by
  constructor
  · intro h
    cases entry with
    | path q =>
        obtain ⟨hempty, rfl⟩ := absolutePath_eq_error_iff.1 h
        exact .path hempty
    | artifact c =>
        rw [resolveEntry, resolveArtifact] at h
        split at h
        next hfile =>
            -- A file that is there has a path with a text, so its absolute form exists.
            obtain ⟨loc, node, hstat, -⟩ := World.isFile_eq_true_iff.1 hfile
            exact absurd (absolutePath_eq_error_iff.1 h).1 (World.askable_of_stat hstat).nonempty
        next hfile =>
            cases h
            exact .artifact (by simpa using hfile)
  · intro h
    cases h with
    | path h => exact absolutePath_eq_error_iff.2 ⟨h, rfl⟩
    | artifact h => rw [resolveEntry, resolveArtifact, if_neg (by simp [h])]

/-- A classpath is resolved entry by entry. -/
theorem resolve_eq_ok_iff {paths : List Path} :
    resolve w repository entries = .ok paths ↔
      List.Forall₂ (fun entry path => resolveEntry w repository entry = .ok path) entries
        paths := by
  induction entries generalizing paths with
  | nil =>
      rw [resolve, List.forall₂_nil_left_iff, Except.ok.injEq]
      exact eq_comm
  | cons entry rest ih =>
      rw [List.forall₂_cons_left_iff]
      constructor
      · intro h
        obtain ⟨path, hpath, h⟩ := Task.exists_of_bind_eq_ok h
        obtain ⟨others, hothers, h⟩ := Task.exists_of_bind_eq_ok h
        exact ⟨path, others, hpath, ih.1 hothers, (Except.ok.inj h).symm⟩
      · rintro ⟨path, others, hpath, hothers, rfl⟩
        rw [resolve, hpath, Task.ok_bind, ih.2 hothers]
        rfl

theorem resolve_eq_ok_iff_stands {paths : List Path} :
    resolve w repository entries = .ok paths ↔
      List.Forall₂ (Stands w repository) entries paths := by
  simp only [resolve_eq_ok_iff, resolveEntry_eq_ok_iff]

/-- An entry that cannot be resolved leaves the whole classpath unresolved. -/
theorem exists_error_of_resolveEntry {cause : BuildError} (hentry : entry ∈ entries)
    (h : resolveEntry w repository entry = .error cause) :
    ∃ e, resolve w repository entries = .error e := by
  induction entries with
  | nil => exact absurd hentry List.not_mem_nil
  | cons first rest ih =>
      rw [resolve]
      cases hfirst : resolveEntry w repository first with
      | error e => exact ⟨e, rfl⟩
      | ok path =>
          have hrest : entry ∈ rest := (List.mem_cons.1 hentry).resolve_left (by
            rintro rfl
            exact absurd (h.symm.trans hfirst) (by simp))
          obtain ⟨e, he⟩ := ih hrest
          exact ⟨e, by rw [Task.ok_bind, he]; rfl⟩

/-- The error of the first entry that stands for nothing. -/
inductive FirstFailing (w : World) (repository : Path) :
    List ClasspathEntry → BuildError → Prop where
  | here {entry : ClasspathEntry} {rest : List ClasspathEntry} {e : BuildError}
      (h : Fails w repository entry e) : FirstFailing w repository (entry :: rest) e
  | behind {entry : ClasspathEntry} {p : Path} {rest : List ClasspathEntry} {e : BuildError}
      (h : Stands w repository entry p) (hrest : FirstFailing w repository rest e) :
      FirstFailing w repository (entry :: rest) e

/-- A classpath fails as the first entry that stands for nothing. -/
theorem resolve_eq_error_iff {e : BuildError} :
    resolve w repository entries = .error e ↔ FirstFailing w repository entries e := by
  constructor
  · intro h
    induction entries with
    | nil => cases h
    | cons entry rest ih =>
        cases hentry : resolveEntry w repository entry with
        | error cause =>
            rw [resolve, hentry] at h
            cases h
            exact .here (resolveEntry_eq_error_iff.1 hentry)
        | ok p =>
            refine .behind (resolveEntry_eq_ok_iff.1 hentry) (ih ?_)
            rw [resolve, hentry, Task.ok_bind] at h
            cases hrest : resolve w repository rest with
            | error cause => rwa [hrest] at h
            | ok others =>
                rw [hrest] at h
                cases h
  · intro h
    induction h with
    | here h =>
        rw [resolve, resolveEntry_eq_error_iff.2 h]
        rfl
    | behind h _ ih =>
        rw [resolve, resolveEntry_eq_ok_iff.2 h, ih]
        rfl

/-- The text of a classpath lists its paths, the trailing one last, with a colon between any two
neighbours. -/
theorem render_eq (paths : List Path) (trailing : Path) :
    render paths trailing = Text.joinStrings ':' ((paths ++ [trailing]).map (·.text)) := by
  rw [← String.toList_inj, Text.joinStrings, String.toList_ofList, List.map_map]
  induction paths with
  | nil => simp [render, Text.joinWith]
  | cons p rest ih =>
      obtain ⟨next, more, hmore⟩ := List.exists_cons_of_ne_nil (List.concat_ne_nil trailing rest)
      have hstep : render (p :: rest) trailing = p.text ++ ":" ++ render rest trailing := by
        simp [render, String.append_assoc]
      have hjoin : Text.joinWith ':' ((p :: next :: more).map (String.toList ∘ (·.text))) =
          p.text.toList ++ ':' :: Text.joinWith ':' ((next :: more).map
            (String.toList ∘ (·.text))) := rfl
      rw [hstep, String.toList_append, ih, List.cons_append, hmore, hjoin, String.toList_append,
        List.append_assoc]
      rfl

theorem join_concat (paths : List Path) (last : Path) :
    join (paths ++ [last]) = render paths last := by
  rw [join, List.reverse_append, List.reverse_singleton, List.singleton_append]
  exact congrArg (render · last) (List.reverse_reverse paths)

/-- The text of a classpath, cut at its colons, gives the paths back exactly when none of them holds
a colon: each colon in a path makes one piece more.  Paths without a trailing one are rendered with
the last of them as the trailing one, and are read back under the same condition. -/
theorem splitString_render_iff (paths : List Path) (trailing : Path) :
    (Text.splitString ':' (render paths trailing) = paths.map (·.text) ++ [trailing.text] ↔
      (∀ p ∈ paths, ':' ∉ p.text.toList) ∧ ':' ∉ trailing.text.toList) ∧
    (Text.splitString ':' (render paths trailing)).length = paths.length + 1 +
      ((paths ++ [trailing]).map fun p => p.text.toList.count ':').sum ∧
    join (paths ++ [trailing]) = render paths trailing ∧
    (Text.splitString ':' (join (paths ++ [trailing])) = (paths ++ [trailing]).map (·.text) ↔
      ∀ p ∈ paths ++ [trailing], ':' ∉ p.text.toList) := by
  have htexts : (paths ++ [trailing]).map (·.text) = paths.map (·.text) ++ [trailing.text] :=
    List.map_append
  have hne : (paths ++ [trailing]).map (·.text) ≠ [] := by simp
  have hread : Text.splitString ':' (render paths trailing) = (paths ++ [trailing]).map (·.text) ↔
      ∀ p ∈ paths ++ [trailing], ':' ∉ p.text.toList := by
    rw [render_eq, Text.splitString_joinStrings_iff hne, List.forall_mem_map]
  refine ⟨?_, ?_, join_concat paths trailing, ?_⟩
  · rw [← htexts, hread, List.forall_mem_append]
    simp
  · rw [render_eq, Text.length_splitString_joinStrings hne, List.length_map, List.map_map,
      List.length_append]
    rfl
  · rw [join_concat]
    exact hread

/-- A path with a colon in it is read back as two. -/
example : Text.splitString ':' (render [⟨"/a"⟩] ⟨"b:c"⟩) = ["/a", "b", "c"] := by decide

end Classpath

end ClojureBuild
