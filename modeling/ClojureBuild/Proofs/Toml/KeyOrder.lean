import ClojureBuild.Proofs.Sorting
import ClojureBuild.Proofs.Text.ByteOrder
import ClojureBuild.Toml.Document
/-!
The keys of a document's tables.

A table is put in order when the document is finished, in whatever order its lines came.  Only
values that hold no others are taken over as they were read, and none of these is a table.  Main
statement: the top of a document, and every table right below it, lists its keys in ascending order
of their bytes.
-/

namespace ClojureBuild.Toml

open Reader

/-! ### Scalars are no tables -/

section

variable {α β : Type} {P : α → Prop}

/-- If a reader comes to this result, the value has a property. -/
def Gives (P : α → Prop) (result : Option (α × List Char)) : Prop :=
  ∀ a rest, result = some (a, rest) → P a

theorem Gives.none : Gives P none := by
  intro a rest h
  cases h

theorem Gives.some {a : α} (ha : P a) (rest : List Char) : Gives P (some (a, rest)) := by
  intro b back h
  cases h
  exact ha

theorem Gives.bind (first : Option β) {next : β → Option (α × List Char)}
    (h : ∀ b, Gives P (next b)) : Gives P (first >>= next) := by
  intro a rest hresult
  obtain ⟨b, -, hnext⟩ := Option.bind_eq_some_iff.1 hresult
  exact h b a rest hnext

theorem Gives.ite {c : Prop} [Decidable c] {result other : Option (α × List Char)}
    (hresult : Gives P result) (hother : Gives P other) :
    Gives P (if c then result else other) := by
  split
  · exact hresult
  · exact hother

theorem Gives.either {p q : Reader α} {text : List Char} (hp : Gives P (p text))
    (hq : Gives P (q text)) : Gives P (either p q text) := by
  rw [Reader.either]
  split
  next result hfirst => exact hfirst ▸ hp
  · exact hq

end

/-- Whether a value is a table. -/
def Value.isTable : Value → Bool
  | .table _ => true
  | _ => false

/-- The value is no table. -/
def Value.Single (v : Value) : Prop := v.isTable = false

theorem single_integer (text : List Char) : Gives Value.Single (integer text) := by
  have hin : ∀ base test text, Gives Value.Single (integerIn base test text) := by
    intro base test text
    exact .bind _ fun _ => .ite (.some (by rfl) _) .none
  unfold integer
  split
  · exact hin _ _ _
  · exact hin _ _ _
  · exact hin _ _ _
  · exact .bind _ fun _ => .bind _ fun _ => .ite (.some (by rfl) _) .none

theorem single_specialFloat (text : List Char) : Gives Value.Single (specialFloat text) :=
  .bind _ fun _ => .either (.bind _ fun _ => .some (by rfl) _)
    (.bind _ fun _ => .some (by rfl) _)

theorem single_plainFloat (text : List Char) : Gives Value.Single (plainFloat text) :=
  .bind _ fun _ => .bind _ fun _ => .bind _ fun _ => .bind _ fun _ =>
    .ite .none (.ite .none (.some (by rfl) _))

theorem single_datetime (text : List Char) : Gives Value.Single (datetime text) := by
  refine .either (.bind _ fun (day, rest) => ?_) (.bind _ fun _ => .some (by rfl) _)
  cases rest with
  | nil => exact .some (by rfl) _
  | cons c behind =>
      refine .ite ?_ (.some (by rfl) _)
      cases time behind with
      | none => exact .some (by rfl) _
      | some clock => exact .bind _ fun _ => .some (by rfl) _

/-- A value that holds no other values is no table. -/
theorem single_scalar (text : List Char) : Gives Value.Single (scalar text) := by
  cases text with
  | nil => exact .none
  | cons c text =>
      refine .ite ?_ (.ite ?_ (.ite ?_ (.ite ?_ (.ite ?_ .none))))
      · exact .bind _ fun _ => .some (by rfl) _
      · exact .either (single_datetime _) (.either (single_plainFloat _)
          (.either (single_specialFloat _) (single_integer _)))
      · exact .bind _ fun _ => .some (by rfl) _
      · exact .bind _ fun _ => .some (by rfl) _
      · exact single_specialFloat _

/-! ### Tables in order -/

/-- The keys ascend, by their bytes. -/
def Ascending (entries : List (String × Value)) : Prop :=
  entries.Pairwise fun a b => Text.bytes a.1 ≤ Text.bytes b.1

theorem Section.ascending_inOrder (entries : List (String × Value)) :
    Ascending (inOrder entries) := by
  refine (pairwise_sortBy (fun a b h => ?_) (fun a b c hab hbc => ?_) entries).imp fun h => ?_
  · exact decide_eq_false (lt_asymm (of_decide_eq_true h))
  · exact decide_eq_false (not_lt.2 ((not_lt.1 (of_decide_eq_false hab)).trans
      (not_lt.1 (of_decide_eq_false hbc))))
  · exact Text.bytes_le_iff.2 (not_lt.1 (of_decide_eq_false h))

namespace Section

/-- If a section is finished to a table, the keys of the table ascend. -/
def Ordered (s : Section) : Prop := ∀ entries, s.finish = some (.table entries) → Ascending entries

/-- All sections of a table are finished to ordered ones. -/
def AllOrdered (entries : Entries) : Prop := ∀ e ∈ entries, Ordered e.2

theorem ordered_value {v : Value} (h : v.Single) : (value v).Ordered := by
  intro entries hfinish
  rw [finish, Option.some.injEq] at hfinish
  subst hfinish
  exact absurd h (by simp [Value.Single, Value.isTable])

theorem ordered_list (items : List Section) : (list items).Ordered := by
  intro entries hfinish
  simp [finish] at hfinish

theorem ordered_tables (items : List Entries) : (tables items).Ordered := by
  intro entries hfinish
  simp [finish] at hfinish

theorem ascending_of_finishTable {entries : Entries} {finished : List (String × Value)}
    (h : finishTable entries = some (.table finished)) : Ascending finished := by
  cases entries with
  | nil =>
      rw [finishTable, Option.some.injEq, Value.table.injEq] at h
      exact h ▸ List.Pairwise.nil
  | cons e rest =>
      unfold finishTable at h
      split at h
      · split at h
        · simp at h
        · cases h
      · split at h
        · rw [Option.some.injEq, Value.table.injEq] at h
          exact h ▸ ascending_inOrder _
        · cases h

theorem ordered_inlineTable (entries : Entries) : (inlineTable entries).Ordered := by
  intro finished hfinish
  rw [finish] at hfinish
  exact ascending_of_finishTable hfinish

theorem ordered_table (implied dotted : Bool) (entries : Entries) :
    (table implied dotted entries).Ordered := by
  intro finished hfinish
  rw [finish] at hfinish
  exact ascending_of_finishTable hfinish

/-! ### The sections of a draft -/

theorem AllOrdered.replace {key : String} {s : Section} {entries : Entries} (hs : s.Ordered)
    (h : AllOrdered entries) : AllOrdered (replace key s entries) := by
  induction entries with
  | nil => exact List.forall_mem_singleton.2 hs
  | cons e rest ih =>
      obtain ⟨hfirst, hrest⟩ := List.forall_mem_cons.1 h
      rw [Section.replace]
      split
      · exact List.forall_mem_cons.2 ⟨hs, hrest⟩
      · exact List.forall_mem_cons.2 ⟨hfirst, ih hrest⟩

/-- A change below the top leaves a table or tables there. -/
theorem AllOrdered.alter {dotted : Bool} {change : Bool → Entries → Option Entries}
    {path : List String} {here : Bool} {entries result : Entries} (h : AllOrdered entries)
    (hchange : ∀ here result, change here entries = some result → AllOrdered result)
    (hresult : alter dotted change path here entries = some result) : AllOrdered result := by
  cases path with
  | nil => exact hchange here result hresult
  | cons k path =>
      -- Whatever the first key of the path held, it holds a table or an array of tables then.
      rw [Section.alter] at hresult
      split at hresult
      · obtain ⟨inner, -, hinner⟩ := Option.bind_eq_some_iff.1 hresult
        cases hinner
        exact h.replace (ordered_table _ _ _)
      · cases hresult
      · cases hresult
      · cases hresult
      · split at hresult
        · cases hresult
        · obtain ⟨inner, -, hinner⟩ := Option.bind_eq_some_iff.1 hresult
          cases hinner
          exact h.replace (ordered_table _ _ _)
      · split at hresult
        · cases hresult
        · obtain ⟨inner, -, hinner⟩ := Option.bind_eq_some_iff.1 hresult
          cases hinner
          exact h.replace (ordered_tables _)

theorem AllOrdered.assign {path keys : List String} {v : Section} {root result : Entries}
    (h : AllOrdered root) (hv : v.Ordered) (hresult : assign path keys v root = some result) :
    AllOrdered result := by
  rw [Section.assign] at hresult
  split at hresult
  · cases hresult
  · refine h.alter (fun here result hresult => ?_) hresult
    refine h.alter (fun here result hresult => ?_) hresult
    rw [addValue] at hresult
    split at hresult
    · cases hresult
    · split at hresult
      · cases hresult
        exact h.replace hv
      · cases hresult

theorem AllOrdered.openTable {path : List String} {root result : Entries} (h : AllOrdered root)
    (hresult : openTable path root = some result) : AllOrdered result := by
  rw [Section.openTable] at hresult
  split at hresult
  · cases hresult
  · refine h.alter (fun here result hresult => ?_) hresult
    split at hresult
    · cases hresult
      exact h.replace (ordered_table _ _ _)
    · cases hresult
      refine List.forall_mem_append.2 ⟨fun e he => h e (List.mem_of_mem_filter he), ?_⟩
      exact List.forall_mem_singleton.2 (ordered_table _ _ _)
    · cases hresult

theorem AllOrdered.openItem {path : List String} {root result : Entries} (h : AllOrdered root)
    (hresult : openItem path root = some result) : AllOrdered result := by
  rw [Section.openItem] at hresult
  split at hresult
  · cases hresult
  · refine h.alter (fun here result hresult => ?_) hresult
    split at hresult
    · cases hresult
      exact h.replace (ordered_tables _)
    · cases hresult
      exact h.replace (ordered_tables _)
    · cases hresult

end Section

/-! ### Documents -/

/-- A value that is read is finished to an ordered one: a table is put in order, and a value that
holds no others is none. -/
theorem gives_value (depth : Nat) (text : List Char) :
    Gives Section.Ordered (value depth text) := by
  have hplain : ∀ text, Gives Section.Ordered (value.plain text) := by
    intro text s rest h
    obtain ⟨⟨v, behind⟩, hscalar, hv⟩ := Option.bind_eq_some_iff.1 h
    cases hv
    exact Section.ordered_value (single_scalar text v rest hscalar)
  cases depth with
  | zero => exact hplain text
  | succ depth =>
      cases text with
      | nil => exact .none
      | cons c text =>
          refine .ite ?_ (.ite ?_ (hplain _))
          · refine .bind _ fun _ => .bind _ fun _ => .ite ?_ ?_ <;>
              exact .bind _ fun _ => .bind _ fun _ => .bind _ fun _ =>
                .some (Section.ordered_list _) _
          · refine .bind _ fun _ => .bind _ fun _ => .bind _ fun _ => .bind _ fun _ => ?_
            intro s rest h
            obtain ⟨table, htable, hs⟩ := Option.bind_eq_some_iff.1 h
            obtain ⟨entries, -, hentries⟩ := Option.bind_eq_some_iff.1 htable
            cases hentries
            cases hs
            exact Section.ordered_inlineTable entries

/-- All sections of the draft are finished to ordered ones. -/
def Draft.Ordered (draft : Draft) : Prop := Section.AllOrdered draft.root

theorem gives_line {draft : Draft} (h : draft.Ordered) (text : List Char) :
    Gives Draft.Ordered (line draft text) := by
  unfold line
  split
  · exact .bind _ fun _ => .some h _
  · refine .bind _ fun _ => .bind _ fun _ => .bind _ fun _ => ?_
    intro result rest hresult
    obtain ⟨root, hroot, hresult⟩ := Option.bind_eq_some_iff.1 hresult
    cases hresult
    exact Section.AllOrdered.openItem h hroot
  · refine .bind _ fun _ => .bind _ fun _ => .bind _ fun _ => ?_
    intro result rest hresult
    obtain ⟨root, hroot, hresult⟩ := Option.bind_eq_some_iff.1 hresult
    cases hresult
    exact Section.AllOrdered.openTable h hroot
  · exact .some h _
  · exact .bind _ fun _ => .some h _
  · refine .bind _ fun _ => .bind _ fun _ => .bind _ fun _ => ?_
    intro result rest hresult
    obtain ⟨⟨v, behind⟩, hv, hresult⟩ := Option.bind_eq_some_iff.1 hresult
    obtain ⟨_, -, hresult⟩ := Option.bind_eq_some_iff.1 hresult
    obtain ⟨root, hroot, hresult⟩ := Option.bind_eq_some_iff.1 hresult
    cases hresult
    exact Section.AllOrdered.assign h (gives_value _ _ v behind hv) hroot

theorem ordered_lines {fuel : Nat} {draft result : Draft} {text : List Char} (h : draft.Ordered)
    (hlines : lines fuel draft text = some result) : result.Ordered := by
  induction fuel generalizing draft text with
  | zero => cases hlines
  | succ fuel ih =>
      rw [lines] at hlines
      split at hlines
      · cases hlines
        exact h
      · split at hlines
        · cases hlines
        next hline => exact ih (gives_line h _ _ _ hline) hlines

theorem Section.exists_of_mem_finishEntries {entries : Entries} {finished : List (String × Value)}
    {k : String} {v : Value} (h : finishEntries entries = some finished)
    (hmem : (k, v) ∈ finished) :
    ∃ e ∈ entries, e.2.finish = some v := by
  induction entries generalizing finished with
  | nil =>
      rw [finishEntries, Option.some.injEq] at h
      subst h
      exact absurd hmem List.not_mem_nil
  | cons e rest ih =>
      unfold finishEntries at h
      split at h
      next value others hvalue hothers =>
          rw [Option.some.injEq] at h
          subst h
          rcases List.mem_cons.1 hmem with heq | hmem
          · cases heq
            exact ⟨e, List.mem_cons_self, hvalue⟩
          · obtain ⟨e', he', hfinish⟩ := ih hothers hmem
            exact ⟨e', List.mem_cons_of_mem e he', hfinish⟩
      · cases h

/-- A document lists its keys in ascending order, and so does every table right below its top. -/
theorem ascending_of_parse? {text : String} {entries : List (String × Value)}
    (h : parse? text = some entries) :
    Ascending entries ∧ ∀ k options, (k, .table options) ∈ entries → Ascending options := by
  obtain ⟨draft, hdraft, h⟩ := Option.bind_eq_some_iff.1 h
  obtain ⟨finished, hfinished, h⟩ := Option.bind_eq_some_iff.1 h
  cases h
  refine ⟨Section.ascending_inOrder finished, fun k options hmem => ?_⟩
  have hempty : Draft.Ordered ⟨[], []⟩ := fun e he => absurd he List.not_mem_nil
  have hroot : draft.Ordered := ordered_lines hempty hdraft
  obtain ⟨e, he, hfinish⟩ := Section.exists_of_mem_finishEntries hfinished (mem_sortBy.1 hmem)
  exact hroot e he options hfinish

end ClojureBuild.Toml
