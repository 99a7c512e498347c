import ClojureBuild.Proofs.Journal
import ClojureBuild.Proofs.Rules.Failure
/-!
The steps that an execution marks.

Rules that share one action come to one run of it, at the first of them that is stale, and to none
when all are fresh.  A rule that copies marks a copy, and no more.
-/

namespace ClojureBuild.Rules

variable {ε : Type} {g : Graph ε}

/-! ### Parts of a list of deeds -/

theorem deedsAfter_append (earlier front back : List Entry) :
    deedsAfter earlier (front ++ back) =
      deedsAfter earlier front ++ deedsAfter (earlier ++ front) back := by
  induction front generalizing earlier with
  | nil => rw [List.nil_append, List.append_nil, deedsAfter, List.nil_append]
  | cons entry rest ih =>
      rw [List.cons_append, deedsAfter, deedsAfter, ih, List.cons_append, List.append_assoc,
        List.singleton_append]

theorem zip_deedsAfter_append (earlier front back : List Entry) :
    (front ++ back).zip (deedsAfter earlier (front ++ back)) =
      front.zip (deedsAfter earlier front) ++ back.zip (deedsAfter (earlier ++ front) back) := by
  rw [deedsAfter_append, List.zip_append (length_deedsAfter earlier front).symm]

/-- A list of deeds is done by doing its front and then its back. -/
theorem performEach_append (front back : List (Entry × Deed)) (s : Session) :
    (performEach g (front ++ back)).runIn s =
      match (performEach g front).runIn s with
      | (.ok _, mid) => (performEach g back).runIn mid
      | (.error e, mid) => (.error e, mid) := by
  induction front generalizing s with
  | nil => rfl
  | cons one rest ih =>
      obtain ⟨entry, deed⟩ := one
      rw [List.cons_append, performEach, performEach, Task.runIn_bind, Task.runIn_bind]
      rcases (perform g entry deed).runIn s with ⟨result, mid⟩
      cases result with
      | ok u => exact ih mid
      | error e => rfl

/-! ### Deeds that run nothing -/

theorem marked_change {P : Mark → Prop} {act : World → World × Except OsError Unit}
    (refusal : OsError → ε) : Task.Leads (Marked P) (Task.change act refusal) :=
  .change refusal fun s => ⟨[], by simp, by rw [List.append_nil]; rfl⟩

theorem copyFile_marked (P : Mark → Prop) (source target : Path) :
    Task.Leads (Marked P) (copyFile source target : Task (Failure ε) Unit) := by
  rw [copyFile]
  cases target.parent? with
  | none => exact marked_change _
  | some parent => exact .bind (marked_change _) fun _ => marked_change _

/-- A deed marks the copy that it makes, or what its action marks. -/
theorem perform_marked {P : Mark → Prop} {entry : Entry} {deed : Deed}
    (hrun : ∀ n, deed = .run n → ∀ action ∈ g.actions, Task.Leads (Marked P) action.task)
    (hcopy : deed = .copy → P (.copied entry.1.source.display entry.1.target.display)) :
    Task.Leads (Marked P) (perform g entry deed) := by
  cases deed with
  | pass => exact fun s => ⟨[], by simp, by simp [perform, Session.marks, Event.mark?]⟩
  | cover => exact fun s => ⟨[], by simp, by simp [perform, Session.marks, Event.mark?]⟩
  | run n =>
      rw [perform]
      cases haction : g.actions[n]? with
      | none => exact .pure ()
      | some action =>
          have htask := hrun n rfl action (List.mem_of_getElem? haction)
          refine .bind (.note fun s => ⟨[], by simp, ?_⟩) fun _ => htask.mapError _
          simp [Session.marks, Event.mark?]
  | copy =>
      refine .bind (.note fun s => ?_) fun _ => copyFile_marked P _ _
      refine ⟨[.copied entry.1.source.display entry.1.target.display], ?_, ?_⟩
      · intro mark hin
        obtain rfl := List.mem_singleton.1 hin
        exact hcopy rfl
      · simp [Session.marks, Event.mark?]

theorem performEach_marked {P : Mark → Prop} {todo : List (Entry × Deed)}
    (hrun : ∀ one ∈ todo, one.2.action? = none)
    (hcopy : ∀ one ∈ todo, one.2 = .copy →
      P (.copied one.1.1.source.display one.1.1.target.display)) :
    Task.Leads (Marked P) (performEach g todo) := by
  refine performEach_leads todo fun one hone => perform_marked (fun n hdeed => ?_) (hcopy one hone)
  exact absurd (hdeed ▸ hrun one hone) (by simp [Deed.action?])

/-! ### Rules that share an action -/

section

variable {n : Nat} {earlier known : List Entry}

/-- Behind a rule that needs their action, rules that share it run nothing. -/
theorem action?_of_shared (hshared : ∀ e ∈ known, e.1.action = .invoke n)
    (hearlier : ∃ e ∈ earlier, e.needs n) :
    ∀ one ∈ known.zip (deedsAfter earlier known), one.2.action? = none ∧ one.2 ≠ .copy := by
  intro one hone
  obtain ⟨hentry, front, hdeed⟩ := exists_of_mem_zip_deedsAfter hone
  have haction := hshared one.1 hentry
  obtain ⟨e, he, hneeds⟩ := hearlier
  constructor
  · rw [Option.eq_none_iff_forall_ne_some]
    intro m hm
    rw [Deed.action?_eq_some_iff, hdeed, deedFor_eq_run_iff] at hm
    obtain ⟨⟨-, hm⟩, hnot⟩ := hm
    obtain rfl : n = m := RuleAction.invoke.inj (haction.symm.trans hm)
    exact hnot e (List.mem_append_left _ he) hneeds
  · intro hcopy
    rw [hdeed, deedFor_eq_copy_iff, haction] at hcopy
    exact absurd hcopy.2 (by simp)

/-- Of rules that share an action the first stale one runs it: those in front of it are passed over,
and those behind it run nothing. -/
theorem exists_first_run (hshared : ∀ e ∈ known, e.1.action = .invoke n)
    (hearlier : ∀ e ∈ earlier, ¬ e.needs n) (hneeds : ∃ e ∈ known, e.needs n) :
    ∃ front entry back,
      known.zip (deedsAfter earlier known) = front ++ (entry, .run n) :: back ∧
        (∀ one ∈ front, one.2 = .pass) ∧ ∀ one ∈ back, one.2.action? = none ∧ one.2 ≠ .copy := by
  induction known generalizing earlier with
  | nil =>
      obtain ⟨e, he, -⟩ := hneeds
      exact absurd he List.not_mem_nil
  | cons entry rest ih =>
      have hrest := fun other hother => hshared other (List.mem_cons_of_mem entry hother)
      rw [deedsAfter, List.zip_cons_cons]
      by_cases hfirst : entry.needs n
      · rw [deedFor_eq_run_iff.2 ⟨hfirst, hearlier⟩]
        exact ⟨[], entry, _, rfl, by simp, action?_of_shared hrest ⟨entry, by simp, hfirst⟩⟩
      · have hfresh : entry.2.isStale = false := by
          by_contra hstale
          exact hfirst ⟨by simpa using hstale, hshared entry List.mem_cons_self⟩
        have hlater : ∀ e ∈ earlier ++ [entry], ¬ e.needs n := by
          intro e he
          rcases List.mem_append.1 he with hold | hlast
          · exact hearlier e hold
          · exact List.mem_singleton.1 hlast ▸ hfirst
        have hothers : ∃ e ∈ rest, e.needs n := by simpa [hfirst] using hneeds
        obtain ⟨front, first, back, hsplit, hfront, hback⟩ := ih hrest hlater hothers
        have hpass : deedFor earlier entry = .pass := deedFor_fresh hfresh
        refine ⟨(entry, .pass) :: front, first, back, by rw [hpass, hsplit]; rfl, ?_, hback⟩
        intro one hone
        rcases List.mem_cons.1 hone with rfl | hone
        · rfl
        · exact hfront one hone

/-- Rules that share an action are passed over when none of them is stale. -/
theorem pass_of_fresh (hshared : ∀ e ∈ known, e.1.action = .invoke n)
    (hfresh : ¬ ∃ e ∈ known, e.needs n) :
    ∀ one ∈ known.zip (deedsAfter earlier known), one.2 = .pass := by
  intro one hone
  obtain ⟨hentry, front, hdeed⟩ := exists_of_mem_zip_deedsAfter hone
  have hstale : one.1.2.isStale = false := by
    by_contra hstale
    exact hfresh ⟨one.1, hentry, by simpa using hstale, hshared one.1 hentry⟩
  exact hdeed.trans (deedFor_fresh hstale)

/-- Passing over targets marks nothing. -/
theorem exists_performEach_quiet {todo : List (Entry × Deed)}
    (hpass : ∀ one ∈ todo, one.2 = .pass) (s : Session) :
    ∃ s', (performEach g todo).runIn s = (.ok (), s') ∧ s'.world = s.world ∧
      s'.marks = s.marks := by
  have hdone := performEach_pass (g := g) hpass s
  obtain ⟨marks, hnone, hmarks⟩ := performEach_marked (P := fun _ => False) (g := g)
    (fun one hone => by rw [hpass one hone]; rfl)
    (fun one hone hcopy => absurd ((hpass one hone).symm.trans hcopy) (by simp)) s
  rw [hdone, List.eq_nil_iff_forall_not_mem.2 hnone, List.append_nil] at hmarks
  exact ⟨_, hdone, rfl, hmarks⟩

/-- Rules that share an action mark one run of it if one of them is stale, and nothing otherwise. -/
theorem marks_shared (hshared : ∀ e ∈ known, e.1.action = .invoke n)
    (hearlier : ∀ e ∈ earlier, ¬ e.needs n) {w : World} {mark : Mark}
    (hruns : ∀ (entry : Entry) (begun : Session), begun.world = w →
      ((perform g entry (.run n)).runIn begun).2.marks = begun.marks ++ [mark])
    {s : Session} (hworld : s.world = w) :
    ((performEach g (known.zip (deedsAfter earlier known))).runIn s).2.marks =
      s.marks ++ if ∃ e ∈ known, e.needs n then [mark] else [] := by
  by_cases hneeds : ∃ e ∈ known, e.needs n
  · obtain ⟨front, entry, back, hsplit, hfront, hback⟩ := exists_first_run hshared hearlier hneeds
    obtain ⟨begun, hpassed, hbegun, hquiet⟩ := exists_performEach_quiet (g := g) hfront s
    have hmark := hruns entry begun (hbegun.trans hworld)
    rw [if_pos hneeds, hsplit, performEach_append, hpassed, ← hquiet, ← hmark]
    simp only [performEach, Task.runIn_bind]
    rcases (perform g entry (.run n)).runIn begun with ⟨result, mid⟩
    cases result with
    | error e => rfl
    | ok u =>
        obtain ⟨marks, hnone, hmarks⟩ := performEach_marked (P := fun _ => False) (g := g)
          (fun one hone => (hback one hone).1)
          (fun one hone hcopy => (hback one hone).2 hcopy) mid
        rw [List.eq_nil_iff_forall_not_mem.2 hnone, List.append_nil] at hmarks
        exact hmarks
  · have hpass : ∀ one ∈ known.zip (deedsAfter earlier known), one.2 = .pass :=
      pass_of_fresh hshared hneeds
    obtain ⟨s', hpassed, -, hquiet⟩ := exists_performEach_quiet (g := g) hpass s
    rw [if_neg hneeds, hpassed, hquiet, List.append_nil]

end

/-! ### Whole executions -/

theorem execute_marked {P : Mark → Prop}
    (hactions : ∀ action ∈ g.actions, Task.Leads (Marked P) action.task)
    (hcopy : ∀ rule ∈ g.rules, rule.action = .copy →
      P (.copied rule.source.display rule.target.display)) (force : Bool) :
    Task.Leads (Marked P) (execute force g) :=
  execute_leads force fun entry _ hrule hcopies =>
    perform_marked (fun _ _ => hactions) fun hdeed => hcopy entry.1 hrule (hcopies hdeed)

theorem action?_of_copies {earlier known : List Entry} (h : ∀ e ∈ known, e.1.action = .copy) :
    ∀ one ∈ known.zip (deedsAfter earlier known), one.2.action? = none := by
  intro one hone
  obtain ⟨hentry, front, hdeed⟩ := exists_of_mem_zip_deedsAfter hone
  rw [Option.eq_none_iff_forall_ne_some]
  intro n hn
  rw [Deed.action?_eq_some_iff, hdeed, deedFor_eq_run_iff] at hn
  exact absurd (hn.1.2.symm.trans (h one.1 hentry)) (by simp)

/-- Rules that share an action, followed by rules that copy, mark one run of the action if one of
the rules that name it is stale, and then copies. -/
theorem marks_execute_shared {force : Bool} {s : Session} {found : List Freshness}
    (hfound : states s.world force g.rules = (.ok found : Except (Failure ε) (List Freshness)))
    {shared copies : List Rule} (hrules : g.rules = shared ++ copies) {n : Nat}
    (hshared : ∀ rule ∈ shared, rule.action = .invoke n) {P : Mark → Prop}
    (hcopies : ∀ rule ∈ copies,
      rule.action = .copy ∧ P (.copied rule.source.display rule.target.display)) {mark : Mark}
    (hruns : ∀ (entry : Entry) (begun : Session), begun.world = s.world →
      ((perform g entry (.run n)).runIn begun).2.marks = begun.marks ++ [mark]) :
    ∃ rest, (∀ m ∈ rest, P m) ∧ ((execute force g).runIn s).2.marks =
      s.marks ++ (if n ∈ shared.filterMap (Rule.staleAction? force s.world) then [mark] else []) ++
        rest := by
  have hsnap := Snapshot.of_states hfound
  have hrun := execute_session hfound
  generalize g.rules.zip found = known at hsnap hrun
  obtain ⟨front, back, rfl, hfront, hback⟩ := List.map_eq_append_iff.1 (hsnap.rules_eq.trans hrules)
  have hseen : Snapshot ε force s.world shared front :=
    ⟨hfront, fun e he => hsnap.seen e (List.mem_append_left _ he)⟩
  have hcopied : ∀ e ∈ back, e.1.action = .copy ∧
      P (.copied e.1.source.display e.1.target.display) :=
    fun e he => hcopies e.1 (hback ▸ List.mem_map_of_mem he)
  have hfirst := marks_shared (fun e he => hshared e.1 (hfront ▸ List.mem_map_of_mem he))
    (fun e he => absurd he List.not_mem_nil) hruns rfl
  simp only [hseen.exists_needs_iff] at hfirst
  rw [hrun, performAll, deeds, zip_deedsAfter_append, List.nil_append, performEach_append]
  rcases hran : (performEach g (front.zip (deedsAfter [] front))).runIn s with ⟨result, mid⟩
  rw [hran] at hfirst
  cases result with
  | error e => exact ⟨[], by simp, by rw [List.append_nil]; exact hfirst⟩
  | ok u =>
      have hidle : Task.Leads (Marked P)
          (performEach g (back.zip (deedsAfter front back))) :=
        performEach_marked (action?_of_copies fun e he => (hcopied e he).1)
          fun one hone _ => (hcopied one.1 (exists_of_mem_zip_deedsAfter hone).1).2
      obtain ⟨rest, hrest, hmarks⟩ := hidle mid
      exact ⟨rest, hrest, hmarks.trans (congrArg (· ++ rest) hfirst)⟩

end ClojureBuild.Rules
