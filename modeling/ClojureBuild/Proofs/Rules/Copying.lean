import ClojureBuild.Proofs.Rules.InStep
/-!
What copying leaves.

A copy writes to one place and makes directories above it; so a series of copies to different
places, none of them a source, leaves in each what its source held at the start.  Main statement: an
execution of copies that succeeds, forced or not, fills every stale target from its source, unless a
device stands there, and changes no other file; nothing is taken away, and nothing is made but stale
targets and directories above them.
-/

namespace ClojureBuild.Rules

open World

variable {ε : Type} {cwd : Location} {g : Graph ε} {r : Rule} {done : List Rule} {w w' mid : World}

/-! ### One copy behind others -/

/-- A target that was copied stays as it is when other places are written to. -/
theorem Rule.Copied.stays {written made : Location → Prop} (h : r.Copied cwd w mid)
    (hprint : Footprint written made mid w') (hplace : ¬ written (r.place cwd)) :
    r.Copied cwd w w' := by
  have hkept : ∀ {node}, mid.node? (r.place cwd) = some node → node.isDir = false →
      w'.node? (r.place cwd) = mid.node? (r.place cwd) := by
    intro node hnode hdir
    refine hprint.node?_eq hplace ?_ fun _ => hnode ▸ Option.some_ne_none node
    rw [isDirAt, hnode]
    exact hdir
  rcases h with ⟨bytes, hbytes, hcopied⟩ | ⟨t, hbefore, hafter⟩
  · obtain ⟨t, x, hnode⟩ := contentAt_eq_some_iff.1 hcopied
    exact Or.inl ⟨bytes, hbytes, by rw [contentAt_congr (hkept hnode rfl), hcopied]⟩
  · exact Or.inr ⟨t, hbefore, (hkept hafter rfl).trans hafter⟩

theorem Rule.Copied.there (h : r.Copied cwd w w') : w'.node? (r.place cwd) ≠ none := by
  rcases h with ⟨bytes, -, hcopied⟩ | ⟨t, -, hafter⟩
  · obtain ⟨t, x, hnode⟩ := contentAt_eq_some_iff.1 hcopied
    exact hnode ▸ Option.some_ne_none _
  · exact hafter ▸ Option.some_ne_none _

/-- A copy takes what was there before places other than its source and target were written to. -/
theorem Rule.Copied.since {written made : Location → Prop} (h : r.Copied cwd mid w')
    (hprint : Footprint written made w mid) (horigin : ¬ written (r.origin cwd))
    (hplace : ¬ written (r.place cwd)) : r.Copied cwd w w' := by
  rcases h with ⟨bytes, hbytes, hcopied⟩ | ⟨t, hbefore, hafter⟩
  · obtain ⟨t, x, hnode⟩ := contentAt_eq_some_iff.1 hbytes
    have hsource := hprint.node?_before horigin hnode rfl
    exact Or.inl ⟨bytes, contentAt_eq_some_iff.2 ⟨t, x, hsource⟩, hcopied⟩
  · exact Or.inr ⟨t, hprint.node?_before hplace hbefore rfl, hafter⟩

/-- Some rules were copied between two worlds, and nothing else was done. -/
structure CopiedAll (cwd : Location) (done : List Rule) (w w' : World) : Prop where
  print : Footprint (fun loc => ∃ r ∈ done, r.place cwd = loc)
    (fun loc => ∃ r ∈ done, loc ∈ r.above cwd) w w'
  noDir : ∀ r ∈ done, w.isDirAt (r.place cwd) = false
  copied : ∀ r ∈ done, r.Copied cwd w w'

theorem CopiedAll.nil (cwd : Location) (w : World) : CopiedAll cwd [] w w :=
  ⟨Footprint.refl w, by simp, by simp⟩

theorem CopiedAll.fits (h : CopiedAll cwd done w w') (hfits : g.Fits cwd w) : g.Fits cwd w' := by
  refine hfits.of_footprint h.print ?_
  rintro loc - hdir ⟨r, hr, rfl⟩
  exact absurd ((h.noDir r hr).symm.trans hdir) (by simp)

/-- One more copy, to a place of its own and from none of the places that were copied to. -/
theorem CopiedAll.snoc {s s' : Session} (h : CopiedAll cwd done w s.world) (hfits : g.Fits cwd w)
    (hr : r ∈ g.copies) (hplaces : ∀ d ∈ done, d.place cwd ≠ r.place cwd)
    (horigins : ∀ d ∈ done, d.place cwd ≠ r.origin cwd) (hne : r.origin cwd ≠ r.place cwd)
    (hcopy : (copyFile r.source r.target : Task (Failure ε) Unit).runIn s = (.ok (), s')) :
    CopiedAll cwd (done ++ [r]) w s'.world := by
  have hnow := h.fits hfits
  have hprint := copy_footprint hr hnow hcopy
  obtain ⟨hdir, hcopied⟩ := copied_of_copyFile hr hnow hne hcopy
  have hplace : ¬ ∃ d ∈ done, d.place cwd = r.place cwd := fun ⟨d, hd, heq⟩ => hplaces d hd heq
  have horigin : ¬ ∃ d ∈ done, d.place cwd = r.origin cwd := fun ⟨d, hd, heq⟩ => horigins d hd heq
  have hall : ∀ {P : Rule → Prop}, (∀ d ∈ done, P d) → P r → ∀ d ∈ done ++ [r], P d := by
    intro P hdone hlast d hd
    rcases List.mem_append.1 hd with hd | hd
    · exact hdone d hd
    · exact List.mem_singleton.1 hd ▸ hlast
  have hold : ∀ d ∈ done, d ∈ done ++ [r] := fun d hd => List.mem_append_left [r] hd
  have hnew : r ∈ done ++ [r] := List.mem_append_right done (List.mem_singleton_self r)
  refine ⟨Footprint.trans (h.print.mono ?_ ?_) (hprint.mono ?_ ?_), hall h.noDir ?_,
    hall (fun d hd => (h.copied d hd).stays hprint (hplaces d hd))
      (hcopied.since h.print horigin hplace)⟩
  · exact fun loc ⟨d, hd, hloc⟩ => ⟨d, hold d hd, hloc⟩
  · exact fun loc ⟨d, hd, hloc⟩ => ⟨d, hold d hd, hloc⟩
  · exact fun loc hloc => ⟨r, hnew, hloc.symm⟩
  · exact fun loc hloc => ⟨r, hnew, hloc⟩
  · rw [Bool.eq_false_iff]
    intro hwas
    exact absurd (hdir.symm.trans (h.print.isDirAt hplace hwas)) (by simp)

/-! ### All copies -/

/-- The rules that are copied by some deeds. -/
def copiedBy (todo : List (Entry × Deed)) : List Rule :=
  (todo.filter (·.2 = .copy)).map (·.1.1)

theorem copiedBy_pass (entry : Entry) (rest : List (Entry × Deed)) :
    copiedBy ((entry, .pass) :: rest) = copiedBy rest := by simp [copiedBy]

theorem copiedBy_copy (entry : Entry) (rest : List (Entry × Deed)) :
    copiedBy ((entry, .copy) :: rest) = entry.1 :: copiedBy rest := by simp [copiedBy]

/-- Deeds that copy, or do nothing, copy their rules one after the other. -/
theorem CopiedAll.performEach {todo : List (Entry × Deed)} {s s' : Session}
    (h : CopiedAll cwd done w s.world) (hfits : g.Fits cwd w)
    (htodo : ∀ one ∈ todo, one.2 = .pass ∨ one.2 = .copy ∧ one.1.1 ∈ g.copies)
    (hplaces : (done ++ copiedBy todo).Pairwise fun r r' => r.place cwd ≠ r'.place cwd)
    (horigins : ∀ d ∈ done ++ copiedBy todo, ∀ r ∈ copiedBy todo, d.place cwd ≠ r.origin cwd)
    (hrun : (Rules.performEach g todo).runIn s = (.ok (), s')) :
    CopiedAll cwd (done ++ copiedBy todo) w s'.world := by
  induction todo generalizing s done with
  | nil =>
      cases hrun
      simpa [copiedBy] using h
  | cons one rest ih =>
      obtain ⟨entry, deed⟩ := one
      have hrest := fun other hother => htodo other (List.mem_cons_of_mem _ hother)
      rw [Rules.performEach] at hrun
      obtain ⟨⟨⟩, next, hfirst, hnext⟩ := Task.runIn_bind_eq_ok hrun
      rcases htodo _ List.mem_cons_self with hdeed | ⟨hdeed, hcopies⟩
      · obtain rfl : deed = .pass := hdeed
        rw [copiedBy_pass] at hplaces horigins ⊢
        cases hfirst
        refine ih ?_ hrest hplaces horigins hnext
        exact h
      · obtain rfl : deed = .copy := hdeed
        rw [copiedBy_copy] at hplaces horigins ⊢
        have hmem : entry.1 ∈ entry.1 :: copiedBy rest := List.mem_cons_self
        have hbefore := (List.pairwise_append.1 hplaces).2.2
        obtain ⟨begun, hbegun, hcopy⟩ := exists_perform_copy g entry s
        rw [hfirst] at hcopy
        replace hcopy := hcopy.symm
        rw [← hbegun] at h
        rw [List.append_cons] at hplaces ⊢
        refine ih (h.snoc hfits hcopies (fun d hd => hbefore d hd _ hmem) ?_ ?_ hcopy) hrest hplaces
          ?_ hnext
        · exact fun d hd => horigins d (List.mem_append_left _ hd) _ hmem
        · exact (horigins _ (List.mem_append_right _ hmem) _ hmem).symm
        · intro d hd r hr
          rw [← List.append_cons] at hd
          exact horigins d hd r (List.mem_cons_of_mem _ hr)

/-- Among rules that only copy, those that are stale are copied. -/
theorem copiedBy_deeds {force : Bool} {known : List Entry}
    (hsnap : Snapshot ε force w g.rules known) (hcopies : ∀ r ∈ g.rules, r.action = .copy) :
    copiedBy (known.zip (deeds known)) = g.rules.filter (Rule.staleIn force w) := by
  have hafter : ∀ (rest earlier : List Entry), (∀ entry ∈ rest, entry ∈ known) →
      copiedBy (rest.zip (deedsAfter earlier rest)) =
        (rest.map Prod.fst).filter (Rule.staleIn force w) := by
    intro rest
    induction rest with
    | nil => exact fun _ _ => rfl
    | cons entry rest ih =>
        intro earlier hknown
        have hentry := hknown entry List.mem_cons_self
        have hrest := ih (earlier ++ [entry]) fun e he => hknown e (List.mem_cons_of_mem entry he)
        have hcopy : entry.1.action = .copy :=
          hcopies _ (hsnap.rules_eq ▸ List.mem_map_of_mem hentry)
        have hstale := (hsnap.seen entry hentry).isStale
        rw [deedsAfter, List.zip_cons_cons, List.map_cons]
        cases hseen : entry.1.staleIn force w with
        | true =>
            have hdeed : deedFor earlier entry = .copy := deedFor_copy (hstale.trans hseen) hcopy
            rw [hdeed, copiedBy_copy, hrest, List.filter_cons_of_pos hseen]
        | false =>
            have hdeed : deedFor earlier entry = .pass := deedFor_fresh (hstale.trans hseen)
            rw [hdeed, copiedBy_pass, hrest, List.filter_cons_of_neg (by rw [hseen]; decide)]
  rw [deeds, hafter known [] (fun _ h => h), hsnap.rules_eq]

/-! ### Executions that copy -/

theorem Graph.fits_of_linkFree (hfree : w.LinkFree) (hstanding : w.Standing) (g : Graph ε) :
    g.Fits w.cwd w :=
  ⟨rfl, hstanding, fun r _ => hfree.unlinked r.source, fun r _ => hfree.unlinked r.target,
    fun _ _ q _ => hfree.unlinked q⟩

/-- The stale rules of a graph were copied between two worlds, and nothing else was done. -/
structure CopiesStale (force : Bool) (g : Graph ε) (w w' : World) : Prop where
  /-- A stale target holds the bytes that its source held, or is the device that it was. -/
  filled : ∀ r ∈ g.rules, r.staleIn force w = true → r.Copied w.cwd w w'
  /-- Every other file keeps its bytes and its time. -/
  others : ∀ {loc : Location} {bytes : ByteArray} {t : Int} {x : Bool},
    w.node? loc = some (.file bytes t x) →
      (∀ r ∈ g.rules, r.staleIn force w = true → r.place w.cwd ≠ loc) →
        w'.node? loc = some (.file bytes t x)
  kept : ∀ {loc : Location}, w.node? loc ≠ none → w'.node? loc ≠ none
  /-- What is new is a stale target or a directory above one. -/
  made : ∀ {loc : Location}, w.node? loc = none → w'.node? loc ≠ none →
    ∃ r ∈ g.rules, r.staleIn force w = true ∧
      (loc = r.place w.cwd ∨ loc ∈ r.above w.cwd ∧ w'.isDirAt loc = true)

theorem CopiedAll.copiesStale {force : Bool}
    (h : CopiedAll w.cwd (g.rules.filter (Rule.staleIn force w)) w w') :
    CopiesStale force g w w' where
  filled r hr hstale := h.copied r (List.mem_filter.2 ⟨hr, hstale⟩)
  others {loc bytes t x} hfile hplace := by
    have hwritten : ¬ ∃ r ∈ g.rules.filter (Rule.staleIn force w), r.place w.cwd = loc := by
      rintro ⟨r, hr, heq⟩
      obtain ⟨hrule, hstale⟩ := List.mem_filter.1 hr
      exact hplace r hrule hstale heq
    rw [h.print.node?_eq hwritten ?_ fun _ => hfile ▸ Option.some_ne_none _, hfile]
    exact isDirAt_of_contentAt (contentAt_eq_some_iff.2 ⟨t, x, hfile⟩)
  kept {loc} hthere := by
    by_cases hwritten : ∃ r ∈ g.rules.filter (Rule.staleIn force w), r.place w.cwd = loc
    · obtain ⟨r, hr, rfl⟩ := hwritten
      exact (h.copied r hr).there
    · rcases h.print.elsewhere hwritten with hsame | ⟨hdir, -⟩
      · rwa [hsame]
      · obtain ⟨t, ht⟩ := isDirAt_iff.1 hdir
        exact ht ▸ Option.some_ne_none _
  made {loc} hnone hthere := by
    by_cases hwritten : ∃ r ∈ g.rules.filter (Rule.staleIn force w), r.place w.cwd = loc
    · obtain ⟨r, hr, rfl⟩ := hwritten
      obtain ⟨hrule, hstale⟩ := List.mem_filter.1 hr
      exact ⟨r, hrule, hstale, Or.inl rfl⟩
    · rcases h.print.elsewhere hwritten with hsame | ⟨hdir, hwas | ⟨-, r, hr, habove⟩⟩
      · exact absurd (hsame.trans hnone) hthere
      · obtain ⟨t, ht⟩ := isDirAt_iff.1 hwas
        exact absurd (ht.symm.trans hnone) (Option.some_ne_none _)
      · obtain ⟨hrule, hstale⟩ := List.mem_filter.1 hr
        exact ⟨r, hrule, hstale, Or.inr ⟨habove, hdir⟩⟩

/-- An execution of copies between places that are apart copies the stale rules and does nothing
else, if it succeeds. -/
theorem execute_copies {force : Bool} {s s' : Session} {report : Report}
    (hcopies : ∀ r ∈ g.rules, r.action = .copy) (hfree : s.world.LinkFree)
    (hstanding : s.world.Standing)
    (htargets : g.rules.Pairwise fun r r' => r.place s.world.cwd ≠ r'.place s.world.cwd)
    (hsources : ∀ r ∈ g.rules, ∀ r' ∈ g.rules, r.place s.world.cwd ≠ r'.origin s.world.cwd)
    (hrun : (execute force g).runIn s = (.ok report, s')) :
    CopiesStale force g s.world s'.world := by
  obtain ⟨known, hsnap, hall, -⟩ := exists_snapshot_of_execute hrun
  have hdeeds := copiedBy_deeds hsnap hcopies
  have htodo : ∀ one ∈ known.zip (deeds known),
      one.2 = .pass ∨ one.2 = .copy ∧ one.1.1 ∈ g.copies := by
    intro one hone
    obtain ⟨hentry, front, hdeed⟩ := exists_of_mem_zip_deedsAfter hone
    have hrule : one.1.1 ∈ g.rules := hsnap.rules_eq ▸ List.mem_map_of_mem hentry
    rw [hdeed]
    cases hstale : one.1.2.isStale with
    | false => exact Or.inl (deedFor_fresh hstale)
    | true =>
        have hcopy := hcopies _ hrule
        exact Or.inr ⟨deedFor_copy hstale hcopy, Graph.mem_copies_iff.2 ⟨hrule, hcopy⟩⟩
  have hplaces : ([] ++ copiedBy (known.zip (deeds known))).Pairwise
      fun (r r' : Rule) => r.place s.world.cwd ≠ r'.place s.world.cwd := by
    rw [List.nil_append, hdeeds]
    exact htargets.sublist List.filter_sublist
  have horigins : ∀ d ∈ [] ++ copiedBy (known.zip (deeds known)),
      ∀ r ∈ copiedBy (known.zip (deeds known)), d.place s.world.cwd ≠ r.origin s.world.cwd := by
    rw [List.nil_append, hdeeds]
    exact fun d hd r hr => hsources d (List.mem_filter.1 hd).1 r (List.mem_filter.1 hr).1
  have hdone := (CopiedAll.nil s.world.cwd s.world).performEach
    (Graph.fits_of_linkFree hfree hstanding g) htodo hplaces horigins hall
  rw [List.nil_append, hdeeds] at hdone
  exact hdone.copiesStale

/-- Two copies, one of them to a directory that is missing. -/
def pairGraph : Graph Unit :=
  (Graph.empty.copy ⟨"s/a"⟩ ⟨"t/d/a"⟩).copy ⟨"s/b"⟩ ⟨"u"⟩

/-- The target of the second copy is there, and older than its source. -/
def pairSession : Session where
  world :=
    { nodes := [(["s"], .dir 0), (["a", "s"], .file ⟨#[1]⟩ 5 false),
        (["b", "s"], .file ⟨#[2]⟩ 5 false), (["u"], .file ⟨#[3]⟩ 1 false)]
      cwd := []
      clock := 10 }
  journal := []

theorem execute_copies_pair :
    ((execute false pairGraph).runIn pairSession).1 = .ok ⟨[], [], [⟨"t/d/a"⟩, ⟨"u"⟩], 0⟩ ∧
      CopiesStale false pairGraph pairSession.world
        ((execute false pairGraph).runIn pairSession).2.world := by
  have hreport : ((execute false pairGraph).runIn pairSession).1 =
      .ok ⟨[], [], [⟨"t/d/a"⟩, ⟨"u"⟩], 0⟩ := by decide +kernel
  have hstanding : pairSession.world.Standing := by
    intro loc hloc
    obtain rfl := List.suffix_nil.1 hloc
    rfl
  rcases hrun : (execute false pairGraph).runIn pairSession with ⟨result, left⟩
  rw [hrun] at hreport
  obtain rfl : result = .ok _ := hreport
  exact ⟨rfl, execute_copies (by decide) (by decide) hstanding (by decide) (by decide) hrun⟩

/-- A copy to a device. -/
def sinkGraph : Graph Unit := Graph.empty.copy ⟨"s"⟩ ⟨"dev/null"⟩

def sinkSession : Session where
  world :=
    { nodes := [(["dev"], .dir 0), (["null", "dev"], .device 0),
        (["s"], .file ⟨#[120]⟩ 5 false)]
      cwd := []
      clock := 10 }
  journal := []

/-- A device takes the bytes and stays a device, so not every stale target is a file afterwards. -/
theorem not_filled_of_device :
    ¬ ∀ (force : Bool) (g : Graph Unit) (s s' : Session) (report : Report),
      (∀ r ∈ g.rules, r.action = .copy) → s.world.IsTree → s.world.LinkFree → s.world.Standing →
      (g.rules.Pairwise fun r r' => ¬ r.place s.world.cwd <:+ r'.place s.world.cwd ∧
        ¬ r'.place s.world.cwd <:+ r.place s.world.cwd) →
      (∀ r ∈ g.rules, ∀ r' ∈ g.rules, ¬ r.place s.world.cwd <:+ r'.origin s.world.cwd) →
      (execute force g).runIn s = (.ok report, s') →
      ∀ r ∈ g.rules, r.staleIn force s.world = true →
        ∃ bytes, s.world.contentAt (r.origin s.world.cwd) = some bytes ∧
          s'.world.contentAt (r.place s.world.cwd) = some bytes := by
  intro hfilled
  have hreport : ((execute true sinkGraph).runIn sinkSession).1 =
      .ok ⟨[], [], [⟨"dev/null"⟩], 0⟩ := by decide +kernel
  have hstanding : sinkSession.world.Standing := by
    intro loc hloc
    obtain rfl := List.suffix_nil.1 hloc
    rfl
  have hnone : ((execute true sinkGraph).runIn sinkSession).2.world.contentAt ["null", "dev"] =
      none := by decide +kernel
  rcases hrun : (execute true sinkGraph).runIn sinkSession with ⟨result, left⟩
  rw [hrun] at hreport hnone
  obtain rfl : result = .ok _ := hreport
  obtain ⟨bytes, -, hcopied⟩ := hfilled true sinkGraph sinkSession left _ (by decide)
    (by decide +kernel) (by decide) hstanding (by decide) (by decide) hrun
    ⟨⟨"dev/null"⟩, ⟨"s"⟩, .copy⟩ (by decide) (by decide +kernel)
  exact absurd (hcopied.symm.trans hnone) (Option.some_ne_none bytes)

end ClojureBuild.Rules
