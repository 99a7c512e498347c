import ClojureBuild.Proofs.World.Absolute
/-!
Changes near a place.

Main statements: what is made for a path at a place, above it or below it, and what is copied below
it, changes nothing elsewhere, as long as no link stands near the place.  What is elsewhere keeps
its kind and its content.
-/

namespace ClojureBuild.World

variable {w w' : World} {place loc : Location}

/-- A location strictly below a place. -/
def Below (place loc : Location) : Prop := place <:+ loc ∧ loc ≠ place

/-- A location at a place, above it or below it. -/
def Near (place loc : Location) : Prop := loc <:+ place ∨ place <:+ loc

/-- Nothing changed but near a place: what is below it may have, and it may have been made a
directory with what was missing above it. -/
def Confined (place : Location) (w w' : World) : Prop :=
  Footprint (Below place) (· <:+ place) w w'

/-- No link stands near a place. -/
def Clear (place : Location) (w : World) : Prop :=
  ∀ loc, Near place loc → ∀ link : String, w.node? loc ≠ some (.link link)

theorem LinkFree.clear (hfree : w.LinkFree) (place : Location) : Clear place w := by
  intro loc _ link hlink
  exact absurd (hfree hlink) (by simp [Node.isLink])

theorem Confined.clear (h : Confined place w w') (hclear : Clear place w) : Clear place w' :=
  fun loc hloc link hlink => hclear loc hloc link (h.noLink hlink)

theorem Near.of_suffix {up : Location} (h : Near place loc) (hup : up <:+ loc) : Near place up := by
  rcases h with habove | hbelow
  · exact Or.inl (hup.trans habove)
  · exact List.suffix_or_suffix_of_suffix hup hbelow

theorem Rooted.unlinked_of_clear {p : Path} (hp : Rooted p)
    (hnear : Near place (p.placeFrom w.cwd)) (hclear : Clear place w) : w.Unlinked p :=
  hp.unlinked fun loc hloc => hclear loc (hnear.of_suffix hloc)

/-- Directories that are made for a path near a place are near it. -/
theorem makeDirs_confined {p : Path} (hp : Rooted p) (hnear : Near place (p.placeFrom w.cwd))
    (hclear : Clear place w) : Confined place w (w.makeDirs p).1 := by
  have habove : ∀ q ∈ ancestors p, Rooted q ∧ Near place (q.placeFrom w.cwd) := by
    intro q hq
    obtain ⟨habsolute, hfront⟩ := of_mem_ancestors hp.absolute hq
    exact ⟨hp.of_front habsolute hfront,
      hnear.of_suffix (hp.placeFrom_suffix habsolute hfront w.cwd)⟩
  have hmade : Footprint (Below place) (Near place) w (w.makeDirs p).1 :=
    makeDirs_footprint (fun q hq => (habove q hq).1.unlinked_of_clear (habove q hq).2 hclear)
      fun q hq => (habove q hq).2
  refine ⟨hmade.cwd, hmade.noLink, fun {loc} hloc => ?_⟩
  refine (hmade.elsewhere hloc).imp_right (And.imp_right (Or.imp_right (And.imp_right ?_)))
  rintro (habove | hbelow)
  · exact habove
  · have hsame : loc = place := by
      by_contra hne
      exact hloc ⟨hbelow, hne⟩
    exact hsame ▸ List.suffix_rfl

theorem copyFile_confined {source target : Path} (htarget : Rooted target)
    (hbelow : Below place (target.placeFrom w.cwd)) (hclear : Clear place w) :
    Confined place w (w.copyFile source target).1 :=
  copyFile_footprint (htarget.unlinked_of_clear (Or.inr hbelow.1) hclear) hbelow

/-! ### Kind and content -/

/-- A location keeps its kind and its content; of a directory the time may change. -/
def Alike (loc : Location) (w w' : World) : Prop :=
  w'.node? loc = w.node? loc ∨ w.isDirAt loc = true ∧ w'.isDirAt loc = true

theorem Alike.trans {w'' : World} (h : Alike loc w w') (h' : Alike loc w' w'') :
    Alike loc w w'' := by
  rcases h with hsame | ⟨hdir, hdir'⟩
  · rcases h' with hsame' | ⟨hdir', hdir''⟩
    · exact Or.inl (hsame'.trans hsame)
    · exact Or.inr ⟨by rwa [isDirAt, ← hsame], hdir''⟩
  · rcases h' with hsame' | ⟨-, hdir''⟩
    · exact Or.inr ⟨hdir, by rwa [isDirAt, hsame']⟩
    · exact Or.inr ⟨hdir, hdir''⟩

theorem Alike.ne_none (h : Alike loc w w') (hthere : w.node? loc ≠ none) : w'.node? loc ≠ none := by
  rcases h with hsame | ⟨-, hdir⟩
  · rwa [hsame]
  · obtain ⟨t, ht⟩ := isDirAt_iff.1 hdir
    rw [ht]
    exact Option.some_ne_none _

theorem Confined.alike (h : Confined place w w') (hloc : ¬ Below place loc)
    (hthere : loc <:+ place → w.node? loc ≠ none) : Alike loc w w' := by
  rcases h.elsewhere hloc with hsame | ⟨hdir', hdir | ⟨hnone, habove⟩⟩
  · exact Or.inl hsame
  · exact Or.inr ⟨hdir, hdir'⟩
  · exact absurd hnone (hthere habove)

end ClojureBuild.World
