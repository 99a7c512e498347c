import ClojureBuild.Proofs.World.Absolute
import ClojureBuild.Proofs.World.Links
import ClojureBuild.Proofs.World.Times
/-!
Looking up behind a directory.

A path may lead into a directory through links, and what is behind the path is looked up there.
Main statements: a directory that a path enters is entered ever after; and where no link is on the
way down, the names behind the path lead where they say, through directories.
-/

namespace ClojureBuild.World

variable {w w' : World} {p : Path} {loc : Location} {names front rest : List String} {spot : Spot}

/-- What is behind a path is looked up in a directory.  What is behind the empty path is looked up
in the current one. -/
def Enters (w : World) (p : Path) (loc : Location) : Prop :=
  w.resolveFrom true linkLimit (if p.isAbsolute then [] else w.cwd) (solidSteps p) =
    .ok (.taken loc)

theorem Enters.unique {loc' : Location} (h : w.Enters p loc) (h' : w.Enters p loc') :
    loc = loc' :=
  Spot.taken.inj (Except.ok.inj (h.symm.trans h'))

theorem Enters.renewed (h : w.Enters p loc) (hrenewed : Renewed w w') : w'.Enters p loc := by
  rw [Enters, hrenewed.cwd]
  exact hrenewed.resolveFrom (fun _ _ hvacant => absurd hvacant (by simp)) linkLimit h

/-! ### Looking up in two parts -/

theorem stepsOf_descend (p : Path) (hne : names ≠ []) (hnames : ∀ name ∈ names, Path.IsName name) :
    stepsOf (p.descend names).text = solidSteps p ++ names.map .down := by
  obtain hnil | ⟨init, last, rfl⟩ := List.eq_nil_or_concat names
  · exact absurd hnil hne
  · rw [List.concat_eq_append] at hnames ⊢
    rw [Path.descend_concat, stepsOf_div _ (hnames last (by simp)),
      (descend_steps p fun name hname => hnames name (by simp [hname])).1, List.append_assoc,
      List.map_append, List.map_singleton]

/-- Names behind a path are looked up in the directory that the path leads into. -/
theorem exists_of_resolve_descend (hne : names ≠ []) (hnames : ∀ name ∈ names, Path.IsName name)
    (h : w.resolve true (p.descend names) = .ok spot) :
    ∃ loc jump, w.Enters p loc ∧ w.traverse true jump loc (names.map .down) = .ok spot ∧
      ∀ names' spot', names' ≠ [] → (∀ name ∈ names', Path.IsName name) →
        Askable (p.descend names') →
          w.traverse true jump loc (names'.map .down) = .ok spot' →
            w.resolve true (p.descend names') = .ok spot' := by
  have hfrom : w.resolveFrom true linkLimit (if p.isAbsolute then [] else w.cwd)
      (solidSteps p ++ names.map .down) = .ok spot := by
    have htraverse := (resolve_eq_ok.1 h).2
    rwa [stepsOf_descend p hne hnames, (descend_steps p hnames).2] at htraverse
  obtain ⟨loc, jump, hnext⟩ := exists_of_resolveFrom_front linkLimit
    (fun hnil => absurd (List.map_eq_nil_iff.1 hnil) hne) hfrom
  refine ⟨loc, jump, ?_, (hnext _).symm.trans hfrom, fun names' spot' hne' hnames' hask hgo => ?_⟩
  · have hhere := hnext []
    rwa [List.append_nil] at hhere
  · refine resolve_eq_ok.2 ⟨hask, ?_⟩
    rw [stepsOf_descend p hne' hnames', (descend_steps p hnames').2]
    exact (hnext _).trans hgo

/-! ### The way down -/

/-- No link is on the way down from a place, its end included. -/
def ClearDown (w : World) (loc : Location) (names : List String) : Prop :=
  ∀ front, front <+: names → front ≠ [] → ∀ link : String,
    w.node? (front.reverse ++ loc) ≠ some (.link link)

theorem ClearDown.cons {name : String} (h : w.ClearDown loc (name :: rest)) :
    (∀ link : String, w.node? (name :: loc) ≠ some (.link link)) ∧
      w.ClearDown (name :: loc) rest := by
  refine ⟨h [name] ((List.prefix_cons_inj name).2 List.nil_prefix) (by simp), ?_⟩
  intro way hway hne link
  have hlink := h (name :: way) ((List.prefix_cons_inj name).2 hway) (by simp) link
  rwa [List.reverse_cons, List.append_assoc] at hlink

/-- A look-up went down by the names: it ends at the place that they spell, came through
directories only, and what it calls taken is there. -/
structure WentDown (w : World) (loc : Location) (names : List String) (spot : Spot) : Prop where
  location : spot.location = names.reverse ++ loc
  above : ∀ front, front <+: names → front ≠ [] → front ≠ names →
    w.isDirAt (front.reverse ++ loc) = true
  short : ∀ name ∈ names, name.length ≤ nameLimit
  there : ∀ place, spot = .taken place → ∃ node, w.node? place = some node

theorem WentDown.single {name : String} (hshort : name.length ≤ nameLimit)
    (hlocation : spot.location = name :: loc)
    (hthere : ∀ place, spot = .taken place → ∃ node, w.node? place = some node) :
    w.WentDown loc [name] spot := by
  refine ⟨hlocation, fun front hfront hne hnot => ?_, by simpa using hshort, hthere⟩
  rcases List.prefix_concat_iff.1 (show front <+: [] ++ [name] from hfront) with hall | hnil
  · exact absurd hall hnot
  · exact absurd (List.prefix_nil.1 hnil) hne

theorem WentDown.cons {name : String} (hdir : w.isDirAt (name :: loc) = true)
    (hshort : name.length ≤ nameLimit) (h : w.WentDown (name :: loc) rest spot) :
    w.WentDown loc (name :: rest) spot := by
  refine ⟨?_, fun front hfront hne hnot => ?_, List.forall_mem_cons.2 ⟨hshort, h.short⟩, h.there⟩
  · rw [h.location, List.reverse_cons, List.append_assoc]
    rfl
  · obtain hnil | ⟨way, rfl, hway⟩ := List.prefix_cons_iff.1 hfront
    · exact absurd hnil hne
    · rw [List.reverse_cons, List.append_assoc]
      by_cases hend : way = []
      · subst hend
        exact hdir
      · exact h.above way hway hend fun heq => hnot (by rw [heq])

theorem wentDown_of_traverse {follow : Bool}
    {jump : Location → List PathStep → Except OsError Spot} (hne : names ≠ [])
    (hclear : w.ClearDown loc names)
    (h : w.traverse follow jump loc (names.map .down) = .ok spot) :
    w.WentDown loc names spot := by
  induction names generalizing loc with
  | nil => exact absurd rfl hne
  | cons name rest ih =>
      obtain ⟨hhead, htail⟩ := hclear.cons
      obtain ⟨hshort, ⟨-, hlast, -, rfl⟩ | ⟨hdir, hgo⟩ | ⟨node, hnode, -, hlast, rfl⟩⟩ :=
        traverse_down_cases hhead h
      · obtain rfl := List.map_eq_nil_iff.1 hlast
        exact .single hshort rfl fun _ htaken => absurd htaken (by simp)
      · by_cases hlast : rest = []
        · subst hlast
          cases hgo
          obtain ⟨t, ht⟩ := isDirAt_iff.1 hdir
          exact .single hshort rfl fun _ htaken => ⟨_, Spot.taken.inj htaken ▸ ht⟩
        · exact .cons hdir hshort (ih hlast htail hgo)
      · obtain rfl := List.map_eq_nil_iff.1 hlast
        exact .single hshort rfl fun _ htaken => ⟨node, Spot.taken.inj htaken ▸ hnode⟩

theorem Enters.wentDown (h : w.Enters p loc) (hne : names ≠ [])
    (hnames : ∀ name ∈ names, Path.IsName name) (hclear : w.ClearDown loc names)
    (hresolve : w.resolve true (p.descend names) = .ok spot) : w.WentDown loc names spot := by
  obtain ⟨loc', jump, henters, htraverse, -⟩ := exists_of_resolve_descend hne hnames hresolve
  obtain rfl := h.unique henters
  exact wentDown_of_traverse hne hclear htraverse

/-- Through directories a look-up goes on from the last of them. -/
theorem traverse_down_dirs_append {follow : Bool}
    {jump : Location → List PathStep → Except OsError Spot}
    (hshort : ∀ name ∈ front, name.length ≤ nameLimit)
    (hdirs : ∀ way, way <+: front → way ≠ [] → w.isDirAt (way.reverse ++ loc) = true)
    (more : List PathStep) :
    w.traverse follow jump loc (front.map .down ++ more) =
      w.traverse follow jump (front.reverse ++ loc) more := by
  induction front generalizing loc with
  | nil => rfl
  | cons name rest ih =>
      obtain ⟨hhead, htail⟩ := List.forall_mem_cons.1 hshort
      have hdir : w.isDirAt (name :: loc) = true :=
        hdirs [name] ((List.prefix_cons_inj name).2 List.nil_prefix) (by simp)
      rw [List.map_cons, List.cons_append, traverse_down_dir _ hhead hdir, List.reverse_cons,
        List.append_assoc]
      refine ih htail fun way hway _ => ?_
      have hbelow := hdirs (name :: way) ((List.prefix_cons_inj name).2 hway) (by simp)
      rwa [List.reverse_cons, List.append_assoc] at hbelow

theorem traverse_down_dirs {follow : Bool}
    {jump : Location → List PathStep → Except OsError Spot}
    (hshort : ∀ name ∈ front, name.length ≤ nameLimit)
    (hdirs : ∀ way, way <+: front → way ≠ [] → w.isDirAt (way.reverse ++ loc) = true) :
    w.traverse follow jump loc (front.map .down) = .ok (.taken (front.reverse ++ loc)) := by
  have hall := @traverse_down_dirs_append w loc front follow jump hshort hdirs []
  rwa [List.append_nil] at hall

theorem text_descend_ne (p : Path) (hne : names ≠ []) (hnames : ∀ name ∈ names, Path.IsName name) :
    (p.descend names).text ≠ "" := by
  obtain ⟨name, rest, rfl⟩ := List.exists_cons_of_ne_nil hne
  obtain ⟨hname, hrest⟩ := List.forall_mem_cons.1 hnames
  rw [Path.descend_cons]
  refine text_descend_ne_empty (fun hempty => hname.nonempty ?_) hrest
  have htext := congrArg String.toList (text_div_append p hname)
  rw [hempty, String.toList_append, String.toList_append] at htext
  exact (List.append_eq_nil_iff.1 (List.append_eq_nil_iff.1 htext.symm).2).2

theorem Askable.of_descend (hp : p.text ≠ "") (hnames : ∀ name ∈ names, Path.IsName name)
    (h : Askable (p.descend names)) : Askable p := by
  induction names generalizing p with
  | nil => exact h
  | cons name rest ih =>
      obtain ⟨hname, hrest⟩ := List.forall_mem_cons.1 hnames
      have hlonger : (p.descend [name]).text ≠ "" :=
        text_descend_ne p (by simp) (by simpa using hname)
      exact (ih hlonger hrest h).of_div hname hp

/-- On the way to what names behind a path lead to are directories. -/
theorem Enters.stat_front (h : w.Enters p loc) (hfront : front ≠ []) (hrest : rest ≠ [])
    (hnames : ∀ name ∈ front ++ rest, Path.IsName name) (hclear : w.ClearDown loc (front ++ rest))
    (hresolve : w.resolve true (p.descend (front ++ rest)) = .ok spot) :
    ∃ t, w.stat (p.descend front) = .ok (front.reverse ++ loc, .dir t) := by
  have hne : front ++ rest ≠ [] := by simp [hfront]
  have hbefore : ∀ name ∈ front, Path.IsName name := fun name hname => hnames name (by simp [hname])
  have hbehind : ∀ name ∈ rest, Path.IsName name := fun name hname => hnames name (by simp [hname])
  obtain ⟨loc', jump, henters, htraverse, hagain⟩ := exists_of_resolve_descend hne hnames hresolve
  obtain rfl := h.unique henters
  obtain ⟨-, habove, hshort, -⟩ := wentDown_of_traverse hne hclear htraverse
  have hdirs : ∀ way, way <+: front → way ≠ [] → w.isDirAt (way.reverse ++ loc) = true := by
    intro way hway hsome
    refine habove way (hway.trans (List.prefix_append _ _)) hsome fun hall => ?_
    have hlength := hway.length_le
    rw [hall, List.length_append] at hlength
    have hpos := List.length_pos_iff.2 hrest
    omega
  have hask : Askable (p.descend front) := by
    refine .of_descend (text_descend_ne p hfront hbefore) hbehind ?_
    rw [← Path.descend_append]
    exact (resolve_eq_ok.1 hresolve).1
  obtain ⟨t, ht⟩ := isDirAt_iff.1 (hdirs front List.prefix_rfl hfront)
  refine ⟨t, stat_eq_ok.2 ⟨hagain _ _ hfront hbefore hask ?_, ht⟩⟩
  exact traverse_down_dirs (fun name hname => hshort name (by simp [hname])) hdirs

theorem Enters.stat_between (h : w.Enters p loc) (hfront : front ≠ [])
    (hnames : ∀ name ∈ front ++ rest, Path.IsName name) (hclear : w.ClearDown loc (front ++ rest))
    (hresolve : w.resolve true (p.descend (front ++ rest)) = .ok spot) {way : List String}
    (hway : way <+: rest) (hnot : way ≠ rest) :
    ∃ t, w.stat (p.descend (front ++ way)) = .ok ((front ++ way).reverse ++ loc, .dir t) := by
  obtain ⟨more, rfl⟩ := hway
  have hmore : more ≠ [] := by
    rintro rfl
    exact hnot (List.append_nil way).symm
  rw [← List.append_assoc] at hnames hclear hresolve
  exact h.stat_front (by simp [hfront]) hmore hnames hclear hresolve

/-! ### Making and writing -/

theorem makeDirs_adds (w : World) (p : Path) :
    Footprint (fun _ => False) (fun _ => True) w (w.makeDirs p).1 := by
  have : IsPreorder World (Footprint (fun _ => False) (fun _ => True)) :=
    { refl := .refl
      trans := fun _ _ _ => .trans }
  refine @makeDirs_moves _ this p (fun q _ w w' hmake => ?_) w
  obtain ⟨parent, name, hresolve, rfl⟩ := exists_of_makeDir hmake
  exact create_footprint rfl (Or.inr ⟨resolve_vacant hresolve, trivial, rfl⟩)

/-- A file that is written behind a path is found there again, and no other place is written to. -/
theorem Enters.writeFile {content : ByteArray} (h : w.Enters p loc) (hne : names ≠ [])
    (hnames : ∀ name ∈ names, Path.IsName name) (hclear : w.ClearDown loc names)
    (hdevice : ∀ t, w.node? (names.reverse ++ loc) ≠ some (.device t))
    (hwrite : w.writeFile (p.descend names) content = .ok w') :
    (∃ t x, w'.stat (p.descend names) = .ok (names.reverse ++ loc, .file content t x)) ∧
      (∀ made, Footprint (· = names.reverse ++ loc) made w w') ∧
        Keeps (· ≠ names.reverse ++ loc) w w' := by
  have hrenewed := writeFile_renewed hwrite
  obtain ⟨spot, hspot, hstore⟩ := Task.exists_of_bind_eq_ok hwrite
  cases hstore
  have hresolve := resolve_of_openForWriting hspot
  obtain ⟨hlocation, -, -, hthere⟩ := h.wentDown hne hnames hclear hresolve
  have hfile : ∃ t x, (w.store spot content none).node? (names.reverse ++ loc) =
      some (.file content t x) := by
    rw [← hlocation]
    cases hkind : spot with
    | vacant parent name => exact ⟨_, _, (node?_create ..).trans (if_pos rfl)⟩
    | taken place =>
        obtain rfl : place = names.reverse ++ loc := by rw [← hlocation, hkind]; rfl
        obtain ⟨node, hnode⟩ := hthere _ hkind
        have hdir := isDirAt_of_openForWriting (hkind ▸ hspot)
        cases node with
        | dir t => exact absurd (isDirAt_iff.2 ⟨t, hnode⟩) (by simp [hdir])
        | file old t x => exact ⟨_, _, node?_store_taken hnode content none⟩
        | link link => exact absurd hnode (hclear names List.prefix_rfl hne link)
        | device t => exact absurd hnode (hdevice t)
  obtain ⟨t, x, hnode⟩ := hfile
  refine ⟨⟨t, x, stat_eq_ok.2 ⟨?_, hnode⟩⟩, fun made => store_footprint _ _ hlocation,
    fun place hplace bytes hbytes => ?_⟩
  · rw [← hlocation]
    refine hrenewed.resolve ?_ hresolve
    rintro parent name rfl
    exact ⟨content, t, x, by rwa [← hlocation] at hnode⟩
  · rwa [contentAt_store_of_ne (hlocation ▸ hplace.symm)]

/-- A file is found again by its path, with its bytes, for as long as nothing is taken away and its
place keeps them. -/
theorem Renewed.stat_file (h : Renewed w w') (hkeeps : Keeps (· = loc) w w') {content : ByteArray}
    {t : Int} {x : Bool} (hstat : w.stat p = .ok (loc, .file content t x)) :
    ∃ t x, w'.stat p = .ok (loc, .file content t x) := by
  obtain ⟨hresolve, hnode⟩ := stat_eq_ok.1 hstat
  obtain ⟨t', x', hnode'⟩ := contentAt_eq_some_iff.1
    (hkeeps loc rfl content (contentAt_eq_some_iff.2 ⟨t, x, hnode⟩))
  have hagain := h.resolve (fun _ _ hvacant => absurd hvacant (by simp)) hresolve
  exact ⟨t', x', stat_eq_ok.2 ⟨hagain, hnode'⟩⟩

/-! ### A walk that meets one file of a kind -/

theorem flatMap_eq_of_sole {α β : Type} {f : α → List β} {as : List α} {a : α} (hnodup : as.Nodup)
    (ha : a ∈ as) (h : ∀ b ∈ as, b ≠ a → f b = []) : as.flatMap f = f a := by
  obtain ⟨front, back, rfl⟩ := List.append_of_mem ha
  obtain ⟨-, hback, hapart⟩ := List.nodup_append.1 hnodup
  have hfront : front.flatMap f = [] := List.flatMap_eq_nil_iff.2 fun b hb =>
    h b (by simp [hb]) (hapart b hb a (by simp))
  have hrest : back.flatMap f = [] := List.flatMap_eq_nil_iff.2 fun b hb =>
    h b (by simp [hb]) fun heq => (List.nodup_cons.1 hback).1 (heq ▸ hb)
  rw [List.flatMap_append, List.flatMap_cons, hfront, hrest, List.nil_append, List.append_nil]

/-- If what is of a kind below a directory is under one name, a walk shows none under another. -/
theorem filter_shownAt_eq_nil {kind : Path → Bool} {all : Bool} {way : List (Location × Path)}
    {path : Path} {name other : String} {rest : List String}
    (hclear : ∀ (way : List String) (link : String), w.node? (way ++ loc) ≠ some (.link link))
    (hsole : ∀ way, (w.node? (way.reverse ++ loc)).any Node.isFile = true →
      kind (path.descend way) = true → way = name :: rest) (hother : other ≠ name) :
    (w.shownAt all way path loc other).filter kind = [] := by
  have hbelow : ∀ (way : List String) (link : String),
      w.node? (way ++ other :: loc) ≠ some (.link link) := fun way =>
    List.append_cons way other loc ▸ hclear (way ++ [other])
  refine List.filter_eq_nil_iff.2 fun p hp hk => hother ?_
  obtain ⟨-, ⟨hfile, rfl⟩ | ⟨t, -, hp⟩⟩ := mem_shownAt_iff.1 hp
  · exact (List.cons.inj (hsole [other] hfile hk)).1
  · obtain ⟨more, -, hfile, -, -, rfl⟩ := exists_of_mem_shownBelow hbelow hp
    refine (List.cons.inj (hsole (other :: more) ?_ hk)).1
    rwa [List.reverse_cons, List.append_assoc]

/-- Of the files that a walk shows, one alone is of a kind, if there is no other below. -/
theorem filter_shownBelow {kind : Path → Bool} {all : Bool} {way : List (Location × Path)}
    {path : Path} (hne : names ≠ [])
    (hclear : ∀ (way : List String) (link : String), w.node? (way ++ loc) ≠ some (.link link))
    (hsole : ∀ way, (w.node? (way.reverse ++ loc)).any Node.isFile = true →
      kind (path.descend way) = true → way = names)
    (hfile : (w.node? (names.reverse ++ loc)).any Node.isFile = true)
    (hdirs : ∀ front, front <+: names → front ≠ names →
      ∃ t, w.stat (path.descend front) = .ok (front.reverse ++ loc, .dir t))
    (hkind : kind (path.descend names) = true) (hshown : Shown all names) :
    (w.shownBelow all way path loc).filter kind = [path.descend names] := by
  induction names generalizing loc path way with
  | nil => exact absurd rfl hne
  | cons name rest ih =>
      obtain ⟨hpassed, hrest⟩ := shown_cons.1 hshown
      have hin : ∀ (name link : String), w.node? (name :: loc) ≠ some (.link link) := fun name =>
        hclear [name]
      have hothers : ∀ other ∈ w.childNames loc, other ≠ name →
          (w.shownAt all way path loc other).filter kind = [] := fun other _ =>
        filter_shownAt_eq_nil hclear hsole
      have hthere : name ∈ w.childNames loc ∧
          (w.shownAt all way path loc name).filter kind = [path.descend (name :: rest)] := by
        by_cases hlast : rest = []
        · subst hlast
          have hat : (w.node? (name :: loc)).any Node.isFile = true := hfile
          obtain ⟨node, hnode, -⟩ := (Option.any_eq_true _ _).1 hat
          refine ⟨mem_childNames.2 ⟨node, hnode⟩, ?_⟩
          rw [shownAt_of_isFile hpassed hat]
          exact List.filter_cons_of_pos hkind
        · obtain ⟨t, hstat⟩ := hdirs [name] ((List.prefix_cons_inj name).2 List.nil_prefix)
            (by simpa using Ne.symm hlast)
          have hnode : w.node? (name :: loc) = some (.dir t) := (stat_eq_ok.1 hstat).2
          refine ⟨mem_childNames.2 ⟨_, hnode⟩, ?_⟩
          rw [shownAt_of_dir hpassed hnode]
          refine ih hlast (fun way => ?_) (fun way hfile hk => ?_) ?_
            (fun front hfront hnot => ?_) hkind hrest
          · exact List.append_cons way name loc ▸ hclear (way ++ [name])
          · refine (List.cons.inj (hsole (name :: way) ?_ hk)).2
            rwa [List.reverse_cons, List.append_assoc]
          · rwa [List.reverse_cons, List.append_assoc] at hfile
          · have hin := hdirs (name :: front) ((List.prefix_cons_inj name).2 hfront)
              (by simpa using hnot)
            rwa [List.reverse_cons, List.append_assoc] at hin
      have hroot : ∃ t, w.stat path = .ok (loc, .dir t) := hdirs [] List.nil_prefix hne.symm
      obtain ⟨t, hfound⟩ := hroot
      rw [shownBelow_eq hin all way hfound, List.filter_flatMap]
      exact (flatMap_eq_of_sole (nodup_childNames w loc) hthere.1 hothers).trans hthere.2

end ClojureBuild.World
