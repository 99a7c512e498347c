import ClojureBuild.World.Files
/-!
Walking a directory tree.

A walk shows every file below a root, directory by directory, names in ascending order.  Hidden
names may be passed over.  Links are followed.  A link to a directory that the walk stands in would
never end, so it is reported and not entered; so is a link that leads nowhere.  A directory is
opened by its path, which the system may refuse to take for its length.

The walk ends because a link is entered only when its directory is not yet on the way from the root,
of which there are finitely many, and between two links the walk goes down, which the depth of the
tree bounds.
-/

namespace ClojureBuild

/-- What a walk meets. -/
inductive Sighting where
  /-- The walk begins, in this current directory. -/
  | begun (cwd : Path)
  | file (path : Path)
  /-- A hidden name that is passed over. -/
  | hidden (path : Path)
  /-- A name that leads nowhere. -/
  | unreadable (path : Path) (cause : OsError)
  /-- A link to a directory that holds it. -/
  | loop (path ancestor : Path)
deriving DecidableEq, Repr, Inhabited

namespace Sighting

def file? : Sighting → Option Path
  | .file p => some p
  | _ => none

/-- What is said about a name that cannot be read. -/
def complaint? : Sighting → Option String
  | .begun _ | .file _ | .hidden _ => none
  | .unreadable p cause =>
      some (p.display ++ ": IO error for operation on " ++ p.display ++ ": " ++ cause.message)
  | .loop p ancestor =>
      some ("File system loop found: " ++ p.display ++ " points to an ancestor " ++
        ancestor.display)

end Sighting

namespace World

def dirs (w : World) : List Location :=
  [] :: w.nodes.filterMap fun entry => if entry.2.isDir then some entry.1 else none

/-- The length of the longest location. -/
def depth (w : World) : Nat :=
  (w.nodes.map (·.1.length)).foldr max 0

/-- The directories that are not on the way from the root of a walk. -/
def aside (w : World) (way : List (Location × Path)) : Nat :=
  (w.dirs.filter (fun loc => !(way.map Prod.fst).contains loc)).length

theorem mem_of_entryAt {loc : Location} {node : Node} {nodes : List (Location × Node)}
    (h : entryAt loc nodes = some node) : (loc, node) ∈ nodes := by
  induction nodes with
  | nil => simp [entryAt] at h
  | cons entry rest ih =>
      obtain ⟨l, n⟩ := entry
      simp only [entryAt] at h
      split at h
      next heq => simp_all
      next => exact List.mem_cons_of_mem _ (ih h)

theorem length_le_depth {w : World} {loc : Location} {node : Node}
    (h : w.node? loc = some node) : loc.length ≤ w.depth := by
  have key : ∀ nodes : List (Location × Node), (loc, node) ∈ nodes →
      loc.length ≤ (nodes.map (·.1.length)).foldr max 0 := by
    intro nodes hmem
    induction nodes with
    | nil => simp at hmem
    | cons entry rest ih =>
        simp only [List.map_cons, List.foldr_cons]
        rcases List.mem_cons.1 hmem with rfl | hrest
        · exact Nat.le_max_left _ _
        · exact Nat.le_trans (ih hrest) (Nat.le_max_right _ _)
  simp only [node?] at h
  split at h
  next n hn => exact key w.nodes (by simp_all [mem_of_entryAt])
  next =>
    split at h
    next hroot => simp [hroot]
    next => simp at h

theorem mem_dirs_of_node? {w : World} {loc : Location} {t : Int}
    (h : w.node? loc = some (.dir t)) : loc ∈ w.dirs := by
  simp only [node?] at h
  split at h
  next n hn =>
    simp only [Option.some.injEq] at h
    subst h
    have := mem_of_entryAt hn
    simp only [dirs, List.mem_cons, List.mem_filterMap]
    exact Or.inr ⟨_, this, by simp [Node.isDir]⟩
  next =>
    split at h
    next hroot => simp [hroot, dirs]
    next => simp at h

theorem aside_cons_le (w : World) (entry : Location × Path) (way : List (Location × Path)) :
    w.aside (entry :: way) ≤ w.aside way := by
  simp only [aside, List.map_cons]
  rw [← List.countP_eq_length_filter, ← List.countP_eq_length_filter]
  apply List.countP_mono_left
  intro loc _ h
  simp_all

theorem aside_cons_lt {w : World} {loc : Location} {p : Path} {way : List (Location × Path)}
    (hdir : loc ∈ w.dirs) (hnew : ∀ entry ∈ way, entry.1 ≠ loc) :
    w.aside ((loc, p) :: way) < w.aside way := by
  simp only [aside, List.map_cons]
  generalize w.dirs = dirs at hdir
  have hnot : loc ∉ way.map Prod.fst := by
    intro h
    obtain ⟨entry, hentry, rfl⟩ := List.mem_map.1 h
    exact hnew entry hentry rfl
  induction dirs with
  | nil => simp at hdir
  | cons d rest ih =>
      have hle : (rest.filter (fun l => !(loc :: way.map Prod.fst).contains l)).length ≤
          (rest.filter (fun l => !(way.map Prod.fst).contains l)).length := by
        rw [← List.countP_eq_length_filter, ← List.countP_eq_length_filter]
        apply List.countP_mono_left
        intro l _ h
        simp_all
      by_cases hd : d = loc
      · subst hd
        rw [List.filter_cons, List.filter_cons, if_neg (by simp), if_pos (by simpa using hnot)]
        simp only [List.length_cons]
        omega
      · have hrest : loc ∈ rest := by
          rcases List.mem_cons.1 hdir with h | h
          · exact absurd h.symm hd
          · exact h
        have := ih hrest
        by_cases hin : d ∈ way.map Prod.fst <;> simp_all

theorem node?_of_stat {w : World} {p : Path} {loc : Location} {node : Node}
    (h : w.stat p = .ok (loc, node)) : w.node? loc = some node := by
  simp only [stat, bind, Except.bind] at h
  split at h
  · simp at h
  · split at h
    · simp at h
    · split at h
      next hnode => simp_all
      next => simp at h

def isHidden (name : String) : Bool := name.toList.head? == some '.'

/-- What is met below a directory, which is opened by its path.  `way` holds the directories from
the root of the walk, the innermost first, and `all` says whether hidden names are shown. -/
def walkDir (w : World) (all : Bool) (way : List (Location × Path)) (path : Path)
    (loc : Location) : List Sighting :=
  match w.stat path with
  | .error cause => [.unreadable path cause]
  | .ok _ =>
      (w.childNames loc).flatMap fun (name : OsText) =>
        let child := path / name
        let passed := !all && isHidden name
        match _hnode : w.node? (name :: loc) with
        | none => []
        | some (.file ..) => if passed then [.hidden child] else [.file child]
        | some (.device _) => if passed then [.hidden child] else []
        | some (.dir _) =>
            if passed then [.hidden child]
            else walkDir w all ((name :: loc, child) :: way) child (name :: loc)
        | some (.link _) =>
            match _hstat : w.stat child with
            | .error cause => [.unreadable child cause]
            | .ok (_, .file ..) => if passed then [.hidden child] else [.file child]
            | .ok (_, .device _) => if passed then [.hidden child] else []
            | .ok (_, .link _) => []
            | .ok (target, .dir _) =>
                match _hway : way.find? (fun entry => entry.1 == target) with
                | some (_, ancestor) => [.loop child ancestor]
                | none =>
                    if passed then [.hidden child]
                    else walkDir w all ((target, child) :: way) child target
termination_by w.aside way * (w.depth + 1) + (w.depth - loc.length)
decreasing_by
  · have hlen := length_le_depth _hnode
    have hle := Nat.mul_le_mul_right (w.depth + 1) (aside_cons_le w (name :: loc, path / name) way)
    simp only [List.length_cons] at hlen ⊢
    omega
  · have hnode := node?_of_stat _hstat
    have hnew : ∀ entry ∈ way, entry.1 ≠ target := by
      intro entry hentry heq
      simpa [heq] using List.find?_eq_none.1 _hway entry hentry
    have hlt := aside_cons_lt (p := path / name) (mem_dirs_of_node? hnode) hnew
    have hmul := Nat.mul_le_mul_right (w.depth + 1) (Nat.succ_le_of_lt hlt)
    rw [Nat.succ_mul] at hmul
    omega

/-- What a walk from a root meets.  A root that is a file is all that it shows; the root `-` stands
for no place in the tree. -/
def walk (w : World) (all : Bool) (root : Path) : List Sighting :=
  .begun w.cwdPath ::
    (if root.same ⟨"-"⟩ then []
     else
       match w.stat root with
       | .error cause => [.unreadable root cause]
       | .ok (loc, .dir _) => walkDir w all [(loc, root)] root loc
       | .ok (_, .file ..) => [.file root]
       | .ok (_, .link _) | .ok (_, .device _) => [])

def filesUnder (w : World) (all : Bool) (root : Path) : List Path :=
  (w.walk all root).filterMap Sighting.file?

end World

end ClojureBuild
