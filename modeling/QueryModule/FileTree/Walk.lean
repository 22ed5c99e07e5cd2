import QueryModule.FileTree.Tree

/-!
# Walking a file tree

A walk visits the entry that a path leads to and, if it is a directory, everything below it: a
directory before its contents, siblings in the order of their names. Links are followed. A link to a
directory that the walk is in would lead around in a circle, and is an error instead; this is why
walks end.
-/

namespace QueryModule.FileTree

/-- What a walk comes across: the path it took, and the place that this path leads to. -/
structure Visit where
  path : String
  place : Place
  isFile : Bool
  deriving DecidableEq, Repr

/-- What a walk can fail at. -/
inductive WalkError where
  /-- A path that leads nowhere. -/
  | inaccessible (path : String) (error : FileError)
  /-- A link to a directory that the walk is in. -/
  | circle (ancestor path : String)
  deriving DecidableEq, Repr

/-- The error in words. -/
def WalkError.message : WalkError → String
  | .inaccessible path error => s!"IO error for operation on {path}: {error.message}"
  | .circle ancestor path => s!"File system loop found: {path} points to an ancestor {ancestor}"

/-- What lies behind the error, if anything does. -/
def WalkError.reasons : WalkError → List String
  | .inaccessible _ error => [error.message]
  | .circle _ _ => []

/-- The names of the entries of a directory, in increasing order. -/
def children (t : FileTree) (directory : Place) : List String :=
  (t.entries.filterMap fun (place, _) =>
    if place ≠ [] && place.dropLast = directory then place.getLast? else none).mergeSort

/-- The places of the directories of a tree. -/
def directories (t : FileTree) : List Place :=
  [] :: (t.entries.filter (·.2 = .directory)).map (·.1)

/-- The length of the longest place. -/
def depth (t : FileTree) : Nat := (t.entries.map (·.1.length)).foldr max 0

/-- How many directories are not among those given. -/
def unseen (t : FileTree) (places : List Place) : Nat :=
  t.directories.countP fun d => !places.contains d

/-- The directories that a walk is in, innermost first: the path it took, and the place. -/
abbrev Ancestors := List (String × Place)

/-- What is listed for a place is in the list. -/
theorem mem_of_lookup_eq_some {α : Type} {l : List (Place × α)} {p : Place} {a : α}
    (h : l.lookup p = some a) : (p, a) ∈ l := by
  obtain ⟨front, back, rfl, -⟩ := List.lookup_eq_some_iff.mp h
  exact List.mem_append_right _ List.mem_cons_self

/-- A directory is among the directories. -/
theorem mem_directories {t : FileTree} {p : Place} (h : t.get? p = some .directory) :
    p ∈ t.directories := by
  unfold get? at h
  unfold directories
  split at h
  · next hp => rw [hp]; exact List.mem_cons_self
  · apply List.mem_cons_of_mem
    rw [List.mem_map]
    exact ⟨(p, .directory), List.mem_filter.mpr ⟨mem_of_lookup_eq_some h, by simp⟩, rfl⟩

/-- No place of an entry is longer than the depth of the tree. -/
theorem length_le_depth {t : FileTree} {p : Place} {e : Entry} (h : t.get? p = some e) :
    p.length ≤ t.depth := by
  unfold get? at h
  split at h
  · next hp => rw [hp]; exact Nat.zero_le _
  · have mem := mem_of_lookup_eq_some h
    unfold depth
    generalize t.entries = entries at mem ⊢
    induction entries with
    | nil => simp at mem
    | cons x rest ih =>
      rw [List.map_cons, List.foldr_cons]
      rcases List.mem_cons.mp mem with heq | mem
      · rw [← heq]; exact Nat.le_max_left _ _
      · exact Nat.le_trans (ih mem) (Nat.le_max_right _ _)

/-- The directories that one more place leaves unseen are the others of those that were unseen. -/
theorem unseen_cons (t : FileTree) (p : Place) (places : List Place) :
    t.unseen (p :: places) = (t.directories.filter fun d => !places.contains d).countP (· != p) := by
  rw [List.countP_filter]
  simp only [unseen, List.contains_cons, Bool.not_or, bne]

/-- One more place leaves at most as many directories unseen. -/
theorem unseen_cons_le (t : FileTree) (p : Place) (places : List Place) :
    t.unseen (p :: places) ≤ t.unseen places := by
  rw [unseen_cons]
  exact Nat.le_trans List.countP_le_length (Nat.le_of_eq List.countP_eq_length_filter.symm)

/-- A directory that was unseen leaves fewer unseen. -/
theorem unseen_cons_lt {t : FileTree} {p : Place} {places : List Place}
    (h : t.get? p = some .directory) (hp : places.contains p = false) :
    t.unseen (p :: places) < t.unseen places := by
  rw [unseen_cons, unseen, List.countP_eq_length_filter, List.countP_eq_length_filter,
    List.length_filter_lt_length_iff_exists]
  exact ⟨p, List.mem_filter.mpr ⟨mem_directories h, by rw [hp]; rfl⟩, by simp⟩

/-- The visits below a directory. -/
def walkBelow (t : FileTree) (above : Ancestors) (path : String) (place : Place) :
    List (Except WalkError Visit) :=
  (t.children place).flatMap fun name =>
    let child := Path.join path name
    let childPlace := place ++ [name]
    match _ : t.get? childPlace with
    | none => []
    | some (.file _) => [.ok ⟨child, childPlace, true⟩]
    | some .directory =>
      .ok ⟨child, childPlace, false⟩ :: walkBelow t ((path, place) :: above) child childPlace
    | some (.link _) =>
      match t.resolve .follow child with
      | .error e => [.error (.inaccessible child e)]
      | .ok target =>
        match _ : t.get? target with
        | some .directory =>
          match _ : ((path, place) :: above).find? (·.2 = target) with
          | some (ancestor, _) => [.error (.circle ancestor child)]
          | none =>
            .ok ⟨child, target, false⟩ :: walkBelow t ((path, place) :: above) child target
        | some _ => [.ok ⟨child, target, true⟩]
        | none => []
termination_by (t.unseen (place :: above.map (·.2)), t.depth - place.length)
decreasing_by
  · rcases Nat.lt_or_eq_of_le (t.unseen_cons_le childPlace (place :: above.map (·.2))) with lt | eq
    · exact Prod.Lex.left _ _ lt
    · have := length_le_depth ‹t.get? childPlace = some .directory›
      rw [List.map_cons, eq]
      apply Prod.Lex.right
      simp only [childPlace, List.length_append, List.length_cons, List.length_nil] at this ⊢
      omega
  · apply Prod.Lex.left
    apply unseen_cons_lt ‹t.get? target = some .directory›
    have fresh := ‹((path, place) :: above).find? (·.2 = target) = none›
    rw [List.find?_eq_none] at fresh
    rw [← Bool.not_eq_true, List.contains_iff_mem]
    intro mem
    have : target ∈ ((path, place) :: above).map (·.2) := mem
    obtain ⟨x, hx, heq⟩ := List.mem_map.mp this
    exact fresh x hx (by simp [heq])

/-- The visits of a walk that starts at a path. -/
def walk (t : FileTree) (path : String) : List (Except WalkError Visit) :=
  match t.resolve .keep path with
  | .error e => [.error (.inaccessible path e)]
  | .ok _ =>
    match t.resolve .follow path with
    | .error e => [.error (.inaccessible path e)]
    | .ok place =>
      match t.get? place with
      | some .directory => .ok ⟨path, place, false⟩ :: t.walkBelow [] path place
      | some _ => [.ok ⟨path, place, true⟩]
      | none => []

end QueryModule.FileTree
