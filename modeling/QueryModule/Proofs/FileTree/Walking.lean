import QueryModule.FileTree.Walk
import QueryModule.Proofs.FileTree.WellFormed
import Mathlib.Data.List.Sort

/-!
# What walks visit

A walk goes through the names in a directory in increasing order, and `Meets` says what it comes across
at and below each of them. In a well-formed tree the path of every visit leads to its place
(`WellFormed.genuine_walk`): a walk makes the paths of entries from those of their directories, and such a
path leads where the walk is.
-/

namespace QueryModule.FileTree

variable {t t' : FileTree} {here place : Place} {path name : String} {above : Ancestors} {v : Visit}

/-! ## Contents of directories -/

/-- The name in a directory of what is at a place, if it is in that directory. -/
def nameIn (here place : Place) : Option String :=
  if place ≠ [] && place.dropLast = here then place.getLast? else none

/-- What is in a directory has one name more than the directory. -/
theorem nameIn_eq_some : nameIn here place = some name ↔ place = here ++ [name] := by
  unfold nameIn
  constructor
  · intro h
    split at h
    next hplace =>
      obtain ⟨-, rfl⟩ : place ≠ [] ∧ place.dropLast = here := by simpa using hplace
      exact (List.dropLast_append_getLast? name h).symm
    next => nomatch h
  · rintro rfl
    simp

/-- The contents of a directory are the names of the entries that are in it, in order. -/
theorem children_eq (t : FileTree) (here : Place) :
    t.children here = ((t.entries.map (·.1)).filterMap (nameIn here)).mergeSort := by
  rw [List.filterMap_map]
  rfl

/-- The contents of a directory are the entries whose places are just behind its own. -/
theorem mem_children_iff : name ∈ t.children here ↔ (t.get? (here ++ [name])).isSome := by
  rw [children_eq, List.mem_mergeSort, List.mem_filterMap, get?, if_neg (by simp),
    List.lookup_isSome_iff]
  simp only [nameIn_eq_some, List.mem_map, beq_iff_eq]
  constructor
  · rintro ⟨_, ⟨x, hx, rfl⟩, h⟩
    exact ⟨x, hx, h.symm⟩
  · rintro ⟨x, hx, h⟩
    exact ⟨x.1, ⟨x, hx, rfl⟩, h.symm⟩

/-- No name is there twice, since no place is. -/
theorem WellFormed.nodup_children (ht : t.WellFormed) (here : Place) : (t.children here).Nodup := by
  rw [children_eq, (List.mergeSort_perm _ _).nodup_iff]
  refine ht.nodup.filterMap fun p q name hp hq => ?_
  rw [nameIn_eq_some.mp hp, nameIn_eq_some.mp hq]

/-- The contents of a directory are in order. -/
theorem pairwise_children (t : FileTree) (here : Place) : (t.children here).Pairwise (· ≤ ·) := by
  rw [children_eq]
  exact List.pairwise_mergeSort' (· ≤ ·) _

/-- The contents of a directory are given in the only order that increases. -/
theorem children_eq_of_perm {names : List String} (hsorted : names.Pairwise (· ≤ ·))
    (hperm : names.Perm (t.children here)) : t.children here = names := by
  have hantisymm : ∀ a b : String, a ∈ t.children here → b ∈ names → a ≤ b → b ≤ a → a = b :=
    fun _ _ _ _ => String.le_antisymm
  exact List.Perm.eq_of_pairwise hantisymm (pairwise_children t here) hsorted hperm.symm

/-- The places of a tree say what is in its directories. -/
theorem children_of_places {places : List Place} {names : List String}
    (hplaces : t.entries.map (·.1) = places) (hsorted : names.Pairwise (· ≤ ·))
    (hperm : names.Perm (places.filterMap (nameIn here))) : t.children here = names := by
  refine children_eq_of_perm hsorted ?_
  rw [children_eq, hplaces]
  exact hperm.trans (List.mergeSort_perm _ _).symm

/-- Contents that are those of another directory with some left out are so in the same order. -/
theorem filter_children {keep : String → Bool} (ht : t.WellFormed) (ht' : t'.WellFormed)
    (h : ∀ name, name ∈ t.children here ↔ name ∈ t'.children here ∧ keep name = true) :
    (t'.children here).filter keep = t.children here := by
  refine (children_eq_of_perm ((pairwise_children t' here).filter _) ?_).symm
  rw [List.perm_ext_iff_of_nodup ((ht'.nodup_children here).filter _) (ht.nodup_children here)]
  intro name
  rw [List.mem_filter, h]

/-! ## What a walk meets -/

/-- What a walk meets at and below an entry of a directory that it is in. -/
inductive Meets (t : FileTree) (above : Ancestors) (path : String) (here : Place) (name : String) :
    List (Except WalkError Visit) → Prop where
  | nothing (entry : t.get? (here ++ [name]) = none) : Meets t above path here name []
  | file {content : List UInt8} (entry : t.get? (here ++ [name]) = some (.file content)) :
      Meets t above path here name [.ok ⟨Path.join path name, here ++ [name], true⟩]
  | directory (entry : t.get? (here ++ [name]) = some .directory) :
      Meets t above path here name
        (.ok ⟨Path.join path name, here ++ [name], false⟩ ::
          t.walkBelow ((path, here) :: above) (Path.join path name) (here ++ [name]))
  | lost {target : String} {error : FileError}
      (entry : t.get? (here ++ [name]) = some (.link target))
      (leads : t.resolve .follow (Path.join path name) = .error error) :
      Meets t above path here name [.error (.inaccessible (Path.join path name) error)]
  | circle {target ancestor : String} {place found : Place}
      (entry : t.get? (here ++ [name]) = some (.link target))
      (leads : t.resolve .follow (Path.join path name) = .ok place)
      (there : t.get? place = some .directory)
      (again : ((path, here) :: above).find? (·.2 = place) = some (ancestor, found)) :
      Meets t above path here name [.error (.circle ancestor (Path.join path name))]
  | linkedDirectory {target : String} {place : Place}
      (entry : t.get? (here ++ [name]) = some (.link target))
      (leads : t.resolve .follow (Path.join path name) = .ok place)
      (there : t.get? place = some .directory)
      (fresh : ((path, here) :: above).find? (·.2 = place) = none) :
      Meets t above path here name
        (.ok ⟨Path.join path name, place, false⟩ ::
          t.walkBelow ((path, here) :: above) (Path.join path name) place)
  | linkedFile {target : String} {place : Place} {content : List UInt8}
      (entry : t.get? (here ++ [name]) = some (.link target))
      (leads : t.resolve .follow (Path.join path name) = .ok place)
      (there : t.get? place = some (.file content)) :
      Meets t above path here name [.ok ⟨Path.join path name, place, true⟩]

/-- A walk goes through the contents of a directory in their order. -/
theorem walkBelow_eq (t : FileTree) (above : Ancestors) (path : String) (here : Place) :
    ∃ visitsAt : String → List (Except WalkError Visit),
      (∀ name, Meets t above path here name (visitsAt name)) ∧
        t.walkBelow above path here = (t.children here).flatMap visitsAt := by
  rw [walkBelow]
  refine ⟨_, fun name => ?_, rfl⟩
  dsimp only
  split
  next h => exact .nothing h
  next h => exact .file h
  next h => exact .directory h
  next h =>
    split
    next hlost => exact .lost h hlost
    next place hleads =>
      split
      next hdir =>
        split
        next hagain => exact .circle h hleads hdir hagain
        next hfresh => exact .linkedDirectory h hleads hdir hfresh
      -- Behind a link that leads somewhere there is a directory or a file, so the other cases do not
      -- occur.
      next entry hother hentry =>
        rcases resolve_ends hleads with hdir | ⟨content, hfile⟩
        · rw [hdir] at hentry
          exact (hother (Option.some.inj hentry).symm).elim
        · exact .linkedFile h hleads hfile
      next hnone =>
        rcases resolve_ends hleads with hdir | ⟨content, hfile⟩
        · rw [hdir] at hnone
          cases hnone
        · rw [hfile] at hnone
          cases hnone

/-- What there is at a name decides which of the cases it is. -/
theorem Meets.unique {visits visits' : List (Except WalkError Visit)}
    (h : Meets t above path here name visits) (h' : Meets t above path here name visits') :
    visits = visits' := by
  cases h <;> cases h' <;> simp_all [-List.find?_cons_eq_some, -List.find?_eq_none]

/-- A walk through a directory is put together from what it meets at each of its contents. -/
theorem walkBelow_of_meets {names : List String} {visits : List (List (Except WalkError Visit))}
    (hchildren : t.children here = names) (h : List.Forall₂ (Meets t above path here) names visits) :
    t.walkBelow above path here = visits.flatten := by
  obtain ⟨visitsAt, hmeets, hwalk⟩ := walkBelow_eq t above path here
  rw [hwalk, hchildren]
  clear hchildren
  induction h with
  | nil => rfl
  | cons hmeet _ ih => rw [List.flatMap_cons, List.flatten_cons, ih, (hmeets _).unique hmeet]

/-! ## Walks without errors -/

/-- The walk meets no error. -/
def NoErrors (walk : List (Except WalkError Visit)) : Prop := ∀ step ∈ walk, ∃ v, step = .ok v

theorem NoErrors.tail {step : Except WalkError Visit} {rest : List (Except WalkError Visit)}
    (h : NoErrors (step :: rest)) : NoErrors rest :=
  fun step hstep => h step (List.mem_cons_of_mem _ hstep)

theorem not_noErrors_singleton {e : WalkError} : ¬ NoErrors [.error e] := by
  intro h
  obtain ⟨v, hv⟩ := h _ (List.mem_singleton_self _)
  nomatch hv

/-- A walk without errors is made of visits. -/
theorem NoErrors.exists_visits {walk : List (Except WalkError Visit)}
    (h : NoErrors walk) : ∃ visits : List Visit, walk = visits.map .ok := by
  induction walk with
  | nil => exact ⟨[], rfl⟩
  | cons step rest ih =>
    obtain ⟨v, rfl⟩ := h step List.mem_cons_self
    obtain ⟨visits, rfl⟩ := ih h.tail
    exact ⟨v :: visits, rfl⟩

theorem noErrors_map_ok (visits : List Visit) : NoErrors (visits.map .ok) := by
  intro step hstep
  obtain ⟨v, -, rfl⟩ := List.mem_map.mp hstep
  exact ⟨v, rfl⟩

/-! ## Where a walk starts -/

/-- A walk from a directory visits it first, and then goes on below. -/
theorem walk_directory (h : t.resolve .follow path = .ok place)
    (hdir : t.get? place = some .directory) :
    t.walk path = .ok ⟨path, place, false⟩ :: t.walkBelow [] path place := by
  obtain ⟨kept, hkept⟩ := exists_resolve_keep h
  simp only [walk, hkept, h, hdir]

/-- A walk from a file visits the file. -/
theorem walk_file {content : List UInt8} (h : t.resolve .follow path = .ok place)
    (hfile : t.get? place = some (.file content)) : t.walk path = [.ok ⟨path, place, true⟩] := by
  obtain ⟨kept, hkept⟩ := exists_resolve_keep h
  simp only [walk, hkept, h, hfile]

/-- A walk that meets no error starts at a path that leads somewhere. -/
theorem exists_resolve_of_walk (h : NoErrors (t.walk path)) :
    ∃ place, t.resolve .follow path = .ok place := by
  unfold walk at h
  split at h
  · exact absurd h not_noErrors_singleton
  · split at h
    · exact absurd h not_noErrors_singleton
    next place hplace => exact ⟨place, hplace⟩

/-! ## Where visits are -/

/-- The path of the visit leads to its place, and what is there is a directory unless the visit is said
to be that of a file. -/
structure Visit.Genuine (t : FileTree) (v : Visit) : Prop where
  leads : t.resolve .follow v.path = .ok v.place
  kind : v.isFile = false ↔ t.get? v.place = some .directory

/-- The visit of a directory that its path leads to is genuine. -/
theorem genuine_directory (h : t.resolve .follow path = .ok place)
    (hdir : t.get? place = some .directory) : Visit.Genuine t ⟨path, place, false⟩ :=
  ⟨h, by simp [hdir]⟩

theorem genuine_file {content : List UInt8} (h : t.resolve .follow path = .ok place)
    (hfile : t.get? place = some (.file content)) : Visit.Genuine t ⟨path, place, true⟩ :=
  ⟨h, by simp [hfile]⟩

/-- Below a directory all visits are genuine, because the path of an entry leads to it. The induction
follows the walk. -/
theorem WellFormed.genuine_walkBelow (ht : t.WellFormed) (above : Ancestors) (path : String)
    (here : Place) (hpath : t.resolve .follow path = .ok here) (hhere : t.get? here = some .directory)
    (hv : .ok v ∈ t.walkBelow above path here) : v.Genuine t := by
  induction above, path, here using walkBelow.induct t with
  | case1 above path here ih ihLinked =>
    obtain ⟨visitsAt, hmeets, hwalk⟩ := walkBelow_eq t above path here
    rw [hwalk] at hv
    obtain ⟨name, -, hv⟩ := List.mem_flatMap.mp hv
    have hmeet := hmeets name
    generalize visitsAt name = visits at hmeet hv
    cases hmeet with
    | nothing => nomatch hv
    | file entry =>
      obtain rfl := Except.ok.inj (List.mem_singleton.mp hv)
      exact genuine_file (resolve_join hpath hhere (ht.name entry) (.inr ⟨_, entry⟩)) entry
    | directory entry =>
      have hchild := resolve_join hpath hhere (ht.name entry) (.inl entry)
      rcases List.mem_cons.mp hv with heq | hv
      · obtain rfl := Except.ok.inj heq
        exact genuine_directory hchild entry
      · exact ih name entry hchild entry hv
    | lost => nomatch List.mem_singleton.mp hv
    | circle => nomatch List.mem_singleton.mp hv
    | linkedDirectory entry leads there fresh =>
      rcases List.mem_cons.mp hv with heq | hv
      · obtain rfl := Except.ok.inj heq
        exact genuine_directory leads there
      · exact ihLinked name _ there fresh leads there hv
    | linkedFile entry leads there =>
      obtain rfl := Except.ok.inj (List.mem_singleton.mp hv)
      exact genuine_file leads there

/-- All visits of a walk are genuine. -/
theorem WellFormed.genuine_walk (ht : t.WellFormed) (hv : .ok v ∈ t.walk path) : v.Genuine t := by
  cases hresolve : t.resolve .follow path with
  | error e =>
    unfold walk at hv
    rw [hresolve] at hv
    split at hv <;> cases List.mem_singleton.mp hv
  | ok place =>
    rcases resolve_ends hresolve with hdir | ⟨content, hfile⟩
    · rw [walk_directory hresolve hdir] at hv
      rcases List.mem_cons.mp hv with heq | hv
      · obtain rfl := Except.ok.inj heq
        exact genuine_directory hresolve hdir
      · exact ht.genuine_walkBelow [] path place hresolve hdir hv
    · rw [walk_file hresolve hfile] at hv
      obtain rfl := Except.ok.inj (List.mem_singleton.mp hv)
      exact genuine_file hresolve hfile

end QueryModule.FileTree
