import QueryModule.Proofs.FileTree.Walking

/-!
# Walks in a tree that has grown

A tree grows when entries are added and the contents of files change, but not the links. A walk in a tree
that has grown visits all that it visited before, in the same order, by the same paths, and in between what
has been added (`WellFormed.walk_grown`). It meets no error that it did not meet before, since an error
comes from a link.
-/

namespace QueryModule.FileTree

variable {t t' : FileTree} {here place : Place} {path name : String} {above : Ancestors}
  {visits : List Visit}

/-- The second tree has the entries of the first one, but for the contents of files, and no other
links. -/
structure Grows (t t' : FileTree) : Prop extends Keeps t t' where
  file : ∀ {p content}, t.get? p = some (.file content) →
    ∃ content', t'.get? p = some (.file content')

theorem Grows.resolve (h : Grows t t') (hpath : t.resolve .follow path = .ok place) :
    t'.resolve .follow path = .ok place := by
  refine h.toKeeps.resolve (by decide) (by decide) hpath fun hnone => ?_
  rcases resolve_ends hpath with hdir | ⟨content, hfile⟩
  · rw [h.directory hdir] at hnone
    nomatch hnone
  · obtain ⟨content', hfile'⟩ := h.file hfile
    rw [hfile'] at hnone
    nomatch hnone

theorem Grows.isSome (h : Grows t t') (hentry : (t.get? place).isSome) : (t'.get? place).isSome := by
  obtain ⟨entry, hentry⟩ := Option.isSome_iff_exists.mp hentry
  cases entry with
  | file content =>
    obtain ⟨content', hfile⟩ := h.file hentry
    rw [hfile]
    rfl
  | directory =>
    rw [h.directory hentry]
    rfl
  | link target =>
    rw [h.link.mpr hentry]
    rfl

/-! ## A file that has been added -/

namespace AddsFile

variable {p : Place} {content content' : List UInt8}

theorem grows (h : AddsFile t t' place content) : Grows t t' where
  toKeeps := h.keeps
  file := by
    intro p old hp
    by_cases heq : p = place
    · exact ⟨content, heq ▸ h.written⟩
    · rcases h.others p heq with same | ⟨hnone, -⟩
      · exact ⟨old, same.trans hp⟩
      · rw [hnone] at hp
        nomatch hp

/-- A file where nothing was is the one that has been added. -/
theorem eq_of_new (h : AddsFile t t' place content) (hnone : t.get? p = none)
    (hfile : t'.get? p = some (.file content')) : p = place := by
  by_contra hp
  rcases h.others p hp with same | ⟨-, hmade⟩
  · rw [same, hnone] at hfile
    nomatch hfile
  · rw [hmade] at hfile
    nomatch hfile

/-- Where a path leads to another file, it does so with the same content. -/
theorem content?_eq (h : AddsFile t t' place content) (hpath : t.content? path = some content')
    (hne : t'.resolve .follow path ≠ .ok place) : t'.content? path = some content' := by
  unfold content? at hpath ⊢
  split at hpath
  · cases hpath
  next p hp =>
    have hp' := h.grows.resolve hp
    rw [hp'] at hne ⊢
    dsimp only
    have hother : p ≠ place := fun heq => hne (congrArg _ heq)
    rcases h.others p hother with same | ⟨hnone, -⟩
    · rw [same]
      exact hpath
    · rw [hnone] at hpath
      cases hpath

end AddsFile

/-! ## Walks -/

/-- The step is a visit of something that is in the tree, or an error. -/
def known (t : FileTree) : Except WalkError Visit → Bool
  | .ok v => (t.get? v.place).isSome
  | .error _ => true

/-- The contents that a directory had are among those that it has. -/
theorem WellFormed.filter_children_grown (ht : t.WellFormed) (ht' : t'.WellFormed) (h : Grows t t')
    (here : Place) :
    (t'.children here).filter (fun name => (t.get? (here ++ [name])).isSome) = t.children here := by
  refine filter_children ht ht' fun name => ?_
  rw [mem_children_iff, mem_children_iff]
  exact ⟨fun hname => ⟨h.isSome hname, hname⟩, fun hname => hname.2⟩

/-- At a name where nothing was, everything has been added if this is so below. -/
theorem Meets.unknown {visits : List (Except WalkError Visit)} (h : Grows t t')
    (hmeet : Meets t' above path here name visits) (hnone : t.get? (here ++ [name]) = none)
    (hbelow : t'.get? (here ++ [name]) = some .directory →
      ∀ step ∈ t'.walkBelow ((path, here) :: above) (Path.join path name) (here ++ [name]),
        known t step = false) :
    ∀ step ∈ visits, known t step = false := by
  have hunknown : (t.get? (here ++ [name])).isSome = false := by
    rw [hnone]
    rfl
  -- No links have been added, so what is new is a file or a directory.
  have hlink : ∀ {target}, t'.get? (here ++ [name]) ≠ some (.link target) := by
    intro target hentry
    rw [h.link, hnone] at hentry
    nomatch hentry
  intro step hstep
  cases hmeet with
  | nothing => nomatch hstep
  | file entry =>
    rw [List.mem_singleton.mp hstep]
    exact hunknown
  | directory entry =>
    rcases List.mem_cons.mp hstep with rfl | hstep
    · exact hunknown
    · exact hbelow entry step hstep
  | lost entry => exact absurd entry hlink
  | circle entry => exact absurd entry hlink
  | linkedDirectory entry => exact absurd entry hlink
  | linkedFile entry => exact absurd entry hlink

/-- Below a place where nothing was, everything has been added. -/
theorem WellFormed.unknown_walkBelow (ht : t.WellFormed) (h : Grows t t') (above : Ancestors)
    (path : String) (here : Place) (hhere : t.get? here = none) :
    ∀ step ∈ t'.walkBelow above path here, known t step = false := by
  induction above, path, here using walkBelow.induct t' with
  | case1 above path here ih _ =>
    have hnone : ∀ name, t.get? (here ++ [name]) = none := by
      intro name
      rw [Option.eq_none_iff_forall_ne_some]
      intro entry hentry
      rw [ht.directory hentry] at hhere
      cases hhere
    obtain ⟨visitsAt, hmeets, hwalk⟩ := walkBelow_eq t' above path here
    intro step hstep
    rw [hwalk] at hstep
    obtain ⟨name, -, hstep⟩ := List.mem_flatMap.mp hstep
    exact (hmeets name).unknown h (hnone name) (fun hdir => ih name hdir (hnone name)) step hstep

theorem flatMap_eq_flatMap_filter {α β : Type} {f g : α → List β} {keep : α → Bool} {l : List α}
    (hkeep : ∀ x ∈ l, keep x = true → f x = g x) (hdrop : ∀ x ∈ l, keep x = false → f x = []) :
    l.flatMap f = (l.filter keep).flatMap g := by
  induction l with
  | nil => rfl
  | cons x rest ih =>
    have hrest := ih (fun y hy => hkeep y (List.mem_cons_of_mem _ hy))
      fun y hy => hdrop y (List.mem_cons_of_mem _ hy)
    rw [List.flatMap_cons, hrest]
    cases hx : keep x with
    | true => rw [List.filter_cons_of_pos hx, List.flatMap_cons, hkeep x List.mem_cons_self hx]
    | false =>
      rw [List.filter_cons_of_neg (by simp [hx]), hdrop x List.mem_cons_self hx, List.nil_append]

/-- The walk below a directory goes on as it went, and meets what has been added in between. -/
theorem WellFormed.walkBelow_grown (ht : t.WellFormed) (ht' : t'.WellFormed) (h : Grows t t')
    (above : Ancestors) (path : String) (here : Place) (hok : NoErrors (t.walkBelow above path here)) :
    (t'.walkBelow above path here).filter (known t) = t.walkBelow above path here := by
  induction above, path, here using walkBelow.induct t with
  | case1 above path here ih ihLinked =>
    obtain ⟨visitsAt, hmeets, hwalk⟩ := walkBelow_eq t above path here
    obtain ⟨visitsAt', hmeets', hwalk'⟩ := walkBelow_eq t' above path here
    rw [hwalk] at hok
    rw [hwalk, hwalk', List.filter_flatMap, ← ht.filter_children_grown ht' h here]
    apply flatMap_eq_flatMap_filter
    -- At a name that was there both walks meet the same.
    · intro name _ hname
      have hmeet := hmeets name
      have hmeet' := hmeets' name
      have hok : NoErrors (visitsAt name) := fun step hstep =>
        hok step (List.mem_flatMap.mpr ⟨name, mem_children_iff.mpr hname, hstep⟩)
      generalize visitsAt name = visits at hmeet hok
      cases hmeet with
      | nothing entry =>
        rw [entry] at hname
        cases hname
      | file entry =>
        obtain ⟨content', entry'⟩ := h.file entry
        rw [hmeet'.unique (.file entry'), List.filter_cons_of_pos (by simp [known, hname])]
        rfl
      | directory entry =>
        rw [hmeet'.unique (.directory (h.directory entry)),
          List.filter_cons_of_pos (by simp [known, hname]), ih name entry hok.tail]
      | lost => exact absurd hok not_noErrors_singleton
      | circle => exact absurd hok not_noErrors_singleton
      | linkedDirectory entry leads there fresh =>
        rw [hmeet'.unique (.linkedDirectory (h.link.mpr entry) (h.resolve leads) (h.directory there) fresh),
          List.filter_cons_of_pos (by simp [known, there]), ihLinked name _ there fresh hok.tail]
      | linkedFile entry leads there =>
        obtain ⟨content', there'⟩ := h.file there
        rw [hmeet'.unique (.linkedFile (h.link.mpr entry) (h.resolve leads) there'),
          List.filter_cons_of_pos (by simp [known, there])]
        rfl
    -- At a name that is new there is nothing that was known.
    · intro name _ hname
      have hnone : t.get? (here ++ [name]) = none := Option.not_isSome_iff_eq_none.mp (by simp [hname])
      rw [List.filter_eq_nil_iff]
      intro step hstep
      have hunknown := (hmeets' name).unknown h hnone
        (fun _ => ht.unknown_walkBelow h _ _ _ hnone) step hstep
      simp [hunknown]

/-- A walk goes on as it went, and meets what has been added in between. -/
theorem WellFormed.walk_grown (ht : t.WellFormed) (ht' : t'.WellFormed) (h : Grows t t')
    (hok : NoErrors (t.walk path)) : (t'.walk path).filter (known t) = t.walk path := by
  obtain ⟨place, hplace⟩ := exists_resolve_of_walk hok
  have hplace' := h.resolve hplace
  rcases resolve_ends hplace with hdir | ⟨content, hfile⟩
  · rw [walk_directory hplace hdir] at hok ⊢
    rw [walk_directory hplace' (h.directory hdir), List.filter_cons_of_pos (by simp [known, hdir]),
      ht.walkBelow_grown ht' h [] path place hok.tail]
  · obtain ⟨content', hfile'⟩ := h.file hfile
    rw [walk_file hplace hfile, walk_file hplace' hfile', List.filter_cons_of_pos (by simp [known, hfile])]
    rfl

/-- Walks in a tree that has grown meet no error that they did not meet before. -/
theorem WellFormed.walks_grown (ht : t.WellFormed) (ht' : t'.WellFormed) (h : Grows t t')
    {inputs : List String} (hwalks : inputs.flatMap t.walk = visits.map .ok) :
    ∃ visits' : List Visit, inputs.flatMap t'.walk = visits'.map .ok ∧
      visits'.filter (fun v => (t.get? v.place).isSome) = visits := by
  have hok : ∀ input ∈ inputs, NoErrors (t.walk input) := fun input hinput step hstep =>
    noErrors_map_ok visits step (hwalks ▸ List.mem_flatMap.mpr ⟨input, hinput, hstep⟩)
  have hknown : (inputs.flatMap t'.walk).filter (known t) = visits.map .ok := by
    rw [List.filter_flatMap, ← hwalks]
    exact List.flatMap_congr fun input hinput => ht.walk_grown ht' h (hok input hinput)
  have hok' : NoErrors (inputs.flatMap t'.walk) := by
    intro step hstep
    cases step with
    | ok v => exact ⟨v, rfl⟩
    | error e => exact noErrors_map_ok visits _ (hknown ▸ List.mem_filter.mpr ⟨hstep, rfl⟩)
  obtain ⟨visits', hvisits'⟩ := hok'.exists_visits
  refine ⟨visits', hvisits', ?_⟩
  rw [hvisits', List.filter_map] at hknown
  exact (List.map_inj_right fun _ _ => Except.ok.inj).mp hknown

end QueryModule.FileTree
