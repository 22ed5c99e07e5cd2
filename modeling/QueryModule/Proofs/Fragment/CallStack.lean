import QueryModule.Proofs.Fragment.FinishOrder

/-!
# The stack of the search

A search that goes from name to name along spreads is a recursion: to visit a name is to visit, one after
the other, the names that it spreads. `Search` keeps this recursion in its pending tasks. Cut at the tasks
that leave a name, they are the calls that are going on, and of each call what is left of its loop
(`Calls`): the path is the stack of the calls, and a task that enters a name is a call about to be made.

What holds at every such moment (`Registry.VisitInvariant`) and what follows for the whole run, namely
that the recursion ends and that no name is put on the stack twice, is

> `search_invariant`

The invariant of `SearchInvariant` says already where each spread of a name on the path stands. A name is
left when none of its spreads is pending; the spread ones have then been left, or are on the path still
(`Inv.left_or_onPath`).
-/

namespace QueryModule.Fragment

open Relation (ReflTransGen)

namespace Search

variable {g : SpreadGraph} {s t : Search} {roots : List String}

/-- The search comes from the one moment to the other, in any number of steps. -/
def ComesTo (g : SpreadGraph) : Search → Search → Prop :=
  ReflTransGen fun s t => s.next? g = some t

/-- The step from `s` to `t` puts the name on the path. -/
def Enters (g : SpreadGraph) (s t : Search) (name : String) : Prop :=
  s.next? g = some t ∧ t.path = name :: s.path

/-! ## The run, moment by moment -/

/-- A search comes to its end. -/
theorem comesTo_run (s : Search) : ComesTo g s (s.run g) := by
  fun_induction run g s with
  | case1 s _ => exact .refl
  | case2 s t hnext _ ih => exact .head hnext ih

/-- From every moment the search comes to the same end. -/
theorem run_eq_of_comesTo (h : ComesTo g s t) : t.run g = s.run g := by
  -- A step more is the first step of the run from the moment before.
  induction h with
  | refl => rfl
  | @tail t u _ hnext ih =>
    rw [← ih, run.eq_def g t]
    split
    · next hnone => exact absurd (hnext.symm.trans hnone) (by simp)
    · next u' hsome =>
      rw [hnext] at hsome
      rw [Option.some.inj hsome]

/-- What every step keeps holds at every moment that the search comes to. -/
theorem ComesTo.induction {P : Search → Prop} (h : ComesTo g s t)
    (step : ∀ {s t : Search}, P s → Move g s t → P t) (hs : P s) : P t := by
  induction h with
  | refl => exact hs
  | tail _ hnext ih => exact step ih (move_of_next? hnext)

/-- The invariant holds at every moment. -/
theorem inv_of_comesTo (h : ComesTo g (start roots) s) : Inv g s :=
  h.induction Inv.next (inv_start g roots)

/-! ## The calls that are going on -/

/-- The pending tasks, cut at the leaving of each name on the path: of the spreads of such a name, and of
the roots, those behind the one that the search is at. -/
inductive Calls (g : SpreadGraph) (roots : List String) : List Task → List String → Prop where
  | roots {before after : List String} (split : roots = before ++ after) :
      Calls g roots (after.map .enter) []
  | spreading {before after : List String} {u : String} {below : List Task} {outer : List String}
      (known : g.spreads? u = some (before ++ after)) (outside : Calls g roots below outer) :
      Calls g roots (after.map .enter ++ .leave u :: below) (u :: outer)

/-- A call is that of a root while no name is on the path, or of one of the spreads of the innermost
name. -/
theorem Calls.call {name : String} {rest : List Task} {path : List String}
    (h : Calls g roots (.enter name :: rest) path) :
    Calls g roots rest path ∧
      (path = [] → ∃ before after, roots = before ++ name :: after ∧ rest = after.map .enter) := by
  generalize hp : Task.enter name :: rest = pending at h
  cases h with
  | @roots before after split =>
    obtain ⟨later, rfl, rfl⟩ := enter_cons_eq_map hp
    refine ⟨.roots (show roots = (before ++ [name]) ++ later by simp [split]), fun _ => ?_⟩
    exact ⟨before, later, split, rfl⟩
  | @spreading before after u below outer known outside =>
    obtain ⟨later, rfl, rfl⟩ := enter_cons_eq_append hp
    have known' : g.spreads? u = some ((before ++ [name]) ++ later) := by simp [known]
    exact ⟨.spreading known' outside, fun hnil => absurd hnil (by simp)⟩

/-- When a name is left, the calls go on with those of the name outside of it. -/
theorem Calls.leave {name : String} {rest : List Task} {path : List String}
    (h : Calls g roots (.leave name :: rest) path) : Calls g roots rest path.tail := by
  generalize hp : Task.leave name :: rest = pending at h
  cases h with
  | roots => exact absurd hp leave_cons_ne_map
  | spreading known outside =>
    obtain ⟨-, -, rfl⟩ := leave_cons_eq_append hp
    exact outside

/-- While a name is on the path, its leaving is pending. -/
theorem Calls.path_eq_nil {names : List String} {path : List String}
    (h : Calls g roots (names.map .enter) path) : path = [] := by
  generalize hp : names.map Task.enter = pending at h
  cases h with
  | roots split => rfl
  | @spreading before after u below outer known outside =>
    have hmem : Task.leave u ∈ names.map Task.enter := by
      rw [hp]
      exact List.mem_append_right _ (List.mem_cons_self ..)
    obtain ⟨n, -, heq⟩ := List.mem_map.mp hmem
    exact absurd heq (by simp)

/-- Every step keeps the cut of the calls. -/
theorem Calls.next (h : Calls g roots s.pending s.path) (hmove : Move g s t) :
    Calls g roots t.pending t.path := by
  cases hmove with
  | skip hp _ => rw [hp] at h; exact h.call.1
  | close hp _ => rw [hp] at h; exact h.call.1
  | ignore hp _ => rw [hp] at h; exact h.call.1
  | enter hp _ known => rw [hp] at h; exact @Calls.spreading _ _ [] _ _ _ _ known h.call.1
  | leave hp => rw [hp] at h; exact h.leave

theorem calls_of_comesTo (h : ComesTo g (start roots) s) : Calls g roots s.pending s.path :=
  h.induction (P := fun s => Calls g roots s.pending s.path) Calls.next
    (.roots (show roots = [] ++ roots from rfl))

/-! ## Leaving a name -/

/-- When a name is left, what it spreads has been left, or is on the path still: the name itself, or one
that it has been entered from. -/
theorem Inv.left_or_onPath {u v : String} {rest : List Task} (h : Inv g s)
    (hp : s.pending = .leave u :: rest) (hedge : g.Edge u v) (hk : g.Knows v) :
    s.mark? v = some .finished ∨ v ∈ s.path := by
  have hframes := h.frames
  rw [hp] at hframes
  obtain ⟨outer, hpath, hsettled, -⟩ := hframes.leave
  rw [h.marked.finished v]
  cases hsettled v hedge with
  | unknown hv => exact absurd hk hv
  | left hv => exact .inl hv
  | closed hv =>
    obtain ⟨front, hloop⟩ := hv
    exact (h.entered _ hloop v (by simp)).symm
  | inside inner below hin =>
    rw [hin]
    exact .inr (by simp)

/-- A name that has been left was so at one of the moments before. -/
theorem exists_leave (h : ComesTo g (start roots) s) {u : String} (hu : s.mark? u = some .finished) :
    ∃ t tasks, ComesTo g (start roots) t ∧ t.pending = .leave u :: tasks ∧
      ComesTo g (t.leave u tasks) s := by
  induction h with
  | refl => exact absurd hu (by simp [start, mark?])
  | @tail t s ht hnext ih =>
    -- Either the name had been left by the moment before, or the last step has left it.
    have hearlier : t.mark? u = some .finished → ∃ t' tasks, ComesTo g (start roots) t' ∧
        t'.pending = .leave u :: tasks ∧ ComesTo g (t'.leave u tasks) s := by
      intro hmark
      obtain ⟨t', tasks, ht', hp, hcomes⟩ := ih hmark
      exact ⟨t', tasks, ht', hp, hcomes.tail hnext⟩
    cases move_of_next? hnext with
    | skip => exact hearlier hu
    | close => exact hearlier hu
    | ignore => exact hearlier hu
    | @enter name rest spreads hp fresh known =>
      apply hearlier
      have hmark : List.lookup u ((name, Mark.onPath) :: t.marks) = some .finished := hu
      rw [lookup_cons_eq] at hmark
      split at hmark
      · exact absurd hmark (by simp)
      · exact hmark
    | @leave name rest hp =>
      have hmark : List.lookup u ((name, Mark.finished) :: t.marks) = some .finished := hu
      rw [lookup_cons_eq] at hmark
      split at hmark
      · next heq => exact ⟨t, rest, ht, by rw [hp, heq], by rw [heq]; exact .refl⟩
      · exact hearlier hmark

/-! ## Entering a name -/

/-- A name without a mark had none at any moment before. -/
theorem mark?_eq_none_of_comesTo (h : ComesTo g s t) {name : String} (ht : t.mark? name = none) :
    s.mark? name = none := by
  induction h with
  | refl => exact ht
  | @tail t u _ hnext ih =>
    apply ih
    cases move_of_next? hnext with
    | skip => exact ht
    | close => exact ht
    | ignore => exact ht
    | enter =>
      rw [← Option.isNone_iff_eq_none] at ht ⊢
      exact isNone_of_cons ht
    | leave =>
      rw [← Option.isNone_iff_eq_none] at ht ⊢
      exact isNone_of_cons ht

/-- Only a name without a mark is put on the path, and then it has one. -/
theorem Enters.mark? {name : String} (h : Enters g s t name) :
    s.mark? name = none ∧ t.mark? name = some .onPath := by
  obtain ⟨hnext, hpath⟩ := h
  cases move_of_next? hnext with
  | skip => exact absurd hpath (by simp)
  | close => exact absurd hpath (by simp)
  | ignore => exact absurd hpath (by simp)
  | enter hp fresh known =>
    rw [List.cons.injEq] at hpath
    rw [← hpath.1]
    exact ⟨fresh, by simp [Search.mark?]⟩
  | leave hp =>
    -- The path gets shorter here.
    have hlength : s.path.tail.length = s.path.length + 1 := congrArg List.length hpath
    rw [List.length_tail] at hlength
    omega

/-- No name is put on the path twice. -/
theorem not_enters_again {s' t' : Search} {name : String} (h : Enters g s t name)
    (hcomes : ComesTo g t s') : ¬ Enters g s' t' name := by
  intro hagain
  have hnone := mark?_eq_none_of_comesTo hcomes hagain.mark?.1
  rw [h.mark?.2] at hnone
  exact absurd hnone (by simp)

end Search

namespace Registry

open Search

/-- A moment of the search for loops, which goes through all fragments. -/
def Moment (r : Registry) (s : Search) : Prop := ComesTo r.graph (start r.graph.names) s

/-- What holds when the search is about to visit a name, with the other tasks behind it. -/
structure VisitInvariant (r : Registry) (s : Search) (name : String) (rest : List Task) : Prop where
  /-- The names on the path are those whose visits are going on, each with what is left of its spreads. -/
  calls : Calls r.graph r.graph.names s.pending s.path
  nodup : s.path.Nodup
  /-- The innermost name of the path spreads the one that is visited, and each name on the path the next
  one inside. -/
  spreads : (name :: s.path).IsChain fun v u => r.Spreads u v
  /-- Nothing is on the path exactly when the name is visited as one of all names, which are gone through
  in their order. -/
  root : s.path = [] ↔
    ∃ before after, r.graph.names = before ++ name :: after ∧ rest = after.map .enter
  onPath : ∀ n, s.mark? n = some .onPath ↔ n ∈ s.path
  /-- At the moment at which a name was left, the registered names that it spreads had been left or were
  on the path. -/
  finished : ∀ u, s.mark? u = some .finished → ∃ t tasks, r.Moment t ∧
    t.pending = .leave u :: tasks ∧ ComesTo r.graph (t.leave u tasks) s ∧
    ∀ v, r.Spreads u v → (∃ f, r.get? v = some f) → t.mark? v = some .finished ∨ v ∈ t.path
  /-- Where the visit closes a loop, the name is found on the path, and the loop is what is inside of it
  there. -/
  found : s.mark? name = some .onPath → ∃ inner outer, s.path = inner ++ name :: outer ∧
    loopAt s.path name = name :: inner.reverse ++ [name]

/-- At a visit everything follows from the invariant, the calls and what the marks have been before. -/
theorem visitInvariant {r : Registry} {s : Search} {name : String} {rest : List Task}
    (h : r.Moment s) (hp : s.pending = .enter name :: rest) : r.VisitInvariant s name rest where
  calls := calls_of_comesTo h
  nodup := (inv_of_comesTo h).path_nodup
  spreads := ((inv_of_comesTo h).chain_of_enter hp).imp fun _ _ hedge => edge_graph.mp hedge
  root := by
    have hcalls := calls_of_comesTo h
    rw [hp] at hcalls
    refine ⟨hcalls.call.2, ?_⟩
    rintro ⟨before, after, -, rfl⟩
    exact Calls.path_eq_nil (show Calls r.graph _ ((name :: after).map .enter) s.path from hcalls)
  onPath := (inv_of_comesTo h).marked.onPath
  finished := by
    intro u hu
    -- The name was left at some moment before, at which the invariant held.
    obtain ⟨t, tasks, ht, hleave, hcomes⟩ := exists_leave h hu
    refine ⟨t, tasks, ht, hleave, hcomes, fun v hspreads hregistered => ?_⟩
    exact (inv_of_comesTo ht).left_or_onPath hleave (edge_graph.mpr hspreads)
      (knows_graph.mpr hregistered)
  found := by
    intro hmark
    have hinv := inv_of_comesTo h
    -- A name with this mark is on the path, so that the loop is cut out there.
    obtain ⟨inner, outer, hpath⟩ := List.append_of_mem ((hinv.marked.onPath name).mp hmark)
    have hnodup := hinv.path_nodup
    rw [hpath] at hnodup ⊢
    exact ⟨inner, outer, rfl, loopAt_append outer (not_mem_of_nodup_append hnodup)⟩

/-- **The stack of the search.** Whenever a name is visited, the path is a chain of spreads without
repetitions that leads to it, the marks say what is on the path, and whatever has been left was left with
nothing that it spreads still to come. No name is put on the path a second time. From every moment the
search comes to the end at which its loops are read off; nothing is pending or on the path then, and every
fragment has been left. -/
theorem search_invariant (r : Registry) :
    (∀ s name rest, r.Moment s → s.pending = .enter name :: rest → r.VisitInvariant s name rest) ∧
    (∀ s t s' t' name, r.Moment s → Enters r.graph s t name → ComesTo r.graph t s' →
      ¬ Enters r.graph s' t' name) ∧
    ∃ e, r.Moment e ∧ (∀ s, r.Moment s → ComesTo r.graph s e) ∧ e.loops = r.graph.loops ∧
      e.pending = [] ∧ e.path = [] ∧ ∀ f ∈ r.fragments, e.mark? f.name = some .finished := by
  refine ⟨fun s name rest => visitInvariant, fun s t s' t' name _ => not_enters_again, ?_⟩
  have hend : r.Moment ((start r.graph.names).run r.graph) := comesTo_run _
  refine ⟨_, hend, fun s hs => ?_, rfl, pending_run, path_run _ _, fun f hf => ?_⟩
  · rw [← run_eq_of_comesTo hs]
    exact comesTo_run s
  · rw [(inv_of_comesTo hend).marked.finished]
    exact SpreadGraph.Knows.mem_finishOrder_names (knows_graph.mpr (get?_isSome hf))

end Registry

end QueryModule.Fragment
