import QueryModule.Proofs.Fragment.FinishOrder

/-!
# The loops that are reported for a set of fragments

When the collected fragments are merged into a registry, every spread that leads back to a fragment on
the way down is reported as a loop. Each report is a genuine circle of spreads, and no circle goes
unreported: it may not be reported as such, but one of its spreads is the closing one of a report. So
the reports are enough to mend the fragments.

> `reportedLoops_genuine_and_complete`
-/

namespace QueryModule.Fragment

open Relation (TransGen ReflTransGen)

/-- The path of an error that reports a loop. -/
def FragmentError.loop? : FragmentError → Option (List String)
  | .cycle path => some path
  | .duplicateDefinition _ _ _ => none
  | .undefinedReference _ _ _ => none

/-- The loops among the errors of a merge that fails. -/
def Pool.reportedLoops (p : Pool) : List (List String) :=
  match p.toRegistry with
  | .ok _ => []
  | .error errors => errors.filterMap (·.loop?)

/-- A circle of fragments, each of which spreads the next one. The path ends with the name it starts
with, and repeats no other. -/
structure Registry.IsCircle (r : Registry) (path : List String) : Prop where
  two_le_length : 2 ≤ path.length
  closed : path.head? = path.getLast?
  nodup : path.dropLast.Nodup
  registered : ∀ name ∈ path, ∃ f, r.get? name = some f
  spreads : path.IsChain r.Spreads

/-- A walk along spreads that ends with the name it starts with. Other names can be repeated. -/
structure Registry.IsClosedWalk (r : Registry) (walk : List String) : Prop where
  two_le_length : 2 ≤ walk.length
  closed : walk.head? = walk.getLast?
  spreads : walk.IsChain r.Spreads

/-- The step from `u` to `v` is the last one of a reported loop. -/
def Pool.ClosesLoop (p : Pool) (u v : String) : Prop := ∃ path ∈ p.reportedLoops, [u, v] <:+ path

/-! ## What is reported -/

/-- An unknown spread is no loop. -/
theorem loop?_undefinedReferences {r : Registry} {referencedBy : String} {file : Option String}
    {spreads : List Graphql.Spread} :
    (r.undefinedReferences referencedBy file spreads).filterMap (·.loop?) = [] := by
  rw [List.filterMap_eq_nil_iff]
  intro e he
  obtain ⟨s, -, rfl⟩ := List.mem_map.mp he
  rfl

theorem loop?_undefinedInFragments {r : Registry} :
    r.undefinedInFragments.filterMap (·.loop?) = [] := by
  rw [List.filterMap_eq_nil_iff]
  intro e he
  obtain ⟨f, -, hf⟩ := List.mem_flatMap.mp he
  exact List.filterMap_eq_nil_iff.mp loop?_undefinedReferences e hf

/-- A merge reports the loops that the search of its graph finds. -/
theorem reportedLoops_eq (p : Pool) : p.reportedLoops = p.merged.graph.loops := by
  have hall : p.merged.problems.filterMap (·.loop?) = p.merged.graph.loops := by
    unfold Registry.problems
    rw [List.filterMap_append, loop?_undefinedInFragments, List.append_nil, List.filterMap_map]
    exact List.filterMap_some
  unfold Pool.reportedLoops Pool.toRegistry
  cases hproblems : p.merged.problems with
  | nil =>
    rw [hproblems] at hall
    exact hall
  | cons e errors =>
    rw [hproblems] at hall
    exact hall

/-! ## Reports are genuine -/

/-- Every name of a loop has an edge. -/
theorem mem_edge_of_isLoop {edge : String → String → Prop} {path : List String} {name : String}
    (h : IsLoop edge path) (hname : name ∈ path) : ∃ v, edge name v := by
  obtain ⟨first, inner, rfl, -, hchain⟩ := h
  have hmem : name ∈ first :: inner := by
    rcases List.mem_append.mp hname with hin | hlast
    · exact hin
    · rw [List.mem_singleton.mp hlast]
      exact List.mem_cons_self ..
  -- Every entry but the last one is followed by another.
  obtain ⟨front, back, hsplit⟩ := List.append_of_mem hmem
  rw [hsplit, List.append_assoc, List.cons_append] at hchain
  have hrest := hchain.right_of_append
  cases back with
  | nil => exact ⟨first, (List.isChain_cons_cons.mp hrest).1⟩
  | cons n back => exact ⟨n, (List.isChain_cons_cons.mp hrest).1⟩

/-- A loop of the graph is a circle of registered fragments. -/
theorem isCircle_of_isLoop {r : Registry} {path : List String} (h : IsLoop r.graph.Edge path) :
    r.IsCircle path := by
  have hregistered : ∀ name ∈ path, ∃ f, r.get? name = some f := by
    intro name hname
    obtain ⟨v, hv⟩ := mem_edge_of_isLoop h hname
    exact Registry.knows_graph.mp hv.knows
  obtain ⟨name, inner, rfl, hnodup, hchain⟩ := h
  exact
    { two_le_length := by simp
      closed := by rw [List.getLast?_concat]; rfl
      nodup := by rw [List.dropLast_concat]; exact hnodup
      registered := hregistered
      spreads := hchain.imp fun _ _ hedge => Registry.edge_graph.mp hedge }

/-- Every reported path is a circle of registered fragments. -/
theorem isCircle_of_mem_reportedLoops {p : Pool} {path : List String}
    (h : path ∈ p.reportedLoops) : p.merged.IsCircle path := by
  rw [reportedLoops_eq] at h
  exact isCircle_of_isLoop (SpreadGraph.genuine_loops h)

/-! ## Every circle has a reported spread -/

/-- The step that closes a loop is what its path ends with. -/
theorem closes_iff_suffix {loops : List (List String)} {u v : String} :
    Closes loops u v ↔ ∃ path ∈ loops, [u, v] <:+ path := by
  constructor
  · intro ⟨front, hmem⟩
    exact ⟨_, hmem, front, rfl⟩
  · intro ⟨path, hmem, front, hpath⟩
    rw [← hpath] at hmem
    exact ⟨front, hmem⟩

/-- Closing spreads are those of the loops of the graph. -/
theorem closesLoop_iff {p : Pool} {u v : String} :
    p.ClosesLoop u v ↔ Closes p.merged.graph.loops u v := by
  unfold Pool.ClosesLoop
  rw [reportedLoops_eq]
  exact closes_iff_suffix.symm

/-- A walk of at least one step either takes a step that `stop` holds of, or is one without. -/
theorem isChain_or_stop {edge : String → String → Prop} (stop : String → String → Prop) :
    ∀ {walk : List String}, walk.IsChain edge →
      (∃ u v, [u, v] <:+: walk ∧ stop u v) ∨ walk.IsChain fun u v => edge u v ∧ ¬ stop u v
  | [], _ => Or.inr .nil
  | [a], _ => Or.inr (.singleton a)
  | a :: b :: rest, h => by
    obtain ⟨hab, hrest⟩ := List.isChain_cons_cons.mp h
    -- The walk is looked through from its start, up to the first step that `stop` holds of.
    by_cases hstop : stop a b
    · exact Or.inl ⟨a, b, ⟨[], rest, rfl⟩, hstop⟩
    · rcases isChain_or_stop stop hrest with ⟨u, v, hin, huv⟩ | hopen
      · exact Or.inl ⟨u, v, hin.trans (List.suffix_cons a _).isInfix, huv⟩
      · exact Or.inr (List.isChain_cons_cons.mpr ⟨⟨hab, hstop⟩, hopen⟩)

/-- A closed walk leads from its first name to that name. -/
theorem exists_transGen_of_closed {edge : String → String → Prop} {walk : List String}
    (hlength : 2 ≤ walk.length) (hclosed : walk.head? = walk.getLast?) (h : walk.IsChain edge) :
    ∃ name, TransGen edge name name := by
  rcases List.eq_nil_or_concat walk with rfl | ⟨front, last, rfl⟩
  · exact absurd hlength (by simp)
  · rw [List.concat_eq_append] at hlength hclosed h
    cases front with
    | nil => exact absurd hlength (by simp)
    | cons name inner =>
      rw [List.getLast?_concat, List.cons_append, List.head?_cons, Option.some.injEq] at hclosed
      rw [hclosed] at h
      exact ⟨last, transGen_of_isChain inner last h⟩

/-- Without the closing spreads the others go in no circle. -/
theorem acyclic_unreported (p : Pool) :
    Acyclic fun u v => p.merged.Spreads u v ∧ ¬ p.ClosesLoop u v := by
  intro name h
  refine SpreadGraph.acyclic_unclosed p.merged.graph name (TransGen.mono ?_ _ _ h)
  intro u v huv
  exact ⟨Registry.edge_graph.mpr huv.1, fun hc => huv.2 (closesLoop_iff.mpr hc)⟩

/-- Every closed walk has a closing spread in it, since without one it would be a circle. -/
theorem exists_closesLoop_of_isClosedWalk {p : Pool} {walk : List String}
    (h : p.merged.IsClosedWalk walk) : ∃ u v, [u, v] <:+: walk ∧ p.ClosesLoop u v := by
  rcases isChain_or_stop p.ClosesLoop h.spreads with hstop | hopen
  · exact hstop
  · -- Without such a step the walk would be a circle among the spreads that close nothing.
    obtain ⟨name, hname⟩ := exists_transGen_of_closed h.two_le_length h.closed hopen
    exact absurd hname (acyclic_unreported p name)

/-- Fragments go in no circle exactly when their graph does not. -/
theorem acyclic_spreads_iff {r : Registry} : Acyclic r.Spreads ↔ Acyclic r.graph.Edge := by
  rw [Registry.edge_graph_eq]

/-- **Reports of loops are genuine and cover every circle.** Every reported path is a circle of
spreads between registered fragments, every closed walk takes a step that closes a reported path,
the spreads without these steps have no circle, and nothing is reported exactly when there is none
to begin with. -/
theorem reportedLoops_genuine_and_complete (p : Pool) :
    (∀ path ∈ p.reportedLoops, p.merged.IsCircle path) ∧
    (∀ walk, p.merged.IsClosedWalk walk → ∃ u v, [u, v] <:+: walk ∧ p.ClosesLoop u v) ∧
    (Acyclic fun u v => p.merged.Spreads u v ∧ ¬ p.ClosesLoop u v) ∧
    (p.reportedLoops = [] ↔ Acyclic p.merged.Spreads) := by
  refine ⟨fun _ => isCircle_of_mem_reportedLoops, fun _ => exists_closesLoop_of_isClosedWalk,
    acyclic_unreported p, ?_⟩
  rw [reportedLoops_eq, acyclic_spreads_iff]
  exact SpreadGraph.loops_eq_nil_iff

end QueryModule.Fragment
