import QueryModule.Proofs.Fragment.Merging
import QueryModule.Proofs.Graphql.Placement

/-!
# Searches of graphs that agree

A search looks a name up when it is about to enter it, and at no other time. So two graphs that agree
on the names which the roots lead to are searched alike, whatever else they know and in whatever order
they know it (`finishOrder_congr`). And since a search does its tasks in order, what it leaves from
some roots stands at the front of what it leaves when further roots are added (`finishOrder_append`).

Registries inherit both. Two registries agree on a name when either none of them knows it or both have
the same fragment for it, wherever that fragment stands:

> `neededBy_congr`: registries that agree on what a selection set needs give it the same fragments in
> the same order.
-/

namespace QueryModule.Fragment

open QueryModule.Graphql

namespace Search

variable {g g' : SpreadGraph} {s t : Search}

/-- From the next moment a search comes to the same end. -/
theorem run_of_next? (h : s.next? g = some t) : s.run g = t.run g := by
  rw [run.eq_def]
  split
  · next hnone => rw [h] at hnone; exact absurd hnone (by simp)
  · next t' hsome => rw [h] at hsome; rw [Option.some.inj hsome]

theorem run_of_pending_nil (h : s.pending = []) : s.run g = s := by
  have hnone : s.next? g = none := by
    unfold next?
    rw [h]
  rw [run.eq_def]
  split
  · rfl
  · next hsome => rw [hnone] at hsome; exact absurd hsome (by simp)

/-- A search stops only where nothing is pending. -/
theorem pending_of_next?_eq_none (h : s.next? g = none) : s.pending = [] := by
  unfold next? at h
  split at h
  · next hp => exact hp
  · exact absurd h (by simp)
  · exact absurd h (by simp)

/-! ## Graphs that agree where the search goes -/

/-- A search inside of a set of names that is closed under spreading does not notice what the graph
knows outside of the set. -/
theorem run_congr {inside : String → Prop} (closed : ∀ u v, inside u → g.Edge u v → inside v)
    (agree : ∀ n, inside n → g.spreads? n = g'.spreads? n)
    (hpending : ∀ n, .enter n ∈ s.pending → inside n) : s.run g = s.run g' := by
  fun_induction run g s with
  | case1 s hnone => exact (run_of_pending_nil (pending_of_next?_eq_none hnone)).symm
  | case2 s t hnext _ ih =>
    -- The other graph has the same next step.
    have hstep : s.next? g' = some t := by
      unfold next? at hnext ⊢
      split
      · next hp => simp only [hp] at hnext; exact absurd hnext (by simp)
      · next name rest hp =>
        simp only [hp] at hnext
        have hname : inside name := hpending name (by rw [hp]; exact List.mem_cons_self ..)
        rw [← hnext]
        unfold Search.enter
        rw [agree name hname]
      · next hp => simp only [hp] at hnext; exact hnext
    rw [run_of_next? hstep]
    refine ih fun n hn => ?_
    -- What has become pending is spread by a name of the set.
    cases move_of_next? hnext with
    | skip hp _ => exact hpending n (by rw [hp]; exact List.mem_cons_of_mem _ hn)
    | close hp _ => exact hpending n (by rw [hp]; exact List.mem_cons_of_mem _ hn)
    | ignore hp _ => exact hpending n (by rw [hp]; exact List.mem_cons_of_mem _ hn)
    | leave hp => exact hpending n (by rw [hp]; exact List.mem_cons_of_mem _ hn)
    | @enter name rest spreads hp _ hg =>
      rcases List.mem_append.mp hn with hspread | hrest
      · obtain ⟨v, hv, heq⟩ := List.mem_map.mp hspread
        have hname : inside name := hpending name (by rw [hp]; exact List.mem_cons_self ..)
        rw [← Task.enter.inj heq]
        exact closed name v hname ⟨spreads, hg, hv⟩
      · rcases List.mem_cons.mp hrest with heq | hrest'
        · exact absurd heq (by simp)
        · exact hpending n (by rw [hp]; exact List.mem_cons_of_mem _ hrest')

/-! ## More tasks -/

/-- A step does not depend on what is pending behind it. -/
theorem next?_append (h : s.next? g = some t) (more : List Task) :
    ({ s with pending := s.pending ++ more } : Search).next? g
      = some { t with pending := t.pending ++ more } := by
  unfold next? at h ⊢
  cases hp : s.pending with
  | nil => simp only [hp] at h; exact absurd h (by simp)
  | cons task rest =>
    cases task with
    | leave name =>
      simp only [hp] at h
      rw [← Option.some.inj h]
      rfl
    | enter name =>
      simp only [hp] at h
      rw [← Option.some.inj h]
      show some (enter g { s with pending := .enter name :: rest ++ more } name (rest ++ more)) = _
      -- The marks have nothing to do with what is pending.
      have hmark : ({ s with pending := .enter name :: rest ++ more } : Search).mark? name
          = s.mark? name := rfl
      unfold enter
      rw [hmark]
      cases s.mark? name with
      | some m => cases m <;> rfl
      | none =>
        cases hg : g.spreads? name with
        | none => rfl
        | some spreads => simp

/-- Further tasks are done when the others have been. -/
theorem run_append (more : List Task) :
    ({ s with pending := s.pending ++ more } : Search).run g
      = ({ s.run g with pending := more } : Search).run g := by
  fun_induction run g s with
  | case1 s hnone => rw [pending_of_next?_eq_none hnone, List.nil_append]
  | case2 s t hnext _ ih => rw [run_of_next? (next?_append hnext more), ih]

/-- What has been left stays so. -/
theorem finished_prefix_run (g : SpreadGraph) (s : Search) : s.finished <+: (s.run g).finished := by
  refine run_induction (P := fun t => s.finished <+: t.finished) ?_ List.prefix_rfl
  intro t u ht hmove
  cases hmove with
  | skip => exact ht
  | close => exact ht
  | ignore => exact ht
  | enter => exact ht
  | leave => exact ht.trans (List.prefix_append _ _)

end Search

namespace SpreadGraph

open Search

variable {g g' : SpreadGraph} {roots : List String}

/-- Graphs that agree on what the roots lead to are searched alike. -/
theorem finishOrder_congr (h : ∀ n, g.Reached roots n → g.spreads? n = g'.spreads? n) :
    g.finishOrder roots = g'.finishOrder roots := by
  have hclosed : ∀ u v, g.Reached roots u → g.Edge u v → g.Reached roots v :=
    fun _ _ hu hedge => hu.tail hedge
  unfold finishOrder
  rw [run_congr hclosed h]
  intro n hn
  exact (fromRoots_start g roots).pending n hn

/-- Where the graph knows everything that is spread, known roots lead to known names only. -/
theorem Reached.knows (hclosed : ∀ u v, g.Edge u v → g.Knows v) (hroots : ∀ root ∈ roots, g.Knows root)
    {name : String} (h : g.Reached roots name) : g.Knows name := by
  obtain ⟨root, hroot, hpath⟩ := h
  cases hpath with
  | refl => exact hroots _ hroot
  | tail _ hedge => exact hclosed _ _ hedge

/-- What is left from some roots comes before what further roots add to it. -/
theorem finishOrder_append (g : SpreadGraph) (front back : List String) :
    ∃ more, g.finishOrder (front ++ back) = g.finishOrder front ++ more := by
  have hstart : start (front ++ back)
      = { start front with pending := (start front).pending ++ back.map .enter } := by
    simp [start]
  obtain ⟨more, hmore⟩ := finished_prefix_run g
    { (start front).run g with pending := back.map .enter }
  refine ⟨more, ?_⟩
  unfold finishOrder
  rw [hstart, run_append]
  exact hmore.symm

end SpreadGraph

namespace Registry

variable {r r' : Registry} {selections : List Selection}

/-- What a registry has under a name, wherever it stands. -/
def lookup (r : Registry) (name : String) : Option FragmentDefinition :=
  (r.get? name).map (·.definition.unplaced)

theorem spreads?_graph_eq (r : Registry) (name : String) :
    r.graph.spreads? name = (r.lookup name).map fun f => spreadNames f.selections := by
  rw [spreads?_graph, lookup, Option.map_map]
  congr 1
  funext f
  exact (spreadNames_unplaced f.definition.selections).symm

/-- The fragments found under some names. -/
theorem map_unplaced_filterMap_get? (r : Registry) (names : List String) :
    (names.filterMap r.get?).map (·.definition.unplaced) = names.filterMap r.lookup := by
  rw [List.map_filterMap]
  rfl

/-- Registries that agree on what a selection set needs give it the same fragments. -/
theorem neededBy_congr (h : ∀ name, r.Needs selections name → r.lookup name = r'.lookup name) :
    (r.neededBy selections).map (·.definition.unplaced)
      = (r'.neededBy selections).map (·.definition.unplaced) := by
  have horder : r.graph.finishOrder (spreadNames selections)
      = r'.graph.finishOrder (spreadNames selections) := by
    refine SpreadGraph.finishOrder_congr fun n hn => ?_
    rw [spreads?_graph_eq, spreads?_graph_eq, h n (reached_graph_iff.mp hn)]
  unfold neededBy
  rw [map_unplaced_filterMap_get?, map_unplaced_filterMap_get?, ← horder]
  refine List.filterMap_congr fun n hn => ?_
  exact h n (reached_graph_iff.mp (SpreadGraph.mem_finishOrder.mp hn).2)

/-- Registries that have the same fragments for what some names lead to put them in the same order. -/
theorem filterMap_finishOrder_congr {roots : List String}
    (h : ∀ n, r.graph.Reached roots n → r.get? n = r'.get? n) :
    (r.graph.finishOrder roots).filterMap r.get?
      = (r'.graph.finishOrder roots).filterMap r'.get? := by
  have horder : r.graph.finishOrder roots = r'.graph.finishOrder roots := by
    refine SpreadGraph.finishOrder_congr fun n hn => ?_
    rw [spreads?_graph, spreads?_graph, h n hn]
  rw [← horder]
  exact List.filterMap_congr fun n hn => h n (SpreadGraph.mem_finishOrder.mp hn).2

/-- Where nothing unknown is spread, registered names lead to registered names only. -/
theorem Closed.get?_of_reached (hclosed : r.Closed) {roots : List String}
    (hroots : ∀ root ∈ roots, ∃ f, r.get? root = some f) {name : String}
    (h : r.graph.Reached roots name) : ∃ f, r.get? name = some f := by
  refine knows_graph.mp (h.knows (fun u v hedge => ?_) fun root hroot => knows_graph.mpr (hroots root hroot))
  obtain ⟨f, hf, hv⟩ := edge_graph.mp hedge
  exact knows_graph.mpr (hclosed f (mem_of_get? hf) v hv)

/-- Where nothing unknown is spread, nothing unknown is needed. -/
theorem Closed.get?_of_needs (hclosed : r.Closed) (hresolves : r.Resolves selections) {name : String}
    (h : r.Needs selections name) : ∃ f, r.get? name = some f :=
  hclosed.get?_of_reached (fun root hroot => hresolves root (mem_spreadNames.mp hroot))
    (reached_graph_iff.mpr h)

/-! ## What is found under the names -/

/-- Which fragment spreads which is seen from what is found under the names. -/
theorem spreads_iff_lookup {u v : String} :
    r.Spreads u v ↔ ∃ f, r.lookup u = some f ∧ v ∈ spreadNames f.selections := by
  unfold Spreads lookup
  constructor
  · intro ⟨f, hf, hv⟩
    refine ⟨f.definition.unplaced, by rw [hf]; rfl, ?_⟩
    show v ∈ spreadNames (unplacedSelections f.definition.selections)
    rw [spreadNames_unplaced]
    exact mem_spreadNames.mpr hv
  · intro ⟨node, hnode, hv⟩
    obtain ⟨f, hf, rfl⟩ := Option.map_eq_some_iff.mp hnode
    refine ⟨f, hf, mem_spreadNames.mp ?_⟩
    rw [← spreadNames_unplaced]
    exact hv

theorem exists_get?_iff_lookup {name : String} :
    (∃ f, r.get? name = some f) ↔ ∃ f, r.lookup name = some f := by
  unfold lookup
  cases r.get? name <;> simp

/-- Where every fragment has a name of its own, nothing unknown is spread when every spread of a
registered name leads to a registered name. -/
theorem closed_iff (hnodup : (r.fragments.map (·.name)).Nodup) :
    r.Closed ↔ ∀ u v, r.Spreads u v → ∃ f, r.get? v = some f := by
  constructor
  · intro h u v ⟨f, hf, hv⟩
    exact h f (mem_of_get? hf) v hv
  · intro h f hf v hv
    exact h f.name v ⟨f, get?_of_nodup hnodup hf, hv⟩

end Registry

end QueryModule.Fragment
