import QueryModule.Proofs.Fragment.EntryOrder

/-!
# The fragments that a selection set needs, in order

Walking through a selection set means to go through its selections in source order and, wherever a
fragment is spread, through the selections of that fragment before going on. A fragment that is spread
again is gone through again: the walk has no memory, and it is stated here on the selections themselves
(`Registry.Walk`).

What a selection set needs is everything that its walk comes to. The list of it keeps one of the two
things that an order could keep: fragments stand behind those that they lead to, and among the others
the one that the walk comes to first stands first.

> `neededBy_reachable`
-/

namespace QueryModule.Fragment

open QueryModule.Graphql
open Relation (TransGen ReflTransGen)
open scoped List

/-- The names that a walk through some selections comes to, one after the other. -/
inductive Registry.Walk (r : Registry) : List Selection → List String → Prop where
  | done : Walk r [] []
  | field {key : Option String} {name : String} {arguments : Arguments}
      {directives : List Directive} {selections rest : List Selection}
      {within behind : List String} :
      Walk r selections within → Walk r rest behind →
      Walk r (.field key name arguments directives selections :: rest) (within ++ behind)
  | inline {onType : Option String} {directives : List Directive}
      {selections rest : List Selection} {within behind : List String} :
      Walk r selections within → Walk r rest behind →
      Walk r (.inline onType directives selections :: rest) (within ++ behind)
  /-- A registered fragment is entered. -/
  | spread {position : Position} {name : String} {directives : List Directive}
      {rest : List Selection} {f : SourcedFragment} {within behind : List String} :
      r.get? name = some f → Walk r f.definition.selections within → Walk r rest behind →
      Walk r (.spread position name directives :: rest) (name :: within ++ behind)
  /-- A name that is not registered is passed over. -/
  | unknown {position : Position} {name : String} {directives : List Directive}
      {rest : List Selection} {behind : List String} :
      r.get? name = none → Walk r rest behind →
      Walk r (.spread position name directives :: rest) behind

namespace Registry

variable {r : Registry} {selections : List Selection} {walk : List String}

/-! ## The walk through the names -/

theorem spreadNames_cons (s : Selection) (rest : List Selection) :
    spreadNames (s :: rest) = s.spreads.map (·.name) ++ spreadNames rest := by
  unfold spreadNames
  rw [spreadsOf, List.map_append]

/-- A walk through selections goes through the names that they spread. -/
theorem Walk.unfolds (h : r.Walk selections walk) : r.graph.Unfolds (spreadNames selections) walk := by
  induction h with
  | done => exact .done
  | field _ _ ihwithin ihbehind =>
    rw [spreadNames_cons, Selection.spreads]
    exact ihwithin.append ihbehind
  | inline _ _ ihwithin ihbehind =>
    rw [spreadNames_cons, Selection.spreads]
    exact ihwithin.append ihbehind
  | spread hf _ _ ihwithin ihbehind =>
    rw [spreadNames_cons, Selection.spreads]
    exact .follow (by rw [spreads?_graph, hf]; rfl) ihwithin ihbehind
  | unknown hf _ ih =>
    rw [spreadNames_cons, Selection.spreads]
    exact .pass (by rw [spreads?_graph, hf]; rfl) ih

/-! ## The walk ends -/

/-- A walk comes to an end when it does so in every fragment that the selections spread. -/
theorem exists_walk_of_within : ∀ selections : List Selection,
    (∀ name ∈ spreadNames selections, ∀ f, r.get? name = some f →
      ∃ within, r.Walk f.definition.selections within) → ∃ walk, r.Walk selections walk
  | [], _ => ⟨[], .done⟩
  | s :: rest, h => by
    rw [spreadNames_cons] at h
    -- Behind the first selection the walk ends, and inside of it as well: for a field by recursion, for a
    -- spread by what is assumed of the fragment.
    obtain ⟨behind, hbehind⟩ := exists_walk_of_within rest fun name hname =>
      h name (List.mem_append_right _ hname)
    cases s with
    | field key name arguments directives selections =>
      obtain ⟨within, hwithin⟩ := exists_walk_of_within selections fun name hname =>
        h name (List.mem_append_left _ (by rw [Selection.spreads]; exact hname))
      exact ⟨_, .field hwithin hbehind⟩
    | inline onType directives selections =>
      obtain ⟨within, hwithin⟩ := exists_walk_of_within selections fun name hname =>
        h name (List.mem_append_left _ (by rw [Selection.spreads]; exact hname))
      exact ⟨_, .inline hwithin hbehind⟩
    | spread position name directives =>
      cases hf : r.get? name with
      | none => exact ⟨_, .unknown hf hbehind⟩
      | some f =>
        obtain ⟨within, hwithin⟩ := h name (by simp [Selection.spreads]) f hf
        exact ⟨_, .spread hf hwithin hbehind⟩

/-- Where there is no circle, a walk comes to an end in every registered fragment. -/
theorem exists_walk_within (hacyclic : Acyclic r.Spreads) {name : String} {f : SourcedFragment}
    (hf : r.get? name = some f) : ∃ within, r.Walk f.definition.selections within := by
  -- By the place of the fragment in the order of leaving: what it spreads stands further in front.
  induction hplace : (r.graph.finishOrder r.graph.names).idxOf name using Nat.strongRecOn
      generalizing name f with
  | ind place ih =>
    refine exists_walk_of_within _ fun inner hinner g hg => ih _ ?_ hg rfl
    have hedge : r.graph.Edge name inner := edge_graph.mpr ⟨f, hf, mem_spreadNames.mp hinner⟩
    have hopen := SpreadGraph.OpenEdge.of_acyclic (acyclic_spreads_iff.mp hacyclic) hedge
    rw [← hplace]
    exact hopen.idxOf_lt (knows_graph.mpr ⟨g, hg⟩)

/-- Where fragments go in no circle, the walk through what selections spread ends. -/
theorem exists_walk (hacyclic : Acyclic r.Spreads) (selections : List Selection) :
    ∃ walk, r.Walk selections walk :=
  exists_walk_of_within selections fun _ _ _ hf => exists_walk_within hacyclic hf

/-! ## What is needed, in order -/

/-- The list holds what some selections need, in the order in which it is needed. -/
structure ListsNeeds (r : Registry) (selections : List Selection) (l : List SourcedFragment) :
    Prop where
  /-- What one or more spreads lead to, as far as it is registered, and nothing else. -/
  mem : ∀ f, f ∈ l ↔ f ∈ r.fragments ∧ r.Needs selections f.name
  /-- Each of them once. -/
  nodup : (l.map (·.name)).Nodup
  /-- Whatever a fragment spreads, directly or through others, stands in front of it. -/
  behind : ∀ f ∈ l, ∀ name, TransGen r.Spreads f.name name → ∃ g, g.name = name ∧ [g, f] <+ l
  /-- The walk through the selections comes to an end. -/
  ends : ∃ walk, r.Walk selections walk
  /-- A fragment that the walk comes to before another stands in front of it, unless it leads to it. -/
  first : ∀ walk, r.Walk selections walk → ∀ f ∈ l, ∀ g ∈ l,
    walk.idxOf f.name < walk.idxOf g.name → ¬ TransGen r.Spreads f.name g.name → [f, g] <+ l

/-- Of two needed fragments, the one that the walk comes to first is listed first, unless it needs the
other one. -/
theorem Lawful.pair_sublist_neededBy (h : r.Lawful) (hwalk : r.Walk selections walk)
    {f g : SourcedFragment} (hf : f ∈ r.neededBy selections) (hg : g ∈ r.neededBy selections)
    (hfirst : walk.idxOf f.name < walk.idxOf g.name) (hpath : ¬ TransGen r.Spreads f.name g.name) :
    [f, g] <+ r.neededBy selections := by
  obtain ⟨hfname, hf⟩ := mem_filterMap_get?.mp hf
  obtain ⟨hgname, hg⟩ := mem_filterMap_get?.mp hg
  refine pair_sublist_filterMap_get? hf hg ?_
  exact SpreadGraph.pair_sublist_finishOrder_of_unfolds (acyclic_spreads_iff.mp h.acyclic)
    hwalk.unfolds hfname hgname hfirst fun hpath' => hpath (transGen_graph.mp hpath')

/-- What is needed is listed as the walk asks for. -/
theorem Lawful.listsNeeds (h : r.Lawful) (selections : List Selection) :
    r.ListsNeeds selections (r.neededBy selections) where
  mem := fun f => by
    rw [mem_neededBy]
    exact and_congr_left fun _ => ⟨mem_of_get?, get?_of_nodup h.distinct⟩
  nodup := r.nodup_neededBy selections
  behind := fun _ hf _ hpath => h.exists_pair_sublist hf hpath
  ends := exists_walk h.acyclic selections
  first := fun _ hwalk _ hf _ hg => h.pair_sublist_neededBy hwalk hf hg

end Registry

/-- **What a selection set needs.** Whatever offers a pool has had, when a registry comes of it, it gives
every selection set exactly the registered fragments that one or more spreads lead to, each of them
once, behind all that it leads to, and otherwise in the order in which a walk through the selections
comes to them first. -/
theorem neededBy_reachable (history : List Offer) (r : Registry)
    (h : (collected history).toRegistry = .ok r) (selections : List Selection) :
    r.ListsNeeds selections (r.neededBy selections) :=
  (Registry.Lawful.of_toRegistry h).listsNeeds selections

/-- Spreads in a field and in an inline selection, one of them twice and one of an unknown name. -/
def sharingSelections : List Selection :=
  [.field none "x" [] [] [.spread .start "B" []],
    .inline none [] [.spread .start "C" [], .spread .start "Unknown" []], .spread .start "B" []]

/-- The fragment that both others need is listed once, in front of them. -/
theorem neededBy_sharingSelections :
    (collected sharingOffers).toRegistry = .ok (collected sharingOffers).merged ∧
      ((collected sharingOffers).merged.neededBy sharingSelections).map (·.name) = ["E", "B", "C"] ∧
      (collected sharingOffers).merged.ListsNeeds sharingSelections
        ((collected sharingOffers).merged.neededBy sharingSelections) :=
  ⟨toRegistry_sharingOffers, by cbv,
    neededBy_reachable sharingOffers _ toRegistry_sharingOffers sharingSelections⟩

end QueryModule.Fragment
