import QueryModule.Proofs.Fragment.FinishOrder

/-!
# The fragments that a selection set needs

`neededBy` and `spreadOrder` turn the order in which a search leaves names into a list of fragments.
Every name that the search leaves is registered, so no name is lost on the way, and the facts about
the order become facts about fragments: a selection set needs exactly what its spreads lead to
(`mem_neededBy`), once each (`nodup_neededBy`), and where the fragments spread each other in no circle
every one of them stands behind those it spreads (`mem_front_neededBy`).
-/

namespace QueryModule.Fragment

open QueryModule.Graphql
open Relation (TransGen ReflTransGen)

/-- Every spread in the selections, at whatever depth, names a registered fragment. -/
def Registry.Resolves (r : Registry) (selections : List Selection) : Prop :=
  ∀ name, SpreadsName selections name → ∃ f, r.get? name = some f

/-- The selections spread the fragment, directly or through other fragments. -/
def Registry.Needs (r : Registry) (selections : List Selection) (name : String) : Prop :=
  ∃ root, SpreadsName selections root ∧ ReflTransGen r.Spreads root name

namespace Registry

variable {r : Registry} {selections : List Selection}

/-- Selections need what the names that they spread lead to. -/
theorem reached_graph_iff {name : String} :
    r.graph.Reached (spreadNames selections) name ↔ r.Needs selections name := by
  unfold SpreadGraph.Reached Needs
  rw [edge_graph_eq]
  constructor
  · intro ⟨root, hroot, hpath⟩
    exact ⟨root, mem_spreadNames.mp hroot, hpath⟩
  · intro ⟨root, hroot, hpath⟩
    exact ⟨root, mem_spreadNames.mpr hroot, hpath⟩

/-! ## From names to fragments -/

/-- Looking up registered names loses none of them. -/
theorem map_name_filterMap_get? :
    ∀ {names : List String}, (∀ n ∈ names, ∃ f, r.get? n = some f) →
      (names.filterMap r.get?).map (·.name) = names
  | [], _ => rfl
  | n :: rest, h => by
    obtain ⟨f, hf⟩ := h n (List.mem_cons_self ..)
    rw [List.filterMap_cons, hf]
    show f.name :: (rest.filterMap r.get?).map (·.name) = n :: rest
    rw [name_of_get? hf,
      map_name_filterMap_get? fun m hm => h m (List.mem_cons_of_mem _ hm)]

/-- Every name that a search of the registry leaves is registered. -/
theorem get?_of_mem_finishOrder {roots : List String} :
    ∀ n ∈ r.graph.finishOrder roots, ∃ f, r.get? n = some f :=
  fun _ hn => knows_graph.mp (SpreadGraph.mem_finishOrder.mp hn).1

theorem map_name_neededBy (r : Registry) (selections : List Selection) :
    (r.neededBy selections).map (·.name) = r.graph.finishOrder (spreadNames selections) :=
  map_name_filterMap_get? get?_of_mem_finishOrder

theorem map_name_spreadOrder (r : Registry) :
    r.spreadOrder.map (·.name) = r.graph.finishOrder r.graph.names :=
  map_name_filterMap_get? get?_of_mem_finishOrder

/-- Fragments found by their names are those that the names lead to. -/
theorem mem_filterMap_get? {names : List String} {f : SourcedFragment} :
    f ∈ names.filterMap r.get? ↔ f.name ∈ names ∧ r.get? f.name = some f := by
  rw [List.mem_filterMap]
  constructor
  · intro ⟨n, hn, hf⟩
    -- The name that has led to the fragment is its own.
    rw [← name_of_get? hf] at hn hf
    exact ⟨hn, hf⟩
  · intro ⟨hn, hf⟩
    exact ⟨f.name, hn, hf⟩

/-! ## What is needed -/

/-- A selection set needs the registered fragments that its spreads lead to. -/
theorem mem_neededBy {f : SourcedFragment} :
    f ∈ r.neededBy selections ↔ r.get? f.name = some f ∧ r.Needs selections f.name := by
  unfold neededBy
  rw [mem_filterMap_get?, SpreadGraph.mem_finishOrder, knows_graph, reached_graph_iff]
  constructor
  · intro ⟨⟨_, hneeds⟩, hf⟩
    exact ⟨hf, hneeds⟩
  · intro ⟨hf, hneeds⟩
    exact ⟨⟨⟨f, hf⟩, hneeds⟩, hf⟩

/-- No fragment is listed twice. -/
theorem nodup_neededBy (r : Registry) (selections : List Selection) :
    ((r.neededBy selections).map (·.name)).Nodup := by
  rw [map_name_neededBy]
  exact SpreadGraph.nodup_finishOrder _ _

/-- Where there is no circle, what a needed fragment spreads stands in front of it. -/
theorem mem_front_neededBy (hacyclic : Acyclic r.Spreads) {front back : List SourcedFragment}
    {f : SourcedFragment} (h : r.neededBy selections = front ++ f :: back) {name : String}
    (hname : SpreadsName f.definition.selections name) (hk : ∃ g, r.get? name = some g) :
    ∃ g ∈ front, g.name = name := by
  have hmem : f ∈ r.neededBy selections := by
    rw [h]
    exact List.mem_append_right _ (List.mem_cons_self ..)
  have hsplit : r.graph.finishOrder (spreadNames selections)
      = front.map (·.name) ++ f.name :: back.map (·.name) := by
    rw [← map_name_neededBy, h, List.map_append, List.map_cons]
  have hedge : r.graph.Edge f.name name :=
    edge_graph.mpr ⟨f, (mem_neededBy.mp hmem).1, hname⟩
  -- The order of the names carries over, because looking them up loses none.
  have hacyclic' : Acyclic r.graph.Edge := fun n hn =>
    hacyclic n (TransGen.mono (fun _ _ => edge_graph.mp) _ _ hn)
  have hfront := SpreadGraph.mem_front_of_acyclic hacyclic' hsplit hedge (knows_graph.mpr hk)
  exact List.mem_map.mp hfront

/-! ## All fragments in order -/

/-- The order of all fragments lists those that are registered. -/
theorem mem_spreadOrder {f : SourcedFragment} : f ∈ r.spreadOrder ↔ r.get? f.name = some f := by
  unfold spreadOrder
  rw [mem_filterMap_get?]
  constructor
  · exact fun h => h.2
  · exact fun hf => ⟨(knows_graph.mpr ⟨f, hf⟩).mem_finishOrder_names, hf⟩

theorem nodup_spreadOrder (r : Registry) : (r.spreadOrder.map (·.name)).Nodup := by
  rw [map_name_spreadOrder]
  exact SpreadGraph.nodup_finishOrder _ _

/-- Where every fragment has a name of its own, each is found by its name. -/
theorem get?_of_nodup (hnodup : (r.fragments.map (·.name)).Nodup) {f : SourcedFragment}
    (hf : f ∈ r.fragments) : r.get? f.name = some f := by
  obtain ⟨g, hg⟩ := get?_isSome hf
  rw [hg, List.inj_on_of_nodup_map hnodup (mem_of_get? hg) hf (name_of_get? hg)]

/-- The order lists the registered fragments and no others, each as often as it is registered. -/
theorem spreadOrder_perm (hnodup : (r.fragments.map (·.name)).Nodup) :
    r.spreadOrder.Perm r.fragments := by
  refine (List.perm_ext_iff_of_nodup ?_ ?_).mpr fun f => ?_
  · exact List.Nodup.of_map _ r.nodup_spreadOrder
  · exact List.Nodup.of_map _ hnodup
  · rw [mem_spreadOrder]
    exact ⟨mem_of_get?, get?_of_nodup hnodup⟩

end Registry

end QueryModule.Fragment
