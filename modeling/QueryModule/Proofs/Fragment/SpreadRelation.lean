import QueryModule.Fragment.Pool
import Mathlib.Logic.Relation

/-!
# Which fragment spreads which

The search of `SpreadGraph` walks over lists of names that `spreadsOf` has collected. What it finds is
stated here without either: a selection *holds* a spread when the spread stands in it at some depth,
and a registered fragment *spreads* a name when one of its selections holds a spread of that name.

> `mem_spreadsOf`: `spreadsOf` lists exactly the spreads that are held.
>
> `Registry.edge_graph`: the graph of a registry has an edge exactly where a fragment spreads a name.
-/

namespace QueryModule.Graphql

/-- The spread stands in the selection, by itself or at some depth below it. -/
inductive Selection.Holds (x : Spread) : Selection → Prop where
  | here {directives : List Directive} : Holds x (.spread x.position x.name directives)
  | inField {key : Option String} {name : String} {arguments : Arguments}
      {directives : List Directive} {selections : List Selection} {s : Selection} :
      s ∈ selections → Holds x s → Holds x (.field key name arguments directives selections)
  | inInline {onType : Option String} {directives : List Directive} {selections : List Selection}
      {s : Selection} :
      s ∈ selections → Holds x s → Holds x (.inline onType directives selections)

/-- Some selection of the set holds a spread of the name. -/
def SpreadsName (selections : List Selection) (name : String) : Prop :=
  ∃ x : Spread, x.name = name ∧ ∃ s ∈ selections, s.Holds x

/-- A list of selections collects what each of its members does. -/
theorem mem_spreadsOf_of_mem {x : Spread} {s : Selection} (hx : x ∈ s.spreads) :
    ∀ {selections : List Selection}, s ∈ selections → x ∈ spreadsOf selections
  | [], hs => absurd hs List.not_mem_nil
  | t :: rest, hs => by
    unfold spreadsOf
    rcases List.mem_cons.mp hs with rfl | hs'
    · exact List.mem_append_left _ hx
    · exact List.mem_append_right _ (mem_spreadsOf_of_mem hx hs')

/-- No spread that a selection holds is passed over. -/
theorem Selection.Holds.mem_spreads {x : Spread} {s : Selection} (h : s.Holds x) :
    x ∈ s.spreads := by
  induction h with
  | here => simp [Selection.spreads]
  | inField hs _ ih =>
    unfold Selection.spreads
    exact mem_spreadsOf_of_mem ih hs
  | inInline hs _ ih =>
    unfold Selection.spreads
    exact mem_spreadsOf_of_mem ih hs

mutual

/-- Nothing is collected from a selection but what it holds. -/
theorem holds_of_mem_spreads {x : Spread} : ∀ {s : Selection}, x ∈ s.spreads → s.Holds x
  | .field _ _ _ _ selections, h => by
    unfold Selection.spreads at h
    obtain ⟨s, hs, hx⟩ := holds_of_mem_spreadsOf h
    exact .inField hs hx
  | .spread position name directives, h => by
    have hx : x = ⟨name, position⟩ := by simpa [Selection.spreads] using h
    subst hx
    exact .here
  | .inline _ _ selections, h => by
    unfold Selection.spreads at h
    obtain ⟨s, hs, hx⟩ := holds_of_mem_spreadsOf h
    exact .inInline hs hx

/-- Nothing is collected from a list of selections but what one of them holds. -/
theorem holds_of_mem_spreadsOf {x : Spread} :
    ∀ {selections : List Selection}, x ∈ spreadsOf selections → ∃ s ∈ selections, s.Holds x
  | [], h => by simp [spreadsOf] at h
  | s :: rest, h => by
    unfold spreadsOf at h
    rcases List.mem_append.mp h with hx | hx
    · exact ⟨s, List.mem_cons_self .., holds_of_mem_spreads hx⟩
    · obtain ⟨t, ht, hx'⟩ := holds_of_mem_spreadsOf hx
      exact ⟨t, List.mem_cons_of_mem _ ht, hx'⟩

end

/-- The spreads collected from a selection set are those that stand in it at some depth. -/
theorem mem_spreadsOf {x : Spread} {selections : List Selection} :
    x ∈ spreadsOf selections ↔ ∃ s ∈ selections, s.Holds x := by
  constructor
  · exact holds_of_mem_spreadsOf
  · intro ⟨s, hs, hx⟩
    exact mem_spreadsOf_of_mem hx.mem_spreads hs

/-- The names collected from a selection set are those that it spreads. -/
theorem mem_spreadNames {name : String} {selections : List Selection} :
    name ∈ spreadNames selections ↔ SpreadsName selections name := by
  unfold spreadNames SpreadsName
  rw [List.mem_map]
  constructor
  · intro ⟨x, hx, hname⟩
    exact ⟨x, hname, mem_spreadsOf.mp hx⟩
  · intro ⟨x, hname, hx⟩
    exact ⟨x, mem_spreadsOf.mpr hx, hname⟩

end QueryModule.Graphql

namespace QueryModule.Fragment

open QueryModule.Graphql
open Relation (TransGen ReflTransGen)

/-- No name leads back to itself. -/
def Acyclic (edge : String → String → Prop) : Prop := ∀ name, ¬ TransGen edge name name

namespace SpreadGraph

/-- The graph knows `u`, and `v` is among what it spreads. -/
def Edge (g : SpreadGraph) (u v : String) : Prop :=
  ∃ spreads, g.spreads? u = some spreads ∧ v ∈ spreads

/-- The graph knows the name. -/
def Knows (g : SpreadGraph) (name : String) : Prop := ∃ spreads, g.spreads? name = some spreads

theorem Edge.knows {g : SpreadGraph} {u v : String} (h : g.Edge u v) : g.Knows u := by
  obtain ⟨spreads, hu, _⟩ := h
  exact ⟨spreads, hu⟩

theorem not_knows {g : SpreadGraph} {name : String} (h : g.spreads? name = none) :
    ¬ g.Knows name := by
  intro ⟨spreads, hs⟩
  rw [h] at hs
  exact absurd hs (by simp)

end SpreadGraph

namespace Registry

/-- The fragment that `u` names spreads `v`, at whatever depth of its selections. -/
def Spreads (r : Registry) (u v : String) : Prop :=
  ∃ f, r.get? u = some f ∧ SpreadsName f.definition.selections v

/-- A fragment is registered under its own name. -/
theorem name_of_get? {r : Registry} {name : String} {f : SourcedFragment}
    (h : r.get? name = some f) : f.name = name := by
  have hf := List.find?_some h
  simpa using hf

theorem mem_of_get? {r : Registry} {name : String} {f : SourcedFragment}
    (h : r.get? name = some f) : f ∈ r.fragments :=
  List.mem_of_find?_eq_some h

/-- Every registered name leads to a fragment. -/
theorem get?_isSome {r : Registry} {f : SourcedFragment} (h : f ∈ r.fragments) :
    ∃ g, r.get? f.name = some g := by
  cases hg : r.get? f.name with
  | some g => exact ⟨g, rfl⟩
  | none =>
    have := List.find?_eq_none.mp hg f h
    simp at this

/-- The graph looks a name up as the registry does. -/
theorem spreads?_graph (r : Registry) (name : String) :
    r.graph.spreads? name = (r.get? name).map fun f => spreadNames f.definition.selections := by
  unfold graph SpreadGraph.spreads? get?
  induction r.fragments with
  | nil => rfl
  | cons f rest ih =>
    rw [List.map_cons, List.lookup_cons, List.find?_cons]
    by_cases hname : f.name = name
    · simp [hname]
    · have hne : (name == f.name) = false := beq_eq_false_iff_ne.mpr fun h => hname h.symm
      simp only [hne, hname, decide_false]
      exact ih

/-- The graph knows what is registered. -/
theorem knows_graph {r : Registry} {name : String} :
    r.graph.Knows name ↔ ∃ f, r.get? name = some f := by
  unfold SpreadGraph.Knows
  rw [spreads?_graph]
  cases r.get? name <;> simp

/-- The graph of a registry has an edge where a fragment spreads a name. -/
theorem edge_graph {r : Registry} {u v : String} : r.graph.Edge u v ↔ r.Spreads u v := by
  unfold SpreadGraph.Edge Spreads
  rw [spreads?_graph]
  cases r.get? u with
  | none => simp
  | some f => simp [mem_spreadNames]

theorem edge_graph_eq (r : Registry) : r.graph.Edge = r.Spreads :=
  funext fun _ => funext fun _ => propext edge_graph

end Registry

end QueryModule.Fragment
