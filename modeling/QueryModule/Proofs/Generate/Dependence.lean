import Mathlib.Data.List.Find
import QueryModule.Proofs.Fragment.Agreement
import QueryModule.Proofs.Generate.Acceptance

/-!
# What a constant depends on

The text of a constant is determined by the definition, wherever it stands, and by what the registry
has under the names that the definition needs (`standaloneText_congr`). What a registry has under a
name is in turn determined by the fragments of the documents and by the external ones, the former
counting first (`lookup_merged`); and where every name is registered once, so are the conditions that
the fragments have to meet (`fragmentsSound_iff`).

Two runs are compared by what they have in common of this: `Inputs.definitions` are the definitions
of the documents without regard to files and positions.
-/

namespace QueryModule.Generate

open QueryModule.Config (Settings)
open QueryModule.Fragment
open QueryModule.Graphql

/-! ## Texts -/

/-- The definitions that a text is printed from, wherever they stand. -/
theorem map_unplaced_standaloneDefinitions (r : Registry) (d : Definition) :
    (standaloneDefinitions r d).map Definition.unplaced
      = d.unplaced :: (((r.neededBy d.selections).map (·.definition.unplaced)).filter
          fun f => some f.name ≠ d.fragment?.map (·.name)).map .fragment := by
  unfold standaloneDefinitions
  rw [List.map_cons, List.map_map, List.filter_map, List.map_map]
  rfl

/-- Registries that agree on what a definition needs give it the same text, wherever it stands. -/
theorem standaloneText_congr {r r' : Registry} {d d' : Definition} (hd : d.unplaced = d'.unplaced)
    (h : ∀ name, r.Needs d.selections name → r.lookup name = r'.lookup name) :
    standaloneText r d = standaloneText r' d' := by
  have hnames : spreadNames d.selections = spreadNames d'.selections := by
    rw [← spreadNames_unplaced d.selections, ← spreadNames_unplaced d'.selections,
      ← Definition.selections_unplaced, ← Definition.selections_unplaced, hd]
  have hneeded : (r'.neededBy d'.selections).map (·.definition.unplaced)
      = (r.neededBy d.selections).map (·.definition.unplaced) := by
    rw [Registry.neededBy_congr h]
    unfold Registry.neededBy
    rw [hnames]
  have hown : d.fragment?.map (·.name) = d'.fragment?.map (·.name) := by
    have hfragment := congrArg (fun e : Definition => e.fragment?.map (·.name)) hd
    simpa [Option.map_map, Function.comp_def] using hfragment
  have hdefinitions : (standaloneDefinitions r d).map Definition.unplaced
      = (standaloneDefinitions r' d').map Definition.unplaced := by
    rw [map_unplaced_standaloneDefinitions, map_unplaced_standaloneDefinitions, hneeded, hown, hd]
  unfold standaloneText
  rw [← printDocument_unplaced, hdefinitions, printDocument_unplaced]

/-! ## What is registered -/

/-- A definition as an operation with its name, if it is one. -/
def named? (d : Definition) : Option (String × Operation) :=
  d.operation?.bind fun o => o.name?.map (·, o)

namespace Inputs

/-- The definitions of the documents, wherever they stand. -/
def definitions (i : Inputs) : List Definition :=
  (combine i.documents).map (·.definition.unplaced)

theorem map_unplaced_localFragments (i : Inputs) :
    i.localFragments.map (·.definition.unplaced) = i.definitions.filterMap Definition.fragment? := by
  unfold localFragments fragmentsOf definitions
  rw [List.map_filterMap, List.filterMap_map]
  refine List.filterMap_congr fun d _ => ?_
  show Option.map _ (d.definition.fragment?.map _) = d.definition.unplaced.fragment?
  rw [Definition.fragment?_unplaced, Option.map_map]
  rfl

theorem map_unplaced_operations (i : Inputs) :
    (i.operations.map fun o => (o.name, o.operation.unplaced)) = i.definitions.filterMap named? := by
  unfold operations namedOperations definitions
  rw [List.map_filterMap, List.filterMap_map]
  refine List.filterMap_congr fun d _ => ?_
  show Option.map _ (NamedOperation.of? d) = named? d.definition.unplaced
  unfold NamedOperation.of? named?
  rw [Definition.operation?_unplaced]
  cases d.definition.operation? with
  | none => rfl
  | some o =>
    show Option.map _ (Option.map _ o.name?) = Option.map _ o.unplaced.name?
    rw [Operation.name?_unplaced, Option.map_map]
    rfl

end Inputs

/-- Among fragments of different names the one that is found under a name does not depend on their
order. -/
theorem find?_name_eq_some_iff {l : List FragmentDefinition} (hnodup : (l.map (·.name)).Nodup)
    {name : String} {f : FragmentDefinition} :
    l.find? (·.name = name) = some f ↔ f ∈ l ∧ f.name = name := by
  constructor
  · intro h
    exact ⟨List.mem_of_find?_eq_some h, by simpa using List.find?_some h⟩
  · intro ⟨hmem, hname⟩
    cases hfind : l.find? (·.name = name) with
    | none => exact absurd hname (by simpa using List.find?_eq_none.mp hfind f hmem)
    | some g =>
      have hg : g.name = name := by simpa using List.find?_some hfind
      rw [List.inj_on_of_nodup_map hnodup (List.mem_of_find?_eq_some hfind) hmem
        (hg.trans hname.symm)]

theorem find?_name_perm {l l' : List FragmentDefinition} (hperm : l.Perm l')
    (hnodup : (l.map (·.name)).Nodup) (name : String) :
    l.find? (·.name = name) = l'.find? (·.name = name) := by
  have hnodup' : (l'.map (·.name)).Nodup := (hperm.map _).nodup_iff.mp hnodup
  refine Option.ext fun f => ?_
  rw [find?_name_eq_some_iff hnodup, find?_name_eq_some_iff hnodup', hperm.mem_iff]

/-- A local fragment counts first, and an external one when there is no local one. -/
theorem lookup_merged (i : Inputs) (name : String) :
    i.merged.lookup name
      = ((i.localFragments.map (·.definition.unplaced)).find? (·.name = name)).or
          ((i.externalFragments.map (·.definition.unplaced)).find? (·.name = name)) := by
  unfold Registry.lookup Registry.get?
  show Option.map _ (List.find? _ (i.localFragments
    ++ i.externalFragments.filter (!i.pool.isShadowed ·))) = _
  rw [List.find?_append, List.find?_map, List.find?_map]
  show _ = ((i.localFragments.find? (·.name = name)).map _).or
    ((i.externalFragments.find? (·.name = name)).map _)
  cases hlocal : i.localFragments.find? (·.name = name) with
  | some f => rfl
  | none =>
    -- No local fragment has the name, and so none shadows an external one that has it.
    show Option.map _ (List.find? _ _) = Option.map _ (List.find? _ _)
    rw [List.find?_filter]
    congr 1
    refine List.find?_congr fun f _ => ?_
    rw [decide_eq_decide, decide_eq_true_eq, and_iff_right_iff_imp]
    intro hname
    rw [Bool.not_eq_true', ← Bool.not_eq_true, Pool.isShadowed_iff]
    intro ⟨g, hg, hgname⟩
    have hne := List.find?_eq_none.mp hlocal g hg
    exact hne (by simpa [hgname] using hname)

/-! ## The conditions on fragments -/

/-- Fragments that are found alike under all names are sound alike. -/
theorem fragmentsSound_of_lookup {i j : Inputs} (hi : (i.merged.fragments.map (·.name)).Nodup)
    (hj : (j.merged.fragments.map (·.name)).Nodup)
    (h : ∀ name, i.merged.lookup name = j.merged.lookup name) (hsound : i.FragmentsSound) :
    j.FragmentsSound := by
  have hspreads : i.merged.Spreads = j.merged.Spreads := by
    funext u v
    rw [eq_iff_iff, Registry.spreads_iff_lookup, Registry.spreads_iff_lookup, h u]
  obtain ⟨hclosed, hacyclic⟩ := hsound
  rw [Registry.closed_iff hi] at hclosed
  refine ⟨(Registry.closed_iff hj).mpr fun u v huv => ?_, ?_⟩
  · rw [← hspreads] at huv
    have hknown := hclosed u v huv
    rw [Registry.exists_get?_iff_lookup, h v] at hknown
    exact Registry.exists_get?_iff_lookup.mpr hknown
  · rw [← hspreads]
    exact hacyclic

end QueryModule.Generate
