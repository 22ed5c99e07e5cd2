import Mathlib
import QueryModule.Proofs.Generate.Dependence

/-!
# Rearranged documents

Files can be reordered, cut apart and put together, definitions can be moved from one to another, and
documents that have not been parsed can be added: as long as the definitions are the same ones, this
neither makes inputs acceptable nor unacceptable, and the constants stay what they are. Only their
order can change.

All conditions on inputs are about which definitions there are. The one that could depend on an order
is about circles, and it is a property of what is found under each name; this is the same on both
sides because no two fragments share a name. The text of a constant lists the needed fragments in the
order of a search, which follows the spreads and never the order of registration.

> `constants_perm_of_rearranged`: rearranged inputs are accepted together, and what is generated then
> are the same constants of fragments and the same constants of operations.
-/

namespace QueryModule.Generate

open QueryModule.Config (Settings Options)
open QueryModule.Elixir (Module)
open QueryModule.Fragment
open QueryModule.Graphql

/-- The inputs have the same options and external fragments, and their documents have the same
definitions, in whatever order, in whatever files and at whatever places. -/
structure Rearranged (i j : Inputs) : Prop where
  options : i.options = j.options
  externals : i.externals = j.externals
  definitions : i.definitions.Perm j.definitions

/-! ## Constants, wherever their definitions stand -/

/-- The constant of a fragment, given by the definition alone. -/
def fragmentConstant (r : Registry) (s : Settings) (f : FragmentDefinition) : Constant :=
  ⟨s.fragmentConstantName f.name, standaloneText r (.fragment f)⟩

/-- The constant of an operation, given by its name and the definition alone. -/
def operationConstant (r : Registry) (s : Settings) (o : String × Operation) : Constant :=
  ⟨s.operationConstantName o.1, standaloneText r (.operation o.2)⟩

/-- A fragment's constant does not depend on where it stands. -/
theorem ofFragment_eq (r : Registry) (s : Settings) (f : SourcedFragment) :
    Constant.ofFragment r s f = fragmentConstant r s f.definition.unplaced := by
  have htext : standaloneText r (.fragment f.definition)
      = standaloneText r (.fragment f.definition.unplaced) :=
    standaloneText_congr (by simp [Definition.unplaced]) fun _ _ => rfl
  unfold Constant.ofFragment fragmentConstant
  rw [htext]
  rfl

/-- Neither does the one of an operation. -/
theorem constant_eq (r : Registry) (s : Settings) (o : NamedOperation) :
    o.constant r s = operationConstant r s (o.name, o.operation.unplaced) := by
  have htext : standaloneText r (.operation o.operation)
      = standaloneText r (.operation o.operation.unplaced) :=
    standaloneText_congr (by simp [Definition.unplaced]) fun _ _ => rfl
  unfold NamedOperation.constant operationConstant
  rw [htext]

/-- Registries in which the same is found under every name make the same constants. -/
theorem constants_congr {r r' : Registry} (h : ∀ name, r.lookup name = r'.lookup name)
    (s : Settings) :
    fragmentConstant r s = fragmentConstant r' s ∧ operationConstant r s = operationConstant r' s := by
  constructor
  · funext f
    unfold fragmentConstant
    rw [standaloneText_congr rfl fun name _ => h name]
  · funext o
    unfold operationConstant
    rw [standaloneText_congr rfl fun name _ => h name]

/-- The fragment constants are those of the fragments among the definitions, in some order. -/
theorem fragmentConstants_perm {i : Inputs} (hnodup : (i.merged.fragments.map (·.name)).Nodup)
    (s : Settings) :
    (fragmentConstants i.merged s).Perm
      ((i.definitions.filterMap Definition.fragment?).map (fragmentConstant i.merged s)) := by
  have hall : i.localFragments.map (Constant.ofFragment i.merged s)
      = (i.definitions.filterMap Definition.fragment?).map (fragmentConstant i.merged s) := by
    rw [← Inputs.map_unplaced_localFragments, List.map_map]
    exact List.map_congr_left fun f _ => ofFragment_eq i.merged s f
  rw [← hall]
  exact (orderedFragments_perm hnodup).map _

/-- The operation constants are those of the named operations among the definitions. -/
theorem operationConstants_eq_map (i : Inputs) (s : Settings) :
    operationConstants i.merged s (combine i.documents)
      = (i.definitions.filterMap named?).map (operationConstant i.merged s) := by
  rw [operationConstants_eq, ← Inputs.map_unplaced_operations, List.map_map]
  exact List.map_congr_left fun o _ => constant_eq i.merged s o

/-! ## Acceptance -/

namespace Rearranged

variable {i j : Inputs} (h : Rearranged i j)

include h

theorem symm : Rearranged j i := ⟨h.options.symm, h.externals.symm, h.definitions.symm⟩

/-- The local fragments are the same, in some order. -/
theorem localFragments : (i.localFragments.map (·.definition.unplaced)).Perm
    (j.localFragments.map (·.definition.unplaced)) := by
  rw [Inputs.map_unplaced_localFragments, Inputs.map_unplaced_localFragments]
  exact h.definitions.filterMap _

theorem localNames : (i.localFragments.map (·.name)).Perm (j.localFragments.map (·.name)) := by
  have hnames := h.localFragments.map (·.name)
  rw [List.map_map, List.map_map] at hnames
  exact hnames

/-- The named operations are the same, in some order. -/
theorem operations : (i.operations.map fun o => (o.name, o.operation.unplaced)).Perm
    (j.operations.map fun o => (o.name, o.operation.unplaced)) := by
  rw [Inputs.map_unplaced_operations, Inputs.map_unplaced_operations]
  exact h.definitions.filterMap _

/-- What is found under a name does not depend on the arrangement. -/
theorem lookup (hdistinct : i.FragmentsDistinct) (name : String) :
    i.merged.lookup name = j.merged.lookup name := by
  have hnodup : ((i.localFragments.map (·.definition.unplaced)).map (·.name)).Nodup := by
    rw [List.map_map]
    exact hdistinct.1
  have hexternal : i.externalFragments = j.externalFragments := by
    unfold Inputs.externalFragments
    rw [h.externals]
  rw [lookup_merged, lookup_merged, find?_name_perm h.localFragments hnodup, hexternal]

/-- Rearranged inputs are accepted when the others are. Each condition speaks of names and of what is
found under them. -/
theorem accepted (accepted : i.Accepted) : j.Accepted := by
  have hdistinct : j.FragmentsDistinct := by
    obtain ⟨hlocal, hexternal⟩ := accepted.distinct
    rw [h.externals] at hexternal
    exact ⟨h.localNames.nodup_iff.mp hlocal, hexternal⟩
  -- All conditions but the first two are about what is found under a name.
  have hlookup := h.lookup accepted.distinct
  have hnodup : (j.merged.fragments.map (·.name)).Nodup := by
    refine Pool.nodup_merged hdistinct.1 ?_
    show (j.externalFragments.map (·.name)).Nodup
    rw [map_name_externalFragments]
    exact hdistinct.2
  refine ⟨?_, hdistinct, fragmentsSound_of_lookup accepted.nodup_merged hnodup hlookup accepted.sound,
    ?_, ?_⟩
  · -- The options are the same.
    have hselectors := accepted.selectors
    unfold Inputs.SelectorsDenote at hselectors ⊢
    rw [← h.options]
    exact hselectors
  · -- An operation is among the others, too, and spreads the same names there.
    intro o ho name hname
    have hmem := h.operations.symm.subset (List.mem_map_of_mem ho)
    obtain ⟨o', ho', heq⟩ := List.mem_map.mp hmem
    have hoperation : o'.operation.unplaced = o.operation.unplaced := congrArg Prod.snd heq
    have hspreads : SpreadsName o'.operation.selections name := by
      rw [← mem_spreadNames] at hname ⊢
      rw [← Operation.spreadNames_unplaced, hoperation, Operation.spreadNames_unplaced]
      exact hname
    have hknown := accepted.operations o' ho' name hspreads
    rw [Registry.exists_get?_iff_lookup, hlookup name] at hknown
    exact Registry.exists_get?_iff_lookup.mpr hknown
  · -- The generated names are the same in another order.
    obtain ⟨s, hs, hnames⟩ := accepted.names
    rw [h.options] at hs
    refine ⟨s, hs, ?_⟩
    have hfragments := h.localNames.map s.fragmentConstantName
    have hoperations := h.operations.map fun o => s.operationConstantName o.1
    rw [List.map_map, List.map_map] at hfragments hoperations
    exact (hfragments.append hoperations).nodup_iff.mp hnames

end Rearranged

/-- **Rearranged documents.** A module is generated from inputs exactly when one is generated from the
same definitions in another arrangement. Both modules then have the same name, and they consist of the
same constants of fragments and the same constants of operations, each as often, though maybe in another
order. -/
theorem constants_perm_of_rearranged {i j : Inputs} (h : Rearranged i j) :
    ((∃ m, (generate i).result = .ok m) ↔ ∃ m, (generate j).result = .ok m) ∧
      ∀ m n, (generate i).result = .ok m → (generate j).result = .ok n →
        ∃ s, m = moduleOf i.merged s (combine i.documents) ∧
          n = moduleOf j.merged s (combine j.documents) ∧
          (fragmentConstants i.merged s).Perm (fragmentConstants j.merged s) ∧
          (operationConstants i.merged s (combine i.documents)).Perm
            (operationConstants j.merged s (combine j.documents)) := by
  -- A module is generated exactly from what is accepted.
  have hiff : ∀ k, (∃ m, (generate k).result = .ok m) ↔ k.Accepted := by
    intro k
    constructor
    · intro ⟨m, hm⟩
      have hverdict := verdict_result k
      rw [hm] at hverdict
      exact (accepted_of_verdict hverdict).1
    · exact exists_ok_of_accepted (verdict_result k)
  refine ⟨?_, fun m n hm hn => ?_⟩
  · rw [hiff i, hiff j]
    exact ⟨h.accepted, h.symm.accepted⟩
  · have hi := verdict_result i
    have hj := verdict_result j
    rw [hm] at hi
    rw [hn] at hj
    obtain ⟨accepted, s, hs, rfl⟩ := accepted_of_verdict hi
    obtain ⟨accepted', s', hs', rfl⟩ := accepted_of_verdict hj
    rw [← h.options, hs, Except.ok.injEq] at hs'
    subst hs'
    -- Both registries make the same constant of a definition.
    obtain ⟨hfragment, hoperation⟩ := constants_congr (h.lookup accepted.distinct) s
    refine ⟨s, rfl, rfl, ?_, ?_⟩
    · refine (fragmentConstants_perm accepted.nodup_merged s).trans ?_
      refine List.Perm.trans ?_ (fragmentConstants_perm accepted'.nodup_merged s).symm
      rw [hfragment]
      exact (h.definitions.filterMap _).map _
    · rw [operationConstants_eq_map, operationConstants_eq_map, hoperation]
      exact (h.definitions.filterMap _).map _

/-- A fragment and a query in one file. -/
def oneFile : Inputs where
  schema := .empty
  documents := [⟨some "all.graphql", some [
    .fragment ⟨"A", "T", ⟨1, 1⟩, [], [.field none "x" [] [] []]⟩,
    .operation (.explicit .query ⟨2, 1⟩ (some "Q") [] [] [.spread ⟨2, 11⟩ "A" []])]⟩]
  options := {}
  externals := []

/-- The same query and fragment in two files, with one between them that has not been parsed. -/
def twoFiles : Inputs :=
  { oneFile with
    documents := [
      ⟨some "q.graphql", some [
        .operation (.explicit .query ⟨1, 1⟩ (some "Q") [] [] [.spread ⟨1, 11⟩ "A" []])]⟩,
      .unparsed none,
      ⟨some "a.graphql", some [.fragment ⟨"A", "T", ⟨3, 1⟩, [], [.field none "x" [] [] []]⟩]⟩] }

set_option maxRecDepth 10000 in
/-- The same two definitions, in one file and in two. -/
theorem constants_perm_twoFiles :
    Rearranged oneFile twoFiles ∧
      ∃ m n s, (generate oneFile).result = .ok m ∧ (generate twoFiles).result = .ok n ∧
        (fragmentConstants oneFile.merged s).Perm (fragmentConstants twoFiles.merged s) := by
  have h : Rearranged oneFile twoFiles := ⟨rfl, rfl, .swap _ _ []⟩
  have hs : Settings.resolve oneFile.options
      = .ok ⟨Config.defaultModuleName, ⟨.single .snake, false⟩, ⟨"", "", "", ""⟩⟩ := rfl
  have hregistry : oneFile.pool.toRegistry = .ok oneFile.merged := by cbv
  have hnames : checkNames oneFile.merged
      ⟨Config.defaultModuleName, ⟨.single .snake, false⟩, ⟨"", "", "", ""⟩⟩
      (combine oneFile.documents) = .ok () := rfl
  have hm := result_generate_of_stages hs rfl hregistry rfl hnames
  obtain ⟨hiff, hconstants⟩ := constants_perm_of_rearranged h
  obtain ⟨n, hn⟩ := hiff.mp ⟨_, hm⟩
  obtain ⟨s, -, -, hperm, -⟩ := hconstants _ n hm hn
  exact ⟨h, _, n, s, hm, hn, hperm⟩

end QueryModule.Generate
