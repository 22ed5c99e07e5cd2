import Mathlib
import QueryModule.Proofs.Generate.Dependence

/-!
# More documents

When further documents are put behind those of a run, its constants stay where they are: the constants
of the new fragments come behind those of the old fragments, and the same holds of the operations. No
constant changes its name or its text.

The fragments of the old documents spread only what has been registered already, and so the search of
the larger registry, which enters the old local fragments first, finds nothing new among what they
lead to. The one thing that could come between is a new fragment with the name of an external one. It
would shadow the external one, which the old definitions may spread.

> `constants_of_extend`: the constants of the longer run are those of the shorter one, with the new
> constants of either kind behind the old ones of that kind.
-/

namespace QueryModule.Generate

open QueryModule.Config (Settings)
open QueryModule.Elixir (Module)
open QueryModule.Fragment
open QueryModule.Graphql

namespace Inputs

/-- The inputs with further documents behind the others. -/
def extend (i : Inputs) (more : List SourceDocument) : Inputs :=
  { i with documents := i.documents ++ more }

/-- No fragment of the documents has the name of an external one. -/
def LeavesExternals (i : Inputs) (more : List SourceDocument) : Prop :=
  ∀ f ∈ fragmentsOf false (combine more), ∀ e ∈ i.externals, e.name ≠ f.name

variable {i : Inputs} {more : List SourceDocument}

theorem combine_extend (i : Inputs) (more : List SourceDocument) :
    combine (i.extend more).documents = combine i.documents ++ combine more := List.flatMap_append

/-- The fragments of the further documents come behind the others. -/
theorem localFragments_extend (i : Inputs) (more : List SourceDocument) :
    (i.extend more).localFragments = i.localFragments ++ fragmentsOf false (combine more) := by
  unfold localFragments fragmentsOf
  rw [combine_extend, List.filterMap_append]

/-! ## What the old documents lead to -/

/-- What is registered under a name stays registered under it. -/
theorem get?_extend (accepted : (i.extend more).Accepted) (hleaves : i.LeavesExternals more)
    {name : String} {f : SourcedFragment} (h : i.merged.get? name = some f) :
    (i.extend more).merged.get? name = some f := by
  have hmem : f ∈ (i.extend more).merged.fragments := by
    refine Pool.mem_merged.mpr ?_
    show f ∈ (i.extend more).localFragments ∨
      f ∈ i.externalFragments ∧ ∀ g ∈ (i.extend more).localFragments, g.name ≠ f.name
    rw [localFragments_extend]
    rcases Pool.mem_merged.mp (Registry.mem_of_get? h) with hlocal | ⟨hexternal, hfree⟩
    · exact Or.inl (List.mem_append_left _ hlocal)
    · refine Or.inr ⟨hexternal, fun g hg => ?_⟩
      rcases List.mem_append.mp hg with hold | hnew
      · exact hfree g hold
      · -- A new fragment shadows no external one.
        obtain ⟨e, he, rfl⟩ := List.mem_map.mp hexternal
        exact (hleaves g hnew e he).symm
  rw [← Registry.name_of_get? h]
  exact Registry.get?_of_nodup accepted.nodup_merged hmem

/-- What is found under a name is found there with the further documents, too. -/
theorem lookup_extend (accepted : (i.extend more).Accepted) (hleaves : i.LeavesExternals more)
    {name : String} (h : ∃ f, i.merged.get? name = some f) :
    i.merged.lookup name = (i.extend more).merged.lookup name := by
  obtain ⟨f, hf⟩ := h
  unfold Registry.lookup
  rw [hf, get?_extend accepted hleaves hf]

/-- A definition of the old documents has the same text. -/
theorem standaloneText_extend (old : i.Accepted) (accepted : (i.extend more).Accepted)
    (hleaves : i.LeavesExternals more) {d : Definition} (hd : i.merged.Resolves d.selections) :
    standaloneText (i.extend more).merged d = standaloneText i.merged d := by
  refine (standaloneText_congr rfl fun name hneeds => ?_).symm
  exact lookup_extend accepted hleaves (old.sound.1.get?_of_needs hd hneeds)

/-! ## The order of fragments -/

/-- Local fragments are registered. -/
theorem get?_of_mem_localFragments (i : Inputs) :
    ∀ name ∈ i.localFragments.map (·.name), ∃ f, i.merged.get? name = some f := by
  intro name hname
  obtain ⟨f, hf, rfl⟩ := List.mem_map.mp hname
  exact Registry.get?_isSome (Pool.mem_merged.mpr (.inl hf))

/-- The search that orders the registry enters the local fragments first. All of them have been left
when it goes on to the external ones, and so these add no local fragment to the order. -/
theorem orderedFragments_eq (i : Inputs) :
    i.orderedFragments
      = ((i.merged.graph.finishOrder (i.localFragments.map (·.name))).filterMap i.merged.get?).filter
          (!·.external) := by
  have hnames : i.merged.graph.names = i.localFragments.map (·.name)
      ++ (i.externalFragments.filter (!i.pool.isShadowed ·)).map (·.name) := by
    show (i.merged.fragments.map _).map _ = _
    rw [List.map_map, ← List.map_append]
    rfl
  obtain ⟨more, hmore⟩ := i.merged.graph.finishOrder_append (i.localFragments.map (·.name))
    ((i.externalFragments.filter (!i.pool.isShadowed ·)).map (·.name))
  have hnodup := SpreadGraph.nodup_finishOrder i.merged.graph i.merged.graph.names
  rw [hnames, hmore] at hnodup
  unfold orderedFragments Registry.spreadOrder
  rw [hnames, hmore, List.filterMap_append, List.filter_append]
  refine List.append_right_eq_self.mpr (List.filter_eq_nil_iff.mpr fun f hf hlocal => ?_)
  -- A local fragment among the rest would have been left twice.
  obtain ⟨hrest, hget⟩ := Registry.mem_filterMap_get?.mp hf
  have hmem : f ∈ i.localFragments := by
    rw [← locals_merged]
    exact List.mem_filter.mpr ⟨Registry.mem_of_get? hget, hlocal⟩
  have hfirst : f.name ∈ i.merged.graph.finishOrder (i.localFragments.map (·.name)) :=
    SpreadGraph.mem_finishOrder.mpr
      ⟨Registry.knows_graph.mpr ⟨f, hget⟩, f.name, List.mem_map_of_mem hmem, .refl⟩
  exact (List.nodup_append.mp hnodup).2.2 f.name hfirst f.name hrest rfl

/-- A search that enters the old local fragments finds what it has found before. -/
theorem filterMap_finishOrder_extend (old : i.Accepted) (accepted : (i.extend more).Accepted)
    (hleaves : i.LeavesExternals more) :
    ((i.extend more).merged.graph.finishOrder (i.localFragments.map (·.name))).filterMap
        (i.extend more).merged.get?
      = (i.merged.graph.finishOrder (i.localFragments.map (·.name))).filterMap i.merged.get? := by
  refine (Registry.filterMap_finishOrder_congr fun n hn => ?_).symm
  obtain ⟨f, hf⟩ := old.sound.1.get?_of_reached i.get?_of_mem_localFragments hn
  rw [hf, get?_extend accepted hleaves hf]

/-- The new fragments come behind the old ones, which stay in their order. -/
theorem orderedFragments_extend (old : i.Accepted) (accepted : (i.extend more).Accepted)
    (hleaves : i.LeavesExternals more) :
    ∃ added, (i.extend more).orderedFragments = i.orderedFragments ++ added ∧
      added.Perm (fragmentsOf false (combine more)) := by
  obtain ⟨rest, hrest⟩ := (i.extend more).merged.graph.finishOrder_append
    (i.localFragments.map (·.name)) ((fragmentsOf false (combine more)).map (·.name))
  have heq : (i.extend more).orderedFragments = i.orderedFragments
      ++ (rest.filterMap (i.extend more).merged.get?).filter (!·.external) := by
    rw [orderedFragments_eq (i.extend more), orderedFragments_eq i, localFragments_extend, List.map_append,
      hrest, List.filterMap_append, List.filter_append,
      filterMap_finishOrder_extend old accepted hleaves]
  refine ⟨_, heq, ?_⟩
  -- Both lists hold all local fragments, and the old ones are the same in both.
  have hall := orderedFragments_perm accepted.nodup_merged
  have hold := orderedFragments_perm old.nodup_merged
  rw [heq, localFragments_extend] at hall
  exact (List.perm_append_left_iff _).mp (hall.trans (hold.symm.append_right _))

/-! ## The constants -/

/-- The fragment constants stay as they are. -/
theorem fragmentConstants_extend (old : i.Accepted) (accepted : (i.extend more).Accepted)
    (hleaves : i.LeavesExternals more) (s : Settings) :
    i.orderedFragments.map (Constant.ofFragment (i.extend more).merged s)
      = fragmentConstants i.merged s := by
  refine List.map_congr_left fun f hf => ?_
  have hmem : f ∈ i.merged.fragments :=
    Pool.mem_merged.mpr (.inl ((orderedFragments_perm old.nodup_merged).mem_iff.mp hf))
  have hd : i.merged.Resolves (Definition.fragment f.definition).selections := old.sound.1 f hmem
  unfold Constant.ofFragment
  rw [standaloneText_extend old accepted hleaves hd]

/-- So do the operation constants. -/
theorem operationConstants_extend (old : i.Accepted) (accepted : (i.extend more).Accepted)
    (hleaves : i.LeavesExternals more) (s : Settings) :
    operationConstants (i.extend more).merged s (combine i.documents)
      = operationConstants i.merged s (combine i.documents) := by
  rw [operationConstants_eq, operationConstants_eq]
  refine List.map_congr_left fun o ho => ?_
  have hd : i.merged.Resolves (Definition.operation o.operation).selections := old.operations o ho
  unfold NamedOperation.constant
  rw [standaloneText_extend old accepted hleaves hd]

end Inputs

open Inputs

/-- **More documents.** When a module is generated from some documents and from the same ones with
further ones behind them, and no fragment of the further ones has the name of an external fragment,
then the constants of the second module are, in this order: the fragment constants of the first one,
one constant for each of the new fragments, the operation constants of the first one, and one constant
for each of the new named operations. -/
theorem constants_of_extend {i : Inputs} {more : List SourceDocument} {m n : Module}
    (hm : (generate i).result = .ok m) (hn : (generate (i.extend more)).result = .ok n)
    (hleaves : i.LeavesExternals more) :
    ∃ (s : Settings) (added : List SourcedFragment), m = moduleOf i.merged s (combine i.documents) ∧
      n = moduleOf (i.extend more).merged s (combine (i.extend more).documents) ∧
      added.Perm (fragmentsOf false (combine more)) ∧
      (i.extend more).constants s
        = (fragmentConstants i.merged s ++ added.map (Constant.ofFragment (i.extend more).merged s))
          ++ (operationConstants i.merged s (combine i.documents)
            ++ operationConstants (i.extend more).merged s (combine more)) := by
  have hi := verdict_result i
  have hj := verdict_result (i.extend more)
  rw [hm] at hi
  rw [hn] at hj
  obtain ⟨old, s, hs, rfl⟩ := accepted_of_verdict hi
  obtain ⟨accepted, s', hs', rfl⟩ := accepted_of_verdict hj
  -- The settings are the same, as the options are.
  obtain rfl : s = s' := Except.ok.inj (hs.symm.trans hs')
  obtain ⟨added, hordered, hadded⟩ := orderedFragments_extend old accepted hleaves
  refine ⟨s, added, rfl, rfl, hadded, ?_⟩
  -- Both kinds of constants are cut into those of the old definitions and those of the new ones.
  show (i.extend more).orderedFragments.map _ ++ operationConstants _ s _ = _
  rw [hordered, List.map_append, fragmentConstants_extend old accepted hleaves s, combine_extend]
  unfold operationConstants
  rw [List.filterMap_append]
  show _ ++ (operationConstants _ s (combine i.documents) ++ _) = _
  rw [operationConstants_extend old accepted hleaves s]
  rfl

/-- A query that spreads a fragment of its own file and one from outside. -/
def firstInputs : Inputs where
  schema := .empty
  documents := [⟨some "q.graphql", some [
    .operation (.explicit .query ⟨1, 1⟩ (some "Q") [] []
      [.spread ⟨1, 11⟩ "A" [], .spread ⟨1, 16⟩ "E" []]),
    .fragment ⟨"A", "T", ⟨2, 1⟩, [], [.field none "x" [] [] []]⟩]⟩]
  options := {}
  externals := [⟨⟨"E", "T", ⟨1, 1⟩, [], [.field none "y" [] [] []]⟩, none, true⟩]

/-- A further file. Its fragment spreads one from the first file. -/
def furtherDocuments : List SourceDocument :=
  [⟨some "m.graphql", some [
    .fragment ⟨"B", "T", ⟨1, 1⟩, [], [.spread ⟨1, 20⟩ "A" []]⟩,
    .operation (.explicit .mutation ⟨2, 1⟩ (some "M") [] [] [.spread ⟨2, 14⟩ "B" []])]⟩]

set_option maxRecDepth 10000 in
/-- The further document has a fragment that spreads a known one, and a mutation. -/
theorem constants_of_furtherDocuments :
    firstInputs.LeavesExternals furtherDocuments ∧
      ∃ (m n : Module) (s : Settings) (added : List SourcedFragment),
        (generate firstInputs).result = .ok m ∧
        (generate (firstInputs.extend furtherDocuments)).result = .ok n ∧
        (firstInputs.extend furtherDocuments).constants s
          = (fragmentConstants firstInputs.merged s
              ++ added.map (Constant.ofFragment (firstInputs.extend furtherDocuments).merged s))
            ++ (operationConstants firstInputs.merged s (combine firstInputs.documents)
              ++ operationConstants (firstInputs.extend furtherDocuments).merged s
                (combine furtherDocuments)) := by
  have hleaves : firstInputs.LeavesExternals furtherDocuments := by
    unfold Inputs.LeavesExternals
    decide
  have hs : Settings.resolve firstInputs.options
      = .ok ⟨Config.defaultModuleName, ⟨.single .snake, false⟩, ⟨"", "", "", ""⟩⟩ := rfl
  have hregistry : firstInputs.pool.toRegistry = .ok firstInputs.merged := by cbv
  have hlonger : (firstInputs.extend furtherDocuments).pool.toRegistry
      = .ok (firstInputs.extend furtherDocuments).merged := by cbv
  have hm := result_generate_of_stages hs rfl hregistry rfl rfl
  have hn := result_generate_of_stages (i := firstInputs.extend furtherDocuments) hs rfl hlonger rfl rfl
  obtain ⟨s, added, -, -, -, hconstants⟩ := constants_of_extend hm hn hleaves
  exact ⟨hleaves, _, _, s, added, hm, hn, hconstants⟩

end QueryModule.Generate
