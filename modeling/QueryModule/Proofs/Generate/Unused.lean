import QueryModule.Proofs.Generate.Extension

/-!
# External fragments that nobody needs

An external fragment matters when no local fragment shadows it and a local fragment or a named
operation leads to it. All others can be left out, those that are kept can be given in any order, and
what the list says about their origin is not looked at: the module stays what it is.

What the local fragments and the named operations lead to is closed under spreading. The smaller
registry has exactly that part of the larger one, under the same names, so that it is as sound as the
larger one and a search from a local fragment or an operation does not notice the difference. It does
not do to leave out only some of the unused fragments: one that is kept may spread one that is not.

> `generate_of_prunedTo`: without the unused external fragments the module is the same one, and neither
> with them nor without them does an external fragment have a constant of its own.
-/

namespace QueryModule.Generate

open QueryModule.Config (Settings)
open QueryModule.Elixir (Module)
open QueryModule.Fragment
open QueryModule.Graphql
open Relation (ReflTransGen TransGen)

namespace Inputs

/-- The inputs with other external fragments. -/
def withExternals (i : Inputs) (externals : List SourcedFragment) : Inputs :=
  { i with externals := externals }

/-- The names that constants start from: those of the local fragments, and what the named operations
spread. -/
def roots (i : Inputs) : List String :=
  i.localFragments.map (·.name) ++ i.operations.flatMap fun o => spreadNames o.operation.selections

/-- A local fragment or a named operation leads to the name, through local fragments and external ones
that are not shadowed. -/
def Reaches (i : Inputs) (name : String) : Prop :=
  ∃ root ∈ i.roots, ReflTransGen i.merged.Spreads root name

/-- The external fragment matters. -/
def Uses (i : Inputs) (f : SourcedFragment) : Prop :=
  (∀ g ∈ i.localFragments, g.name ≠ f.name) ∧ i.Reaches f.name

open Classical in
/-- The fragments are the external ones that matter, in any order and with any mark of origin. -/
def PrunedTo (i : Inputs) (externals : List SourcedFragment) : Prop :=
  (externals.map fun f => { f with external := true }).Perm (i.externalFragments.filter (i.Uses ·))

/-- There is one constant for each local fragment and each named operation, and no other. -/
def EmitsOwn (i : Inputs) (s : Settings) : Prop :=
  (i.constants s).Perm (i.localFragments.map (Constant.ofFragment i.merged s)
    ++ i.operations.map (NamedOperation.constant i.merged s))

variable {i : Inputs} {externals : List SourcedFragment}

/-! ## What matters -/

theorem reaches_of_local {f : SourcedFragment} (hf : f ∈ i.localFragments) : i.Reaches f.name :=
  ⟨f.name, List.mem_append_left _ (List.mem_map_of_mem hf), .refl⟩

/-- What a named operation needs is reached. -/
theorem reaches_of_needs_operation {o : NamedOperation} (ho : o ∈ i.operations) {name : String}
    (h : i.merged.Needs o.operation.selections name) : i.Reaches name := by
  obtain ⟨root, hroot, hpath⟩ := h
  refine ⟨root, List.mem_append_right _ (List.mem_flatMap.mpr ⟨o, ho, ?_⟩), hpath⟩
  exact mem_spreadNames.mpr hroot

/-- What is reached leads on to what it spreads. -/
theorem Reaches.tail {u v : String} (h : i.Reaches u) (hedge : i.merged.Spreads u v) :
    i.Reaches v := by
  obtain ⟨root, hroot, hpath⟩ := h
  exact ⟨root, hroot, hpath.tail hedge⟩

/-- It leads on to all that lies behind. -/
theorem Reaches.trans {u v : String} (h : i.Reaches u) (hpath : ReflTransGen i.merged.Spreads u v) :
    i.Reaches v := by
  obtain ⟨root, hroot, hfirst⟩ := h
  exact ⟨root, hroot, hfirst.trans hpath⟩

/-- In the words of the search, the roots lead to it. -/
theorem reaches_iff_reached {name : String} : i.Reaches name ↔ i.merged.graph.Reached i.roots name := by
  unfold Reaches SpreadGraph.Reached
  rw [Registry.edge_graph_eq]

/-- Which external fragments matter is found out by one search. -/
theorem uses_iff_mem_finishOrder {f : SourcedFragment} (hf : f ∈ i.externalFragments) :
    i.Uses f ↔ (∀ g ∈ i.localFragments, g.name ≠ f.name) ∧
      f.name ∈ i.merged.graph.finishOrder i.roots := by
  refine and_congr_right fun hfree => ?_
  have hknows : i.merged.graph.Knows f.name :=
    Registry.knows_graph.mpr (Registry.get?_isSome (Pool.mem_merged.mpr (.inr ⟨hf, hfree⟩)))
  rw [SpreadGraph.mem_finishOrder, reaches_iff_reached, and_iff_right hknows]

/-- Everything that constants lead to is registered. -/
theorem Accepted.get?_of_reaches (h : i.Accepted) {name : String} (hname : i.Reaches name) :
    ∃ f, i.merged.get? name = some f := by
  refine h.sound.1.get?_of_reached (fun root hroot => ?_) (reaches_iff_reached.mp hname)
  rcases List.mem_append.mp hroot with hlocal | hoperation
  · exact i.get?_of_mem_localFragments root hlocal
  · obtain ⟨o, ho, hspread⟩ := List.mem_flatMap.mp hoperation
    exact h.operations o ho root (mem_spreadNames.mp hspread)

/-! ## The registry without the rest -/

namespace PrunedTo

variable (hpruned : i.PrunedTo externals)

include hpruned

/-- Of the external fragments those remain that matter. -/
theorem mem_externalFragments {f : SourcedFragment} :
    f ∈ (i.withExternals externals).externalFragments ↔ f ∈ i.externalFragments ∧ i.Uses f := by
  classical
  refine hpruned.mem_iff.trans ?_
  rw [List.mem_filter, decide_eq_true_iff]

/-- Fragments that are told apart are so without the rest. -/
theorem distinct (h : i.Accepted) : (i.withExternals externals).FragmentsDistinct := by
  refine ⟨h.distinct.1, ?_⟩
  have hexternal := h.distinct.2
  rw [← map_name_externalFragments] at hexternal ⊢
  exact (hpruned.map _).nodup_iff.mpr (hexternal.sublist (List.filter_sublist.map _))

/-- The merged fragments that are left have names of their own. -/
theorem nodup_merged (h : i.Accepted) :
    ((i.withExternals externals).merged.fragments.map (·.name)).Nodup := by
  have hexternal := (hpruned.distinct h).2
  rw [← map_name_externalFragments] at hexternal
  exact Pool.nodup_merged h.distinct.1 hexternal

/-- What is registered without the rest is registered with it, and matters. -/
theorem of_get? (h : i.Accepted) {name : String} {f : SourcedFragment}
    (hf : (i.withExternals externals).merged.get? name = some f) :
    i.merged.get? name = some f ∧ i.Reaches name := by
  have hname := Registry.name_of_get? hf
  subst hname
  have hboth : f ∈ i.merged.fragments ∧ i.Reaches f.name := by
    rcases Pool.mem_merged.mp (Registry.mem_of_get? hf) with hlocal | ⟨hexternal, hfree⟩
    · exact ⟨Pool.mem_merged.mpr (.inl hlocal), reaches_of_local hlocal⟩
    · obtain ⟨hin, -, hreaches⟩ := hpruned.mem_externalFragments.mp hexternal
      exact ⟨Pool.mem_merged.mpr (.inr ⟨hin, hfree⟩), hreaches⟩
  exact ⟨Registry.get?_of_nodup h.nodup_merged hboth.1, hboth.2⟩

/-- Under a name that constants lead to, both registries have the same fragment. -/
theorem get?_eq (h : i.Accepted) {name : String} (hname : i.Reaches name) :
    i.merged.get? name = (i.withExternals externals).merged.get? name := by
  obtain ⟨f, hf⟩ := h.get?_of_reaches hname
  have hfname := Registry.name_of_get? hf
  subst hfname
  have hmem : f ∈ (i.withExternals externals).merged.fragments := by
    refine Pool.mem_merged.mpr ?_
    rcases Pool.mem_merged.mp (Registry.mem_of_get? hf) with hlocal | ⟨hexternal, hfree⟩
    · exact .inl hlocal
    · exact .inr ⟨hpruned.mem_externalFragments.mpr ⟨hexternal, hfree, hname⟩, hfree⟩
  rw [hf, Registry.get?_of_nodup (hpruned.nodup_merged h) hmem]

/-- Without the rest, only what is reached spreads anything, and it spreads what it did. -/
theorem spreads_iff (h : i.Accepted) {u v : String} :
    (i.withExternals externals).merged.Spreads u v ↔ i.merged.Spreads u v ∧ i.Reaches u := by
  constructor
  · intro ⟨f, hf, hv⟩
    obtain ⟨hget, hreaches⟩ := hpruned.of_get? h hf
    exact ⟨⟨f, hget, hv⟩, hreaches⟩
  · intro ⟨⟨f, hf, hv⟩, hreaches⟩
    exact ⟨f, (hpruned.get?_eq h hreaches).symm.trans hf, hv⟩

/-- What is sound is so without the rest. -/
theorem sound (h : i.Accepted) : (i.withExternals externals).FragmentsSound := by
  constructor
  · refine (Registry.closed_iff (hpruned.nodup_merged h)).mpr fun u v huv => ?_
    obtain ⟨hspreads, hreaches⟩ := (hpruned.spreads_iff h).mp huv
    have hv := hreaches.tail hspreads
    rw [← hpruned.get?_eq h hv]
    exact h.get?_of_reaches hv
  · intro name hpath
    exact h.sound.2 name (TransGen.mono (fun _ _ huv => ((hpruned.spreads_iff h).mp huv).1) _ _ hpath)

/-- Without the rest the inputs are accepted. -/
theorem accepted (h : i.Accepted) : (i.withExternals externals).Accepted where
  selectors := h.selectors
  distinct := hpruned.distinct h
  sound := hpruned.sound h
  operations := fun o ho name hname => by
    have hreaches : i.Reaches name := reaches_of_needs_operation (i := i) ho ⟨name, hname, .refl⟩
    rw [← hpruned.get?_eq h hreaches]
    exact h.get?_of_reaches hreaches
  names := h.names

/-! ## The constants without the rest -/

/-- The local fragments are put in the same order. -/
theorem orderedFragments_eq (h : i.Accepted) :
    (i.withExternals externals).orderedFragments = i.orderedFragments := by
  rw [Inputs.orderedFragments_eq i, Inputs.orderedFragments_eq (i.withExternals externals)]
  congr 1
  refine (Registry.filterMap_finishOrder_congr fun n hn => hpruned.get?_eq h ?_).symm
  obtain ⟨root, hroot, hpath⟩ := hn
  exact reaches_iff_reached.mpr ⟨root, List.mem_append_left _ hroot, hpath⟩

/-- A definition has the same text when it leads to nothing but what matters. -/
theorem standaloneText_eq (h : i.Accepted) {d : Definition}
    (hd : ∀ name, i.merged.Needs d.selections name → i.Reaches name) :
    standaloneText (i.withExternals externals).merged d = standaloneText i.merged d := by
  refine (standaloneText_congr rfl fun name hneeds => ?_).symm
  unfold Registry.lookup
  rw [hpruned.get?_eq h (hd name hneeds)]

/-- The fragment constants are the same. -/
theorem fragmentConstants_eq (h : i.Accepted) (s : Settings) :
    fragmentConstants (i.withExternals externals).merged s = fragmentConstants i.merged s := by
  show (i.withExternals externals).orderedFragments.map _ = i.orderedFragments.map _
  rw [hpruned.orderedFragments_eq h]
  refine List.map_congr_left fun f hf => ?_
  have hlocal : f ∈ i.localFragments := (orderedFragments_perm h.nodup_merged).mem_iff.mp hf
  have hget : i.merged.get? f.name = some f :=
    Registry.get?_of_nodup h.nodup_merged (Pool.mem_merged.mpr (.inl hlocal))
  unfold Constant.ofFragment
  rw [hpruned.standaloneText_eq h fun name hneeds => ?_]
  -- What the fragment spreads is one step from it.
  obtain ⟨root, hroot, hpath⟩ := hneeds
  exact ((reaches_of_local hlocal).tail ⟨f, hget, hroot⟩).trans hpath

/-- So are the operation constants. -/
theorem operationConstants_eq (h : i.Accepted) (s : Settings) :
    operationConstants (i.withExternals externals).merged s (combine i.documents)
      = operationConstants i.merged s (combine i.documents) := by
  rw [Generate.operationConstants_eq, Generate.operationConstants_eq]
  refine List.map_congr_left fun o ho => ?_
  have htext := hpruned.standaloneText_eq (d := .operation o.operation) h fun name hneeds =>
    reaches_of_needs_operation ho hneeds
  unfold NamedOperation.constant
  rw [htext]

/-- So the modules are the same. -/
theorem moduleOf_eq (h : i.Accepted) (s : Settings) :
    moduleOf (i.withExternals externals).merged s (combine i.documents)
      = moduleOf i.merged s (combine i.documents) := by
  unfold moduleOf fragmentBlock
  rw [hpruned.fragmentConstants_eq h, hpruned.operationConstants_eq h]

end PrunedTo

/-- The constants are those of what the inputs define themselves. -/
theorem Accepted.emitsOwn (h : i.Accepted) (s : Settings) : i.EmitsOwn s := by
  unfold EmitsOwn
  rw [constants_eq]
  exact ((orderedFragments_perm h.nodup_merged).map _).append_right _

end Inputs

open Inputs

/-- **External fragments that nobody needs.** When a module is generated, then exactly the same module
is generated from the same documents and options with those external fragments only that no local one
shadows and that a local fragment or a named operation leads to, in any order and however they are
marked. With all external fragments and with these only, the constants of the module are those of the
local fragments and of the named operations. -/
theorem generate_of_prunedTo {i : Inputs} {externals : List SourcedFragment} {m : Module}
    (hm : (generate i).result = .ok m) (hpruned : i.PrunedTo externals) :
    (generate (i.withExternals externals)).result = .ok m ∧
      ∃ s, Settings.resolve i.options = .ok s ∧
        (m = moduleOf i.merged s (combine i.documents) ∧ i.EmitsOwn s) ∧
        m = moduleOf (i.withExternals externals).merged s (combine i.documents) ∧
          (i.withExternals externals).EmitsOwn s := by
  have hi := verdict_result i
  rw [hm] at hi
  obtain ⟨accepted, s, hs, rfl⟩ := accepted_of_verdict hi
  have hj := verdict_result (i.withExternals externals)
  obtain ⟨n, hn⟩ := exists_ok_of_accepted hj (hpruned.accepted accepted)
  rw [hn] at hj
  obtain ⟨-, s', hs', rfl⟩ := accepted_of_verdict hj
  obtain rfl : s = s' := Except.ok.inj (hs.symm.trans hs')
  have hmodule := hpruned.moduleOf_eq accepted s
  refine ⟨hn.trans (congrArg Except.ok hmodule), s, hs, ⟨rfl, accepted.emitsOwn s⟩, hmodule.symm, ?_⟩
  exact (hpruned.accepted accepted).emitsOwn s

/-- A query that spreads a fragment from outside. Of the external fragments `A` is shadowed, `F` is
spread by `E`, and nobody spreads `U`. -/
def surplusInputs : Inputs where
  schema := .empty
  documents := [⟨some "q.graphql", some [
    .operation (.explicit .query ⟨1, 1⟩ (some "Q") [] [] [.spread ⟨1, 11⟩ "E" []]),
    .fragment ⟨"A", "T", ⟨2, 1⟩, [], [.field none "x" [] [] []]⟩]⟩]
  options := {}
  externals := [
    ⟨⟨"A", "T", ⟨1, 1⟩, [], [.spread ⟨1, 17⟩ "U" []]⟩, none, true⟩,
    ⟨⟨"U", "T", ⟨2, 1⟩, [], [.spread ⟨2, 17⟩ "E" []]⟩, none, true⟩,
    ⟨⟨"E", "T", ⟨3, 1⟩, [], [.spread ⟨3, 17⟩ "F" []]⟩, none, true⟩,
    ⟨⟨"F", "T", ⟨4, 1⟩, [], [.field none "y" [] [] []]⟩, none, true⟩]

/-- The ones that matter, the other way round and marked as local. -/
def neededExternals : List SourcedFragment :=
  [⟨⟨"F", "T", ⟨4, 1⟩, [], [.field none "y" [] [] []]⟩, none, false⟩,
    ⟨⟨"E", "T", ⟨3, 1⟩, [], [.spread ⟨3, 17⟩ "F" []]⟩, none, false⟩]

/-- The two fragments that matter are left. -/
theorem prunedTo_neededExternals : surplusInputs.PrunedTo neededExternals := by
  classical
  have horder : surplusInputs.merged.graph.finishOrder surplusInputs.roots = ["A", "F", "E"] := by cbv
  have huses : surplusInputs.externalFragments.filter (surplusInputs.Uses ·)
      = surplusInputs.externalFragments.filter fun f =>
          (∀ g ∈ surplusInputs.localFragments, g.name ≠ f.name) ∧ f.name ∈ ["A", "F", "E"] := by
    refine List.filter_congr fun f hf => ?_
    rw [decide_eq_decide, uses_iff_mem_finishOrder hf, horder]
  unfold Inputs.PrunedTo
  rw [huses]
  exact List.Perm.swap _ _ []

set_option maxRecDepth 10000 in
theorem generate_neededExternals : surplusInputs.PrunedTo neededExternals ∧
    ∃ m, (generate surplusInputs).result = .ok m ∧
      (generate (surplusInputs.withExternals neededExternals)).result = .ok m := by
  have hs : Settings.resolve surplusInputs.options
      = .ok ⟨Config.defaultModuleName, ⟨.single .snake, false⟩, ⟨"", "", "", ""⟩⟩ := rfl
  have hregistry : surplusInputs.pool.toRegistry = .ok surplusInputs.merged := by cbv
  have hm := result_generate_of_stages hs rfl hregistry rfl rfl
  exact ⟨prunedTo_neededExternals, _, hm, (generate_of_prunedTo hm prunedTo_neededExternals).1⟩

end QueryModule.Generate
