import Mathlib
import QueryModule.Proofs.Generate.Acceptance

/-!
# Every constant is a document of its own

The text of a constant is printed from a list of definitions: the definition that the constant is of,
and the fragments that it needs. On inputs that are accepted, each of these lists can be sent to a
server as it is (`Inputs.SelfContained`): it defines every fragment that is spread anywhere in it, once,
and nothing that the first definition does not lead to.

The argument is one about the registry alone (`SpreadsSoundly`): where nothing is spread in a
circle and every spread resolves, what is needed is closed under spreading, and a fragment is never
among the fragments it needs itself, so that leaving out its own name leaves out nothing.

> `selfContained_of_generate`: when a module is generated, the text of each of its constants is that of
> a self-contained list.
-/

namespace QueryModule.Generate

open QueryModule.Config (Settings defaultModuleName)
open QueryModule.Elixir (Module)
open QueryModule.Fragment
open QueryModule.Graphql
open Relation (ReflTransGen TransGen)

/-- The names of the fragments among some definitions, in order. -/
def fragmentNames (definitions : List Definition) : List String :=
  (definitions.filterMap Definition.fragment?).map (·.name)

/-- Among some definitions, the first one spreads the second one directly. -/
def SpreadsAmong (definitions : List Definition) (d e : Definition) : Prop :=
  e ∈ definitions ∧ ∃ f, e = .fragment f ∧ SpreadsName d.selections f.name

/-- The fragment that a name stands for: the local one if there is one, and otherwise the external
one. -/
def Inputs.Supplies (i : Inputs) (f : SourcedFragment) : Prop :=
  f ∈ i.localFragments ∨ f ∈ i.externalFragments ∧ ∀ g ∈ i.localFragments, g.name ≠ f.name

/-- The definitions make up a document for the definition `d` that needs nothing else and holds nothing
else. -/
structure Inputs.SelfContained (i : Inputs) (d : Definition) (definitions : List Definition) :
    Prop where
  /-- The definition comes first. -/
  head : definitions.head? = some d
  /-- Each spread at any depth, in any of the definitions, names exactly one fragment among them. -/
  resolved : ∀ e ∈ definitions, ∀ name, SpreadsName e.selections name →
    (fragmentNames definitions).count name = 1
  /-- No fragment is repeated. -/
  distinct : (fragmentNames definitions).Nodup
  /-- Behind the head are fragments only, and each one is the one that its name stands for. -/
  supplied : ∀ e ∈ definitions.tail, ∃ f, e = .fragment f.definition ∧ i.Supplies f ∧
    ∀ g, i.Supplies g → g.name = f.name → g = f
  /-- The head leads to each of them. -/
  reached : ∀ e ∈ definitions.tail, ReflTransGen (SpreadsAmong definitions) d e
  /-- What one of them spreads stands between the head and it. -/
  ordered : ∀ front e back, definitions.tail = front ++ e :: back →
    ∀ name, SpreadsName e.selections name → name ∈ fragmentNames front

/-! ## What a definition needs -/

/-- What the fragments and the definition `d` spread is registered, and nothing is spread in a circle;
if `d` is a fragment, it is registered itself. -/
structure SpreadsSoundly (r : Registry) (d : Definition) : Prop where
  acyclic : Acyclic r.Spreads
  closed : r.Closed
  resolves : r.Resolves d.selections
  registered : ∀ f, d.fragment? = some f → ∃ g, r.get? f.name = some g ∧ g.definition = f

/-- A fragment as a definition. -/
def asDefinition (f : SourcedFragment) : Definition := .fragment f.definition

theorem fragmentNames_map_asDefinition (fragments : List SourcedFragment) :
    fragmentNames (fragments.map asDefinition) = fragments.map (·.name) := by
  unfold fragmentNames
  rw [List.filterMap_map]
  show (fragments.filterMap fun f => some f.definition).map _ = _
  rw [List.filterMap_eq_map', List.map_map]
  rfl

/-- A registered fragment is found among those that are needed. -/
theorem mem_map_neededBy {r : Registry} {selections : List Selection} {name : String}
    {f : SourcedFragment} (hf : r.get? name = some f) (hneeds : r.Needs selections name) :
    asDefinition f ∈ (r.neededBy selections).map asDefinition := by
  have hname := Registry.name_of_get? hf
  subst hname
  exact List.mem_map_of_mem (Registry.mem_neededBy.mpr ⟨hf, hneeds⟩)

namespace SpreadsSoundly

variable {r : Registry} {d : Definition} (h : SpreadsSoundly r d)

include h

/-- A fragment never needs itself. -/
theorem not_needs_own {f : FragmentDefinition} (hf : d.fragment? = some f) :
    ¬ r.Needs d.selections f.name := by
  intro ⟨root, hroot, hpath⟩
  obtain ⟨g, hg, hdef⟩ := h.registered f hf
  have hd : d.selections = f.selections := by
    cases d with
    | operation o => exact absurd hf (by simp [Definition.fragment?])
    | fragment f' => rw [Option.some.inj hf]; rfl
  -- The fragment spreads the root, which leads back to the fragment.
  have hedge : r.Spreads f.name root := ⟨g, hg, by rw [hdef, ← hd]; exact hroot⟩
  exact h.acyclic f.name (TransGen.head' hedge hpath)

/-- The list that a text is printed from. Leaving out the definition's own name makes no difference. -/
theorem standaloneDefinitions_eq :
    standaloneDefinitions r d = d :: (r.neededBy d.selections).map asDefinition := by
  show d :: ((r.neededBy d.selections).filter _).map asDefinition = _
  congr 2
  refine List.filter_eq_self.mpr fun f hf => ?_
  have hneeds := (Registry.mem_neededBy.mp hf).2
  cases hd : d.fragment? with
  | none => simp
  | some own =>
    have hne : f.name ≠ own.name := fun heq => h.not_needs_own hd (heq ▸ hneeds)
    simpa using hne

/-- What a needed fragment spreads is needed, too. -/
theorem needs_of_spreadsName {e : Definition} (he : e ∈ standaloneDefinitions r d) {name : String}
    (hname : SpreadsName e.selections name) :
    r.Needs d.selections name ∧ ∃ g, r.get? name = some g := by
  rw [h.standaloneDefinitions_eq] at he
  rcases List.mem_cons.mp he with rfl | he
  · exact ⟨⟨name, hname, .refl⟩, h.resolves name hname⟩
  · obtain ⟨f, hf, rfl⟩ := List.mem_map.mp he
    obtain ⟨hget, root, hroot, hpath⟩ := Registry.mem_neededBy.mp hf
    have hedge : r.Spreads f.name name := ⟨f, hget, hname⟩
    exact ⟨⟨root, hroot, hpath.tail hedge⟩, h.closed f (Registry.mem_of_get? hget) name hname⟩

/-- No fragment stands in a text twice. -/
theorem nodup_fragmentNames : (fragmentNames (standaloneDefinitions r d)).Nodup := by
  rw [h.standaloneDefinitions_eq]
  have hneeded := r.nodup_neededBy d.selections
  rw [← fragmentNames_map_asDefinition] at hneeded
  unfold fragmentNames at hneeded ⊢
  cases hd : d.fragment? with
  | none =>
    rw [List.filterMap_cons_none hd]
    exact hneeded
  | some own =>
    rw [List.filterMap_cons_some hd, List.map_cons, List.nodup_cons]
    refine ⟨fun hmem => ?_, hneeded⟩
    have hmem' : own.name ∈ fragmentNames ((r.neededBy d.selections).map asDefinition) := hmem
    rw [fragmentNames_map_asDefinition] at hmem'
    obtain ⟨f, hf, hname⟩ := List.mem_map.mp hmem'
    exact h.not_needs_own hd (hname ▸ (Registry.mem_neededBy.mp hf).2)

/-- Each spread names exactly one of the fragments. -/
theorem count_fragmentNames {e : Definition} (he : e ∈ standaloneDefinitions r d) {name : String}
    (hname : SpreadsName e.selections name) :
    (fragmentNames (standaloneDefinitions r d)).count name = 1 := by
  refine List.count_eq_one_of_mem h.nodup_fragmentNames ?_
  obtain ⟨hneeds, f, hf⟩ := h.needs_of_spreadsName he hname
  rw [h.standaloneDefinitions_eq]
  refine List.mem_map.mpr ⟨f.definition, List.mem_filterMap.mpr ⟨asDefinition f, ?_, rfl⟩, ?_⟩
  · exact List.mem_cons_of_mem _ (mem_map_neededBy hf hneeds)
  · exact Registry.name_of_get? hf

/-- The path that leads to a fragment stays among the fragments that are listed. -/
theorem reached_of_needs {name root : String} (hroot : SpreadsName d.selections root)
    (hpath : ReflTransGen r.Spreads root name) {f : SourcedFragment} (hf : r.get? name = some f) :
    ReflTransGen (SpreadsAmong (standaloneDefinitions r d)) d (asDefinition f) := by
  -- A registered fragment that is needed is listed.
  have hlisted : ∀ {n : String} {g : SourcedFragment}, ReflTransGen r.Spreads root n →
      r.get? n = some g → asDefinition g ∈ standaloneDefinitions r d := by
    intro n g hn hg
    rw [h.standaloneDefinitions_eq]
    exact List.mem_cons_of_mem _ (mem_map_neededBy hg ⟨root, hroot, hn⟩)
  induction hpath generalizing f with
  | refl =>
    have hname : SpreadsName d.selections f.name := by rw [Registry.name_of_get? hf]; exact hroot
    exact .single ⟨hlisted .refl hf, f.definition, rfl, hname⟩
  | tail hpath hedge ih =>
    obtain ⟨g, hg, hspread⟩ := hedge
    have hname : SpreadsName g.definition.selections f.name := by
      rw [Registry.name_of_get? hf]
      exact hspread
    have hlast := hlisted (hpath.tail ⟨g, hg, hspread⟩) hf
    exact (ih hg).tail ⟨hlast, f.definition, rfl, hname⟩

/-- What a fragment behind the head spreads stands in front of it. -/
theorem mem_front {front back : List Definition} {e : Definition}
    (hsplit : (standaloneDefinitions r d).tail = front ++ e :: back) {name : String}
    (hname : SpreadsName e.selections name) : name ∈ fragmentNames front := by
  have he : e ∈ standaloneDefinitions r d := by
    refine List.mem_of_mem_tail ?_
    rw [hsplit]
    exact List.mem_append_right _ (List.mem_cons_self ..)
  obtain ⟨-, hknown⟩ := h.needs_of_spreadsName he hname
  rw [h.standaloneDefinitions_eq, List.tail_cons] at hsplit
  obtain ⟨front', rest, hneeded, rfl, hrest⟩ := List.map_eq_append_iff.mp hsplit
  obtain ⟨f, back', rfl, rfl, -⟩ := List.map_eq_cons_iff.mp hrest
  rw [fragmentNames_map_asDefinition]
  obtain ⟨g, hg, hgname⟩ := Registry.mem_front_neededBy h.acyclic hneeded hname hknown
  exact List.mem_map.mpr ⟨g, hg, hgname⟩

end SpreadsSoundly

/-! ## The emitted definitions -/

variable {i : Inputs}

namespace Inputs.Accepted

/-- A name stands for the fragment that is registered under it. -/
theorem get?_of_supplies (h : i.Accepted) {f : SourcedFragment} (hf : i.Supplies f) :
    i.merged.get? f.name = some f :=
  Registry.get?_of_nodup h.nodup_merged (Pool.mem_merged.mpr hf)

theorem mem_orderedFragments (h : i.Accepted) {f : SourcedFragment} :
    f ∈ i.orderedFragments ↔ f ∈ i.localFragments :=
  (orderedFragments_perm h.nodup_merged).mem_iff

/-- What becomes a constant spreads only what it should. -/
theorem spreadsSoundly (h : i.Accepted) {d : Definition} (hd : d ∈ i.emitted) :
    SpreadsSoundly i.merged d := by
  rcases List.mem_append.mp hd with hd | hd
  · obtain ⟨f, hf, rfl⟩ := List.mem_map.mp hd
    have hsupplied : i.Supplies f := .inl (h.mem_orderedFragments.mp hf)
    have hmerged : f ∈ i.merged.fragments := Pool.mem_merged.mpr hsupplied
    refine ⟨h.sound.2, h.sound.1, h.sound.1 f hmerged, ?_⟩
    intro own hown
    obtain rfl := Option.some.inj hown
    exact ⟨f, h.get?_of_supplies hsupplied, rfl⟩
  · obtain ⟨o, ho, rfl⟩ := List.mem_map.mp hd
    exact ⟨h.sound.2, h.sound.1, h.operations o ho, fun own hown => nomatch hown⟩

/-- What stands in the text of an emitted definition makes it self-contained. -/
theorem selfContained (h : i.Accepted) {d : Definition} (hd : d ∈ i.emitted) :
    i.SelfContained d (standaloneDefinitions i.merged d) := by
  have hsound := h.spreadsSoundly hd
  -- Behind the head stand the needed fragments and nothing else.
  have hneeded : ∀ e ∈ (standaloneDefinitions i.merged d).tail,
      ∃ f, i.merged.get? f.name = some f ∧ i.merged.Needs d.selections f.name ∧
        e = asDefinition f := by
    intro e he
    rw [hsound.standaloneDefinitions_eq, List.tail_cons] at he
    obtain ⟨f, hf, rfl⟩ := List.mem_map.mp he
    obtain ⟨hget, hneeds⟩ := Registry.mem_neededBy.mp hf
    exact ⟨f, hget, hneeds, rfl⟩
  refine ⟨rfl, fun e he name => hsound.count_fragmentNames he, hsound.nodup_fragmentNames, ?_, ?_,
    fun front e back hsplit name => hsound.mem_front hsplit⟩
  · intro e he
    obtain ⟨f, hget, -, rfl⟩ := hneeded e he
    refine ⟨f, rfl, Pool.mem_merged.mp (Registry.mem_of_get? hget), ?_⟩
    intro g hg hname
    have hfound := h.get?_of_supplies hg
    rw [hname, hget] at hfound
    exact (Option.some.inj hfound).symm
  · intro e he
    obtain ⟨f, hget, ⟨root, hroot, hpath⟩, rfl⟩ := hneeded e he
    exact hsound.reached_of_needs hroot hpath hget

end Inputs.Accepted

/-- **Self-contained constants.** When a module is generated, its constants are those of the local
fragments, in an order, and of the named operations in document order, and the text of each is printed
from a list of definitions that is self-contained. -/
theorem selfContained_of_generate {m : Module} (h : (generate i).result = .ok m) :
    ∃ s, Settings.resolve i.options = .ok s ∧ m = moduleOf i.merged s (combine i.documents) ∧
      (i.constants s).map (·.text) = i.emitted.map (standaloneText i.merged) ∧
      i.emitted.Perm ((i.localFragments.map asDefinition)
        ++ i.operations.map fun o => .operation o.operation) ∧
      ∀ d ∈ i.emitted, i.SelfContained d (standaloneDefinitions i.merged d) := by
  have hverdict := verdict_result i
  rw [h] at hverdict
  obtain ⟨accepted, s, hs, hm⟩ := accepted_of_verdict hverdict
  refine ⟨s, hs, hm, map_text_constants i s, ?_, fun d => accepted.selfContained⟩
  exact ((orderedFragments_perm accepted.nodup_merged).map asDefinition).append_right _

/-- A query that spreads a fragment of the documents, which spreads an external one. -/
def spreadingInputs : Inputs where
  schema := .empty
  documents := [⟨none, some [
    .fragment ⟨"A", "T", ⟨1, 1⟩, [], [.field none "x" [] [] [], .spread ⟨1, 20⟩ "B" []]⟩,
    .operation (.explicit .query ⟨2, 1⟩ (some "Q") [] [] [.spread ⟨2, 11⟩ "A" []])]⟩]
  options := {}
  externals := [⟨⟨"B", "T", ⟨1, 1⟩, [], [.field none "y" [] [] []]⟩, none, true⟩]

set_option maxRecDepth 10000 in
theorem selfContained_spreadingInputs :
    ∃ m, (generate spreadingInputs).result = .ok m ∧
      ∀ d ∈ spreadingInputs.emitted,
        spreadingInputs.SelfContained d (standaloneDefinitions spreadingInputs.merged d) := by
  have hs : Settings.resolve spreadingInputs.options
      = .ok ⟨defaultModuleName, ⟨.single .snake, false⟩, ⟨"", "", "", ""⟩⟩ := rfl
  have hregistry : spreadingInputs.pool.toRegistry = .ok spreadingInputs.merged := by cbv
  have hnames : checkNames spreadingInputs.merged
      ⟨defaultModuleName, ⟨.single .snake, false⟩, ⟨"", "", "", ""⟩⟩
      (combine spreadingInputs.documents) = .ok () := rfl
  have hresult := result_generate_of_stages hs rfl hregistry rfl hnames
  obtain ⟨-, -, -, -, -, hselfContained⟩ := selfContained_of_generate hresult
  exact ⟨_, hresult, hselfContained⟩

end QueryModule.Generate
