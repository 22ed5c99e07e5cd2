import QueryModule.Generate.Generator
import QueryModule.Proofs.Fragment.Collecting
import QueryModule.Proofs.Fragment.Merging
import QueryModule.Proofs.Results

/-!
# The stages of a generation

`generate` reports as it goes along; here its result is read off without the log (`result_generate`),
and the parts that its stages work on are named once: the fragments of either side, the pool and the
registry that they make up, and the named operations. `collect_eq` says what collecting comes to.
-/

namespace QueryModule.Generate

open QueryModule.Config (Settings)
open QueryModule.Fragment
open QueryModule.Graphql

/-! ## The result without the log -/

theorem result_resolveSettings (o : Config.Options) :
    (resolveSettings o).result = (Settings.resolve o).mapError .selector := by
  unfold resolveSettings
  simp only [Logged.result_bind, Logged.result_ofExcept, Logged.result_note, Logged.result_pure]
  cases Settings.resolve o with
  | ok s => rfl
  | error e => rfl

theorem result_mergeFragments (p : Pool) : (mergeFragments p).result = p.toRegistry := by
  unfold mergeFragments
  simp only [Logged.result_bind, Logged.result_notes, Logged.result_ofExcept, Logged.result_note,
    Logged.result_pure]
  cases p.toRegistry with
  | ok r => rfl
  | error e => rfl

/-- The stages in a row. -/
theorem result_generate (i : Inputs) :
    (generate i).result =
      ((Settings.resolve i.options).mapError GenerateError.selector).bind fun s =>
        ((collect (combine i.documents) i.externals).mapError GenerateError.fragments).bind fun p =>
          (p.toRegistry.mapError GenerateError.fragments).bind fun r =>
            ((checkOperations r (combine i.documents)).mapError GenerateError.fragments).bind fun _ =>
              ((checkNames r s (combine i.documents)).mapError GenerateError.nameClash).bind fun _ =>
                .ok (moduleOf r s (combine i.documents)) := by
  unfold generate
  simp only [Logged.result_bind, result_resolveSettings, Logged.result_note, Logged.result_notes,
    Logged.result_ofExcept, result_mapError, result_mergeFragments, Logged.result_pure]
  rfl

/-- When no stage fails, the module is that of the registry. -/
theorem result_generate_of_stages {i : Inputs} {s : Settings} {p : Pool} {r : Registry}
    (hs : Settings.resolve i.options = .ok s)
    (hp : collect (combine i.documents) i.externals = .ok p) (hr : p.toRegistry = .ok r)
    (hoperations : checkOperations r (combine i.documents) = .ok ())
    (hnames : checkNames r s (combine i.documents) = .ok ()) :
    (generate i).result = .ok (moduleOf r s (combine i.documents)) := by
  rw [result_generate, hs, hp]
  show ((p.toRegistry.mapError _).bind _) = _
  rw [hr]
  show (((checkOperations r _).mapError _).bind _) = _
  rw [hoperations]
  show (((checkNames r s _).mapError _).bind _) = _
  rw [hnames]
  rfl

/-! ## What the stages work on -/

/-- An operation that becomes a constant. -/
structure NamedOperation where
  name : String
  file : Option String
  operation : Operation

/-- The definition as an operation with a name, if it is one. -/
def NamedOperation.of? (d : SourcedDefinition) : Option NamedOperation :=
  d.definition.operation?.bind fun o => o.name?.map fun name => ⟨name, d.file, o⟩

/-- The operations with a name, in document order. -/
def namedOperations (definitions : List SourcedDefinition) : List NamedOperation :=
  definitions.filterMap NamedOperation.of?

namespace Inputs

/-- The fragments of the documents in document order. -/
def localFragments (i : Inputs) : List SourcedFragment := fragmentsOf false (combine i.documents)

/-- The external fragments; what counts is that they are given as such. -/
def externalFragments (i : Inputs) : List SourcedFragment :=
  i.externals.map fun f => { f with external := true }

/-- The pool that holds all fragments. -/
def pool (i : Inputs) : Pool := ⟨i.localFragments, i.externalFragments⟩

/-- The local fragments, and the external ones whose name no local one has. -/
def merged (i : Inputs) : Registry := i.pool.merged

/-- The operations that become constants. -/
def operations (i : Inputs) : List NamedOperation := namedOperations (combine i.documents)

/-- The local fragments, each one behind those it spreads. -/
def orderedFragments (i : Inputs) : List SourcedFragment :=
  i.merged.spreadOrder.filter (!·.external)

/-- The definitions that become constants, in the order of the constants. -/
def emitted (i : Inputs) : List Definition :=
  (i.orderedFragments.map fun f => .fragment f.definition)
    ++ i.operations.map fun o => .operation o.operation

/-- The constants in the order of the module. -/
def constants (i : Inputs) (s : Settings) : List Constant :=
  fragmentConstants i.merged s ++ operationConstants i.merged s (combine i.documents)

end Inputs

/-- Fragments are marked with the side that they are collected for. -/
theorem external_of_mem_fragmentsOf {external : Bool} {definitions : List SourcedDefinition} :
    ∀ f ∈ fragmentsOf external definitions, f.external = external := by
  intro f hf
  obtain ⟨d, -, hd⟩ := List.mem_filterMap.mp hf
  obtain ⟨node, -, rfl⟩ := Option.map_eq_some_iff.mp hd
  rfl

theorem external_of_mem_localFragments {i : Inputs} :
    ∀ f ∈ i.localFragments, f.external = false := external_of_mem_fragmentsOf

theorem external_of_mem_externalFragments {i : Inputs} :
    ∀ f ∈ i.externalFragments, f.external = true := by
  intro f hf
  obtain ⟨g, -, rfl⟩ := List.mem_map.mp hf
  rfl

/-- Fragments of one side, sorted by side. -/
theorem filter_of_side {external : Bool} {l : List SourcedFragment}
    (h : ∀ f ∈ l, f.external = external) :
    l.filter (·.external) = (if external then l else []) ∧
      l.filter (!·.external) = (if external then [] else l) := by
  cases external with
  | false =>
    exact ⟨List.filter_eq_nil_iff.mpr fun f hf => by simp [h f hf],
      List.filter_eq_self.mpr fun f hf => by simp [h f hf]⟩
  | true =>
    exact ⟨List.filter_eq_self.mpr fun f hf => h f hf,
      List.filter_eq_nil_iff.mpr fun f hf => by simp [h f hf]⟩

/-- The fragments that are registered as local ones are those of the documents. -/
theorem locals_merged (i : Inputs) : i.merged.locals = i.localFragments := by
  have hexternal : ∀ f ∈ i.externalFragments.filter (!i.pool.isShadowed ·), f.external = true :=
    fun f hf => external_of_mem_externalFragments f (List.mem_filter.mp hf).1
  show (i.localFragments ++ i.externalFragments.filter (!i.pool.isShadowed ·)).filter (!·.external)
    = i.localFragments
  rw [List.filter_append, (filter_of_side external_of_mem_localFragments).2,
    (filter_of_side hexternal).2]
  exact List.append_nil _

/-! ## What is emitted -/

/-- The constant of a named operation. -/
def NamedOperation.constant (r : Registry) (s : Settings) (o : NamedOperation) : Constant :=
  ⟨s.operationConstantName o.name, standaloneText r (.operation o.operation)⟩

/-- One constant for each named operation. -/
theorem operationConstants_eq (r : Registry) (s : Settings)
    (definitions : List SourcedDefinition) :
    operationConstants r s definitions
      = (namedOperations definitions).map (NamedOperation.constant r s) := by
  unfold operationConstants namedOperations
  rw [List.map_filterMap]
  refine List.filterMap_congr fun d _ => ?_
  unfold NamedOperation.of?
  cases d.definition with
  | fragment f => rfl
  | operation o =>
    show Option.map _ o.name? = Option.map _ (Option.map _ o.name?)
    rw [Option.map_map]
    rfl

/-- One constant for each of the ordered fragments, then one for each named operation. -/
theorem constants_eq (i : Inputs) (s : Settings) :
    i.constants s = i.orderedFragments.map (Constant.ofFragment i.merged s)
      ++ i.operations.map (NamedOperation.constant i.merged s) := by
  unfold Inputs.constants
  rw [operationConstants_eq]
  rfl

/-- The texts of the constants are those of the definitions that become constants. -/
theorem map_text_constants (i : Inputs) (s : Settings) :
    (i.constants s).map (·.text) = i.emitted.map (standaloneText i.merged) := by
  unfold Inputs.emitted
  rw [constants_eq, List.map_append, List.map_append, List.map_map, List.map_map, List.map_map,
    List.map_map]
  rfl

/-- Ordering loses no fragment and adds none. -/
theorem orderedFragments_perm {i : Inputs} (hnodup : (i.merged.fragments.map (·.name)).Nodup) :
    i.orderedFragments.Perm i.localFragments := by
  rw [← locals_merged]
  exact (Registry.spreadOrder_perm hnodup).filter _

/-! ## Collecting -/

/-- What comes from the other side is no duplicate. -/
theorem duplicatesBehind_of_sides {before offered : List SourcedFragment}
    (h : ∀ f ∈ before, ∀ g ∈ offered, f.external ≠ g.external) :
    duplicatesBehind before offered = duplicatesIn offered := by
  refine List.filterMap_congr fun x hx => ?_
  have hmem : x.1 ∈ offered := List.fst_mem_of_mem_zipIdx hx
  have hnone : before.find? x.1.sameKey = none := by
    rw [List.find?_eq_none]
    intro f hf hsame
    have hkey := sameKey_iff.mp hsame
    exact h f hf x.1 hmem (congrArg Prod.fst hkey)
  show Option.map _ (List.find? _ (before ++ _)) = _
  rw [List.find?_append, hnone, Option.none_or]

/-- Collecting fails with the duplicates of either side, and otherwise holds all fragments. -/
theorem collect_eq (i : Inputs) :
    collect (combine i.documents) i.externals =
      match duplicatesIn i.localFragments ++ duplicatesIn i.externalFragments with
      | [] => .ok i.pool
      | errors => .error errors := by
  -- Fragments of different sides are never duplicates of each other, so that each side has its own errors.
  have hlocal : (Pool.empty.addAll i.localFragments).2 = duplicatesIn i.localFragments := by
    rw [Pool.errors_addAll _ Pool.holds_empty, duplicatesBehind_nil]
  have hexternal : ((Pool.empty.addAll i.localFragments).1.addAll i.externalFragments).2
      = duplicatesIn i.externalFragments := by
    rw [Pool.errors_addAll _ (Pool.holds_addAll _ Pool.holds_empty), List.nil_append]
    refine duplicatesBehind_of_sides fun f hf g hg => ?_
    rw [external_of_mem_localFragments f hf, external_of_mem_externalFragments g hg]
    simp
  have hunfold : collect (combine i.documents) i.externals =
      match (Pool.empty.addAll i.localFragments).2
        ++ ((Pool.empty.addAll i.localFragments).1.addAll i.externalFragments).2 with
      | [] => .ok ((Pool.empty.addAll i.localFragments).1.addAll i.externalFragments).1
      | errors => .error errors := rfl
  rw [hunfold, hlocal, hexternal]
  cases herrors : duplicatesIn i.localFragments ++ duplicatesIn i.externalFragments with
  | cons e errors => rfl
  | nil =>
    -- Without errors, each side of the pool holds what has been offered to it.
    obtain ⟨hl, he⟩ := List.append_eq_nil_iff.mp herrors
    rw [Pool.addAll_of_errors_eq_nil (hexternal.trans he),
      Pool.addAll_of_errors_eq_nil (hlocal.trans hl)]
    have hl' := filter_of_side (external_of_mem_localFragments (i := i))
    have he' := filter_of_side (external_of_mem_externalFragments (i := i))
    simp [hl', he', Pool.empty, Inputs.pool]

end QueryModule.Generate
