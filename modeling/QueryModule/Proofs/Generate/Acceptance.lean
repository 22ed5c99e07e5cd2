import QueryModule.Proofs.Config.Selectors
import QueryModule.Proofs.Generate.NameClash
import QueryModule.Proofs.Generate.Stages

/-!
# Which inputs are accepted, and what is wrong with the others

A module is generated exactly when five conditions hold (`Inputs.Accepted`): the selectors denote
something, the fragments of either side have names of their own, the merged fragments spread each other
in no circle and nothing unknown, the named operations spread nothing unknown, and all generated names
differ. The conditions are stated over the inputs alone, without the stages that check them.

They are checked in this order, and the first one that fails decides the error. `Inputs.Verdict` lists
what each failure reports: every duplicate, every unknown spread at whatever depth, and loops that are
genuine and leave no circle uncovered.

> `verdict_generate`: the result of `generate` is the verdict on its inputs, and a module when they
> are accepted.
-/

namespace QueryModule.Generate

open QueryModule.Config
open QueryModule.Elixir (Module)
open QueryModule.Fragment
open QueryModule.Graphql

/-- A spread with the definition it occurs in. -/
structure SpreadOccurrence where
  referencedBy : String
  file : Option String
  spread : Spread

namespace Inputs

/-! ## The conditions -/

/-- Every configured selector denotes a treatment of names. -/
def SelectorsDenote (i : Inputs) : Prop := ∀ t ∈ i.options.selectors, Denotes t

/-- No two fragments of one side share a name. -/
def FragmentsDistinct (i : Inputs) : Prop :=
  (i.localFragments.map (·.name)).Nodup ∧ (i.externals.map (·.name)).Nodup

/-- The merged fragments spread only each other, and in no circle. -/
def FragmentsSound (i : Inputs) : Prop := i.merged.Closed ∧ Acyclic i.merged.Spreads

/-- The named operations spread only registered fragments. -/
def OperationsResolve (i : Inputs) : Prop :=
  ∀ o ∈ i.operations, i.merged.Resolves o.operation.selections

/-- The names of the constants: of the local fragments, then of the named operations. -/
def generatedNames (i : Inputs) (s : Settings) : List String :=
  (i.localFragments.map fun f => s.fragmentConstantName f.name)
    ++ i.operations.map fun o => s.operationConstantName o.name

/-- No two constants share a name. -/
def NamesDistinct (i : Inputs) : Prop :=
  ∃ s, Settings.resolve i.options = .ok s ∧ (i.generatedNames s).Nodup

/-- What inputs have to satisfy. -/
structure Accepted (i : Inputs) : Prop where
  selectors : i.SelectorsDenote
  distinct : i.FragmentsDistinct
  sound : i.FragmentsSound
  operations : i.OperationsResolve
  names : i.NamesDistinct

/-! ## The errors -/

/-- All spreads in the merged fragments, in the order of registration and of the source. -/
def fragmentSpreads (i : Inputs) : List SpreadOccurrence :=
  i.merged.fragments.flatMap fun f => f.spreads.map fun x => ⟨f.name, f.file, x⟩

/-- All spreads in the named operations, in document order and in that of the source. -/
def operationSpreads (i : Inputs) : List SpreadOccurrence :=
  i.operations.flatMap fun o =>
    (spreadsOf o.operation.selections).map fun x => ⟨o.name, o.file, x⟩

/-- An error for each of the occurrences whose name no fragment has. -/
def unresolved (i : Inputs) (occurrences : List SpreadOccurrence) : List FragmentError :=
  (occurrences.filter fun o => i.merged.fragments.all (·.name ≠ o.spread.name)).map fun o =>
    .undefinedReference o.referencedBy o.spread.name ⟨o.file, o.spread.position⟩

/-- What the constants are named after: the local fragments, then the named operations. -/
def sources (i : Inputs) (s : Settings) : List NameSource :=
  (i.localFragments.map fun f =>
      ⟨"fragment " ++ f.name, s.fragmentConstantName f.name, f.location⟩)
    ++ i.operations.map fun o =>
      ⟨"operation " ++ o.name, s.operationConstantName o.name, ⟨o.file, o.operation.position⟩⟩

/-- What is to come of the inputs: the error of the first condition that fails, or a module. -/
inductive Verdict (i : Inputs) : Except GenerateError Module → Prop where
  | selector {e : Naming.SelectorError} (fault : FirstFault i.options.selectors e) :
      Verdict i (.error (.selector e))
  | duplicates (selectors : i.SelectorsDenote) (fault : ¬ i.FragmentsDistinct) :
      Verdict i
        (.error (.fragments (duplicatesIn i.localFragments ++ duplicatesIn i.externalFragments)))
  | fragments {loops : List (List String)} (selectors : i.SelectorsDenote)
      (distinct : i.FragmentsDistinct) (fault : ¬ i.FragmentsSound)
      (genuine : ∀ path ∈ loops, i.merged.IsCircle path)
      (complete : ∀ walk, i.merged.IsClosedWalk walk →
        ∃ u v, [u, v] <:+: walk ∧ ∃ path ∈ loops, [u, v] <:+ path) :
      Verdict i (.error (.fragments (loops.map .cycle ++ i.unresolved i.fragmentSpreads)))
  | operations (selectors : i.SelectorsDenote) (distinct : i.FragmentsDistinct)
      (sound : i.FragmentsSound) (fault : ¬ i.OperationsResolve) :
      Verdict i (.error (.fragments (i.unresolved i.operationSpreads)))
  | names {s : Settings} {c : NameClash} (selectors : i.SelectorsDenote)
      (distinct : i.FragmentsDistinct) (sound : i.FragmentsSound)
      (operations : i.OperationsResolve) (fault : ¬ i.NamesDistinct)
      (settings : Settings.resolve i.options = .ok s) (first : c.IsFirst (i.sources s)) :
      Verdict i (.error (.nameClash c))
  | generated {s : Settings} (accepted : i.Accepted)
      (settings : Settings.resolve i.options = .ok s) :
      Verdict i (.ok (moduleOf i.merged s (combine i.documents)))

end Inputs

/-! ## The stages check the conditions -/

variable {i : Inputs}

/-- External fragments keep their names when they get their source. -/
theorem map_name_externalFragments :
    i.externalFragments.map (·.name) = i.externals.map (·.name) := by
  unfold Inputs.externalFragments
  rw [List.map_map]
  rfl

/-- On one side, fragments are told apart by their names. -/
theorem nodup_key_iff {external : Bool} {l : List SourcedFragment}
    (h : ∀ f ∈ l, f.external = external) :
    (l.map (·.key)).Nodup ↔ (l.map (·.name)).Nodup := by
  have hkey : l.map (·.key) = (l.map (·.name)).map fun name => (external, name) := by
    rw [List.map_map]
    refine List.map_congr_left fun f hf => ?_
    show (f.external, f.name) = (external, f.name)
    rw [h f hf]
  rw [hkey]
  exact List.nodup_map_iff fun a b hab => congrArg Prod.snd hab

/-- No error is reported of names exactly when they are distinct. -/
theorem duplicates_eq_nil_iff :
    duplicatesIn i.localFragments ++ duplicatesIn i.externalFragments = [] ↔
      i.FragmentsDistinct := by
  unfold Inputs.FragmentsDistinct
  rw [List.append_eq_nil_iff, duplicatesIn_eq_nil_iff, duplicatesIn_eq_nil_iff,
    nodup_key_iff external_of_mem_localFragments, nodup_key_iff external_of_mem_externalFragments,
    map_name_externalFragments]

/-- Every merged fragment has a name of its own. -/
theorem Inputs.Accepted.nodup_merged (h : i.Accepted) : (i.merged.fragments.map (·.name)).Nodup := by
  have hexternal := h.distinct.2
  rw [← map_name_externalFragments] at hexternal
  exact Pool.nodup_merged h.distinct.1 hexternal

/-- Fragments with distinct names are collected. -/
theorem collect_of_distinct (h : i.FragmentsDistinct) :
    collect (combine i.documents) i.externals = .ok i.pool := by
  rw [collect_eq, duplicates_eq_nil_iff.mpr h]

/-- For others, the repeated names of both sides are reported. -/
theorem collect_of_not_distinct (h : ¬ i.FragmentsDistinct) :
    collect (combine i.documents) i.externals
      = .error (duplicatesIn i.localFragments ++ duplicatesIn i.externalFragments) := by
  rw [collect_eq]
  cases herrors : duplicatesIn i.localFragments ++ duplicatesIn i.externalFragments with
  | nil => exact absurd (duplicates_eq_nil_iff.mp herrors) h
  | cons e errors => rfl

/-! ### Unknown spreads -/

/-- No fragment is registered under a name when none has it. -/
theorem get?_isNone_eq (r : Registry) (name : String) :
    (r.get? name).isNone = r.fragments.all (·.name ≠ name) := by
  rw [Bool.eq_iff_iff, Option.isNone_iff_eq_none, List.all_eq_true]
  unfold Registry.get?
  rw [List.find?_eq_none]
  simp

/-- The check of spreads finds those whose names no fragment has. -/
theorem undefinedReferences_eq (referencedBy : String) (file : Option String)
    (spreads : List Spread) :
    i.merged.undefinedReferences referencedBy file spreads
      = i.unresolved (spreads.map fun x => ⟨referencedBy, file, x⟩) := by
  unfold Registry.undefinedReferences Inputs.unresolved
  rw [List.filter_map, List.map_map]
  simp only [get?_isNone_eq]
  rfl

theorem unresolved_flatMap {α : Type} (l : List α) (f : α → List SpreadOccurrence) :
    i.unresolved (l.flatMap f) = l.flatMap fun a => i.unresolved (f a) := by
  unfold Inputs.unresolved
  rw [List.filter_flatMap, List.map_flatMap]

/-- The check of fragments goes through all of their spreads. -/
theorem undefinedInFragments_eq :
    i.merged.undefinedInFragments = i.unresolved i.fragmentSpreads := by
  unfold Registry.undefinedInFragments Inputs.fragmentSpreads
  rw [unresolved_flatMap]
  simp only [undefinedReferences_eq]

/-- The check of operations goes through the named ones. -/
theorem undefinedInOperations_eq_flatMap (r : Registry) :
    ∀ definitions : List SourcedDefinition, undefinedInOperations r definitions
      = (namedOperations definitions).flatMap fun o =>
          r.undefinedInOperation o.name o.file o.operation.selections
  | [] => rfl
  | d :: rest => by
    have ih := undefinedInOperations_eq_flatMap r rest
    unfold undefinedInOperations namedOperations at ih ⊢
    rw [List.flatMap_cons, List.filterMap_cons, ih]
    unfold NamedOperation.of?
    cases d.definition.operation? with
    | none => rfl
    | some o =>
      cases hname : o.name? with
      | none => simp only [Option.bind_some, hname, Option.map_none, List.nil_append]
      | some name => simp only [Option.bind_some, hname, Option.map_some, List.flatMap_cons]

/-- The check of operations goes through all spreads of the named ones. -/
theorem undefinedInOperations_eq :
    undefinedInOperations i.merged (combine i.documents) = i.unresolved i.operationSpreads := by
  unfold Inputs.operationSpreads
  rw [undefinedInOperations_eq_flatMap, unresolved_flatMap]
  exact List.flatMap_congr fun o _ => undefinedReferences_eq o.name o.file _

/-- It finds nothing exactly when all of these spread registered fragments. -/
theorem undefinedInOperations_eq_nil_iff :
    undefinedInOperations i.merged (combine i.documents) = [] ↔ i.OperationsResolve := by
  rw [undefinedInOperations_eq_flatMap, List.flatMap_eq_nil_iff]
  exact forall₂_congr fun o _ => Registry.undefinedReferences_eq_nil_iff

/-- Operations that resolve pass. -/
theorem checkOperations_of_resolve (h : i.OperationsResolve) :
    checkOperations i.merged (combine i.documents) = .ok () := by
  unfold checkOperations
  rw [undefinedInOperations_eq_nil_iff.mpr h]

/-- Of others each spread that does not resolve is reported. -/
theorem checkOperations_of_not_resolve (h : ¬ i.OperationsResolve) :
    checkOperations i.merged (combine i.documents)
      = .error (i.unresolved i.operationSpreads) := by
  unfold checkOperations
  rw [← undefinedInOperations_eq]
  cases herrors : undefinedInOperations i.merged (combine i.documents) with
  | nil => exact absurd (undefinedInOperations_eq_nil_iff.mp herrors) h
  | cons e errors => rfl

/-! ### Names -/

/-- The check of names goes through what constants are named after. -/
theorem nameSources_eq (s : Settings) :
    nameSources i.merged s (combine i.documents) = i.sources s := by
  unfold nameSources Inputs.sources Inputs.operations namedOperations
  rw [locals_merged, List.map_filterMap]
  show _ ++ _ = _ ++ _
  congr 1
  refine List.filterMap_congr fun d _ => ?_
  unfold NamedOperation.of?
  cases d.definition.operation? with
  | none => rfl
  | some o =>
    show Option.map _ o.name? = Option.map _ (Option.map _ o.name?)
    rw [Option.map_map]
    rfl

/-- The names it compares are those of the constants. -/
theorem map_generatedName_sources (s : Settings) :
    (i.sources s).map (·.generatedName) = i.generatedNames s := by
  unfold Inputs.sources Inputs.generatedNames
  rw [List.map_append, List.map_map, List.map_map]
  rfl

/-! ## The verdict -/

theorem not_fragmentsSound_of_problems (h : i.pool.merged.problems ≠ []) : ¬ i.FragmentsSound :=
  fun hsound => h (Registry.problems_eq_nil_iff.mpr ⟨hsound.2, hsound.1⟩)

/-- What is reported of fragments that cannot be merged. -/
theorem problems_eq : i.pool.merged.problems
    = i.pool.reportedLoops.map .cycle ++ i.unresolved i.fragmentSpreads := by
  rw [reportedLoops_eq, ← undefinedInFragments_eq]
  rfl

/-- The result of each stage, the first failure deciding. -/
theorem verdict_result (i : Inputs) : i.Verdict (generate i).result := by
  rw [result_generate]
  rcases resolve_cases i.options with ⟨s, hs, hselectors⟩ | ⟨e, he, hfault⟩
  swap
  · rw [he]
    exact .selector hfault
  rw [hs]
  -- Each stage either passes its condition on or ends the run with its error.
  by_cases hdistinct : i.FragmentsDistinct
  swap
  · rw [collect_of_not_distinct hdistinct]
    exact .duplicates hselectors hdistinct
  rw [collect_of_distinct hdistinct]
  by_cases hproblems : i.pool.merged.problems = []
  swap
  · show i.Verdict ((i.pool.toRegistry.mapError _).bind _)
    rw [Pool.toRegistry_of_problems_ne_nil hproblems, problems_eq]
    exact .fragments hselectors hdistinct (not_fragmentsSound_of_problems hproblems)
      (fun _ => isCircle_of_mem_reportedLoops) (fun _ => exists_closesLoop_of_isClosedWalk)
  have hsound : i.FragmentsSound := (Registry.problems_eq_nil_iff.mp hproblems).symm
  show i.Verdict ((i.pool.toRegistry.mapError _).bind _)
  rw [Pool.toRegistry_of_problems_eq_nil hproblems]
  show i.Verdict (((checkOperations i.merged (combine i.documents)).mapError _).bind _)
  by_cases hoperations : i.OperationsResolve
  swap
  · rw [checkOperations_of_not_resolve hoperations]
    exact .operations hselectors hdistinct hsound hoperations
  rw [checkOperations_of_resolve hoperations]
  show i.Verdict (((checkNames i.merged s (combine i.documents)).mapError _).bind _)
  rcases checkNames_cases i.merged s (combine i.documents) with ⟨hok, hnodup⟩ | ⟨c, hc, hfirst⟩
  · rw [hok]
    rw [nameSources_eq, map_generatedName_sources] at hnodup
    exact .generated ⟨hselectors, hdistinct, hsound, hoperations, s, hs, hnodup⟩ hs
  · rw [hc]
    rw [nameSources_eq] at hfirst
    refine .names hselectors hdistinct hsound hoperations ?_ hs hfirst
    intro ⟨s', hs', hnodup⟩
    rw [hs, Except.ok.injEq] at hs'
    rw [← hs', ← map_generatedName_sources] at hnodup
    exact hfirst.not_nodup hnodup

/-- Accepted inputs have no other verdict than their module. -/
theorem exists_ok_of_accepted {result : Except GenerateError Module} (h : i.Verdict result)
    (accepted : i.Accepted) : ∃ m, result = .ok m := by
  cases h with
  | selector fault =>
    obtain ⟨t, ht, hnot⟩ := fault.exists_not_denotes
    exact absurd (accepted.selectors t ht) hnot
  | duplicates _ fault => exact absurd accepted.distinct fault
  | fragments _ _ fault _ _ => exact absurd accepted.sound fault
  | operations _ _ _ fault => exact absurd accepted.operations fault
  | names _ _ _ _ fault _ _ => exact absurd accepted.names fault
  | generated _ _ => exact ⟨_, rfl⟩

/-- What a module has been generated from has been accepted. -/
theorem accepted_of_verdict {m : Module} (h : i.Verdict (.ok m)) :
    i.Accepted ∧ ∃ s, Settings.resolve i.options = .ok s ∧
      m = moduleOf i.merged s (combine i.documents) := by
  cases h with
  | generated accepted settings => exact ⟨accepted, _, settings, rfl⟩

/-- **Acceptance and errors.** The result of `generate` is the verdict on its inputs; it is a module
exactly when they are accepted. -/
theorem verdict_generate (i : Inputs) :
    i.Verdict (generate i).result ∧ ((∃ m, (generate i).result = .ok m) ↔ i.Accepted) := by
  refine ⟨verdict_result i, ?_, exists_ok_of_accepted (verdict_result i)⟩
  intro ⟨m, hm⟩
  have hverdict := verdict_result i
  rw [hm] at hverdict
  exact (accepted_of_verdict hverdict).1

end QueryModule.Generate
