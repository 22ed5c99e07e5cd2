import QueryModule.Proofs.Fragment.Loops
import QueryModule.Proofs.Fragment.Needed

/-!
# Merging the collected fragments

A pool is merged into a registry when the fragments spread each other in no circle and spread nothing
unknown: `toRegistry_eq_ok_iff`. Otherwise the errors are the reported loops and then an error for
each unknown spread.
-/

namespace QueryModule.Fragment

open QueryModule.Graphql

namespace Registry

variable {r : Registry}

/-- Every spread in a registered fragment names a registered one. -/
def Closed (r : Registry) : Prop := ∀ f ∈ r.fragments, r.Resolves f.definition.selections

/-- No unknown spread is reported exactly when all spreads resolve. -/
theorem undefinedReferences_eq_nil_iff {referencedBy : String} {file : Option String}
    {selections : List Selection} :
    r.undefinedReferences referencedBy file (spreadsOf selections) = [] ↔
      r.Resolves selections := by
  unfold undefinedReferences Resolves
  rw [List.map_eq_nil_iff, List.filter_eq_nil_iff]
  constructor
  · intro h name hname
    obtain ⟨x, rfl, hx⟩ := hname
    have := h x (mem_spreadsOf.mpr hx)
    cases hf : r.get? x.name with
    | none => simp [hf] at this
    | some f => exact ⟨f, rfl⟩
  · intro h x hx
    obtain ⟨f, hf⟩ := h x.name ⟨x, rfl, mem_spreadsOf.mp hx⟩
    simp [hf]

/-- The check of the spreads finds nothing exactly when all of them lead to registered fragments. -/
theorem undefinedInFragments_eq_nil_iff : r.undefinedInFragments = [] ↔ r.Closed := by
  unfold undefinedInFragments Closed
  rw [List.flatMap_eq_nil_iff]
  constructor
  · intro h f hf
    exact undefinedReferences_eq_nil_iff.mp (h f hf)
  · intro h f hf
    exact undefinedReferences_eq_nil_iff.mpr (h f hf)

/-- Nothing is wrong with the fragments when they spread each other in no circle and nothing else. -/
theorem problems_eq_nil_iff : r.problems = [] ↔ Acyclic r.Spreads ∧ r.Closed := by
  unfold problems
  rw [List.append_eq_nil_iff, List.map_eq_nil_iff, SpreadGraph.loops_eq_nil_iff,
    ← acyclic_spreads_iff, undefinedInFragments_eq_nil_iff]

end Registry

namespace Pool

variable {p : Pool}

/-- A pool whose merged fragments have no problems becomes their registry. -/
theorem toRegistry_of_problems_eq_nil (h : p.merged.problems = []) :
    p.toRegistry = .ok p.merged := by
  unfold toRegistry
  rw [h]

/-- Otherwise all problems are reported. -/
theorem toRegistry_of_problems_ne_nil (h : p.merged.problems ≠ []) :
    p.toRegistry = .error p.merged.problems := by
  unfold toRegistry
  cases hp : p.merged.problems with
  | nil => exact absurd hp h
  | cons e errors => rfl

/-- The fragments can be merged when they spread each other in no circle and nothing else, and the
registry is what they make up together. -/
theorem toRegistry_eq_ok_iff {r : Registry} :
    p.toRegistry = .ok r ↔ r = p.merged ∧ Acyclic p.merged.Spreads ∧ p.merged.Closed := by
  rw [← Registry.problems_eq_nil_iff]
  by_cases h : p.merged.problems = []
  · rw [toRegistry_of_problems_eq_nil h, Except.ok.injEq]
    exact ⟨fun heq => ⟨heq.symm, h⟩, fun heq => heq.1.symm⟩
  · rw [toRegistry_of_problems_ne_nil h]
    exact ⟨fun heq => absurd heq (by simp), fun heq => absurd heq.2 h⟩

/-! ## Who shadows whom -/

theorem isShadowed_iff {f : SourcedFragment} :
    p.isShadowed f = true ↔ ∃ g ∈ p.locals, g.name = f.name := by
  unfold isShadowed
  rw [List.any_eq_true]
  simp

/-- What is merged: all local fragments, and the external ones whose name no local one has. -/
theorem mem_merged {f : SourcedFragment} :
    f ∈ p.merged.fragments ↔
      f ∈ p.locals ∨ f ∈ p.externals ∧ ∀ g ∈ p.locals, g.name ≠ f.name := by
  unfold merged
  rw [List.mem_append, List.mem_filter, Bool.not_eq_true', ← Bool.not_eq_true, isShadowed_iff]
  simp

/-- Where either side has each name once, so has the merged set. -/
theorem nodup_merged (hl : (p.locals.map (·.name)).Nodup) (he : (p.externals.map (·.name)).Nodup) :
    (p.merged.fragments.map (·.name)).Nodup := by
  unfold merged
  rw [List.map_append]
  refine List.nodup_append.mpr ⟨hl, he.sublist (List.filter_sublist.map _), ?_⟩
  -- An external fragment with the name of a local one would be shadowed.
  intro a ha b hb hab
  obtain ⟨f, hf, rfl⟩ := List.mem_map.mp ha
  obtain ⟨g, hg, rfl⟩ := List.mem_map.mp hb
  have hshadow := (List.mem_filter.mp hg).2
  rw [isShadowed_iff.mpr ⟨f, hf, hab⟩] at hshadow
  exact absurd hshadow (by simp)

end Pool

end QueryModule.Fragment
