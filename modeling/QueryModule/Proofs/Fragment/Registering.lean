import QueryModule.Proofs.Fragment.History
import QueryModule.Proofs.Fragment.Merging

/-!
# From a pool to a registry

Everything behind the pool relies on what a registry is: the local fragments first, then the external
ones that none of them shadows, every name once, a local fragment wherever there is one, no circle and
no unknown spread. None of it is checked again.

Two facts about a pool carry this. Every fragment stands on the side that it belongs to, and no side
has a name twice; an offer keeps both, whatever the pool takes up of it and whatever it refuses
(`Pool.WellFormed`). So in the merged set a name leads to one fragment only, and what the search and the
lookups find by names is what the fragments say themselves.

> `toRegistry_collected`: when a registry comes of a pool that has been filled by offers, which one it
> is, and that nothing depends on the shadowed fragments.
-/

namespace QueryModule.Fragment

open QueryModule.Graphql
open Relation (TransGen)

namespace Pool

/-! ## What every pool satisfies -/

/-- What holds of a pool that has been filled by offers. -/
structure WellFormed (p : Pool) : Prop where
  /-- A fragment stands on the side that it belongs to. -/
  sorted : ∀ external, ∀ f ∈ p.side external, f.external = external
  /-- No side has two fragments of the same name. -/
  distinct : ∀ external, ((p.side external).map (·.name)).Nodup

/-- An empty pool is well-formed. -/
theorem wellFormed_empty : WellFormed empty where
  sorted := fun external f hf => by
    cases external <;> exact absurd hf List.not_mem_nil
  distinct := fun external => by
    cases external <;> exact List.nodup_nil

namespace WellFormed

variable {p : Pool}

/-- A fragment is taken up by its own side, and only when its name is new there. -/
theorem add (h : p.WellFormed) (f : SourcedFragment) : (p.add f).1.WellFormed where
  sorted := fun external g hg => by
    rw [side_add] at hg
    split at hg
    · next hnew =>
      rcases List.mem_append.mp hg with hold | hf
      · exact h.sorted external g hold
      · rw [List.mem_singleton.mp hf]
        exact hnew.1
    · exact h.sorted external g hg
  distinct := fun external => by
    rw [side_add]
    split
    · next hnew =>
      rw [List.map_append, List.map_singleton, ← List.concat_eq_append]
      refine (h.distinct external).concat fun hname => ?_
      obtain ⟨g, hg, hgname⟩ := List.mem_map.mp hname
      exact List.find?_eq_none.mp hnew.2 g hg (by simpa using hgname)
    · exact h.distinct external

/-- So is what comes of several offers, by induction on them. -/
theorem addAll : ∀ {p : Pool} (offered : List SourcedFragment), p.WellFormed →
    (p.addAll offered).1.WellFormed
  | _, [], h => h
  | _, f :: rest, h => addAll rest (h.add f)

/-- And whatever offers a pool has had, it is well-formed. -/
theorem collected (history : List Offer) : (collected history).WellFormed := by
  unfold Fragment.collected
  rw [(run_eq_addAll empty history).1]
  exact addAll (offered history) wellFormed_empty

theorem nodup_merged (h : p.WellFormed) : (p.merged.fragments.map (·.name)).Nodup :=
  Pool.nodup_merged (h.distinct false) (h.distinct true)

end WellFormed

/-! ## The merged set -/

/-- The fragment counts: it is a local one, or an external one whose name no local one has. -/
def Supplies (p : Pool) (f : SourcedFragment) : Prop :=
  f ∈ p.locals ∨ f ∈ p.externals ∧ ∀ g ∈ p.locals, g.name ≠ f.name

/-- A fragment that counts and has the name `u` spreads `v`. -/
def Leads (p : Pool) (u v : String) : Prop :=
  ∃ f, p.Supplies f ∧ f.name = u ∧ SpreadsName f.definition.selections v

/-- What the fragments that count have to satisfy. -/
structure Sound (p : Pool) : Prop where
  /-- Every spread in one of them names one of them. -/
  known : ∀ f, p.Supplies f → ∀ name, SpreadsName f.definition.selections name →
    ∃ g, p.Supplies g ∧ g.name = name
  /-- No fragment leads back to itself. -/
  acyclic : ∀ f, p.Supplies f → ¬ TransGen p.Leads f.name f.name

/-- The external fragments whose name no local one has, in order. -/
def unshadowed (p : Pool) : List SourcedFragment :=
  p.externals.filter fun f => ∀ g ∈ p.locals, g.name ≠ f.name

/-- The registry holds what counts in the pool. -/
structure Represents (p : Pool) (r : Registry) : Prop where
  /-- The local fragments come first, then the external ones that are not shadowed. -/
  fragments : r.fragments = p.locals ++ p.unshadowed
  distinct : (r.fragments.map (·.name)).Nodup
  /-- Every fragment is found under its own name and nothing else is found. -/
  found : ∀ name f, r.get? name = some f ↔ f ∈ r.fragments ∧ f.name = name
  /-- Exactly the local fragments are marked as such. -/
  origin : ∀ f ∈ r.fragments, f.external = false ↔ f ∈ p.locals
  /-- Where both sides have a name, the local fragment is found. -/
  localFirst : ∀ f ∈ p.locals, r.get? f.name = some f

variable {p : Pool}

/-- The external fragments that are merged are those that are not shadowed. -/
theorem unshadowed_eq (p : Pool) : p.externals.filter (!p.isShadowed ·) = p.unshadowed := by
  refine List.filter_congr fun f _ => ?_
  rw [Bool.eq_iff_iff, Bool.not_eq_true', ← Bool.not_eq_true, isShadowed_iff]
  simp

/-- The local fragments come first, and behind them the external ones that count. -/
theorem fragments_merged (p : Pool) : p.merged.fragments = p.locals ++ p.unshadowed := by
  rw [← unshadowed_eq]
  rfl

namespace WellFormed

/-- Under a name stands the fragment that counts. -/
theorem get?_merged_iff (h : p.WellFormed) {name : String} {f : SourcedFragment} :
    p.merged.get? name = some f ↔ p.Supplies f ∧ f.name = name := by
  constructor
  · intro hf
    exact ⟨mem_merged.mp (Registry.mem_of_get? hf), Registry.name_of_get? hf⟩
  · intro ⟨hf, hname⟩
    rw [← hname]
    exact Registry.get?_of_nodup h.nodup_merged (mem_merged.mpr hf)

/-- What merged fragments spread is what the fragments that count do. -/
theorem spreads_merged (h : p.WellFormed) : p.merged.Spreads = p.Leads := by
  funext u v
  refine propext (exists_congr fun f => ?_)
  rw [h.get?_merged_iff, and_assoc]

/-- The merged registry holds what counts. -/
theorem represents_merged (h : p.WellFormed) : p.Represents p.merged where
  fragments := fragments_merged p
  distinct := h.nodup_merged
  found := fun name f => by rw [h.get?_merged_iff, mem_merged]; rfl
  origin := fun f hf => by
    constructor
    · intro hlocal
      rcases mem_merged.mp hf with hin | ⟨hin, -⟩
      · exact hin
      · have hexternal : f.external = true := h.sorted true f hin
        exact absurd (hexternal.symm.trans hlocal) (by decide)
    · exact h.sorted false f
  localFirst := fun f hf => h.get?_merged_iff.mpr ⟨.inl hf, rfl⟩

/-- The checks of the registry come to the soundness of what counts. -/
theorem sound_iff (h : p.WellFormed) : p.Sound ↔ Acyclic p.merged.Spreads ∧ p.merged.Closed := by
  rw [h.spreads_merged]
  constructor
  · intro hsound
    constructor
    · intro name hpath
      obtain ⟨v, ⟨f, hf, rfl, -⟩, -⟩ := TransGen.head'_iff.mp hpath
      exact hsound.acyclic f hf hpath
    · intro f hf name hname
      obtain ⟨g, hg, hgname⟩ := hsound.known f (mem_merged.mp hf) name hname
      exact ⟨g, h.get?_merged_iff.mpr ⟨hg, hgname⟩⟩
  · intro ⟨hacyclic, hclosed⟩
    refine ⟨fun f hf name hname => ?_, fun f _ => hacyclic f.name⟩
    obtain ⟨g, hg⟩ := hclosed f (mem_merged.mpr hf) name hname
    exact ⟨g, h.get?_merged_iff.mp hg⟩

/-- A registry comes of a pool exactly when what counts is sound. -/
theorem exists_toRegistry_iff (h : p.WellFormed) : (∃ r, p.toRegistry = .ok r) ↔ p.Sound := by
  rw [h.sound_iff]
  constructor
  · intro ⟨r, hr⟩
    exact (toRegistry_eq_ok_iff.mp hr).2
  · intro hsound
    exact ⟨p.merged, toRegistry_eq_ok_iff.mpr ⟨rfl, hsound⟩⟩

end WellFormed

/-- What comes of a pool is decided by its local fragments and by the external ones that none of them
shadows. -/
theorem toRegistry_congr {q : Pool} (hlocals : q.locals = p.locals)
    (hunshadowed : q.unshadowed = p.unshadowed) : q.toRegistry = p.toRegistry := by
  have hmerged : q.merged = p.merged :=
    congrArg Registry.mk ((fragments_merged q).trans
      ((congrArg₂ (· ++ ·) hlocals hunshadowed).trans (fragments_merged p).symm))
  unfold toRegistry
  rw [hmerged]

end Pool

/-- **From a pool to a registry.** Whatever offers a pool has had:
* either side holds the first fragments of those offered to it, in the order of the offers;
* a registry comes of it exactly when, among the local fragments and the external ones whose name no
  local one has, every spread names one of them and none leads back to itself;
* this registry holds exactly these fragments, each under its own name, the local ones first;
* every other pool with these local fragments and these unshadowed external ones, whatever stands in its
  shadowed ones, leads to the same registry or to the same errors. -/
theorem toRegistry_collected (history : List Offer) :
    (∀ external, (collected history).side external
        = firstsIn ((offered history).filter (·.external = external))) ∧
      ((∃ r, (collected history).toRegistry = .ok r) ↔ (collected history).Sound) ∧
      (∀ r, (collected history).toRegistry = .ok r → (collected history).Represents r) ∧
      ∀ other : Pool, other.locals = (collected history).locals →
        other.unshadowed = (collected history).unshadowed →
        other.toRegistry = (collected history).toRegistry := by
  have hwell := Pool.WellFormed.collected history
  refine ⟨side_collected history, hwell.exists_toRegistry_iff, fun r hr => ?_,
    fun other => Pool.toRegistry_congr⟩
  rw [(Pool.toRegistry_eq_ok_iff.mp hr).1]
  exact hwell.represents_merged

end QueryModule.Fragment
