import Mathlib
import QueryModule.Proofs.Fragment.Agreement
import QueryModule.Proofs.Fragment.Registering

/-!
# What stands in front of what

That `a` stands in front of `b` in a list is written `[a, b] <+ l`: the list has the two of them in
this order, with whatever else around them. In a list without repetitions that is a strict order of
its members (`pair_sublist_or`, `not_pair_sublist_swap`).

The order in which a search leaves names is such a list. In a graph without circles a name stands
behind everything that it leads to, however many spreads lie between (`pair_sublist_finishOrder`). The
fragments that are found under the names inherit the order (`exists_pair_sublist`). What this asks of a
registry is collected in `Lawful`, and every registry that comes of a pool satisfies it.
-/

namespace QueryModule.Fragment

open QueryModule.Graphql
open Relation (TransGen ReflTransGen)
open scoped List

/-! ## Lists -/

section

variable {α : Type} {l : List α} {a b c : α}

/-- One member stands in front of another when the other one stands behind it. -/
theorem pair_sublist_iff : [a, b] <+ l ↔ ∃ front back, l = front ++ b :: back ∧ a ∈ front := by
  rw [List.cons_sublist_iff]
  constructor
  · intro ⟨front, rest, hl, ha, hb⟩
    obtain ⟨between, back, rfl⟩ := List.append_of_mem (List.singleton_sublist.mp hb)
    exact ⟨front ++ between, back, by rw [hl, List.append_assoc], List.mem_append_left _ ha⟩
  · intro ⟨front, back, hl, ha⟩
    exact ⟨front, b :: back, hl, ha, List.singleton_sublist.mpr (List.mem_cons_self ..)⟩

/-- A last member stands behind all others. -/
theorem pair_sublist_concat : [a, b] <+ l ++ [c] ↔ [a, b] <+ l ∨ a ∈ l ∧ b = c := by
  rw [List.cons_sublist_iff]
  constructor
  · intro ⟨front, rest, hl, ha, hb⟩
    have hb := List.singleton_sublist.mp hb
    rcases List.eq_nil_or_concat rest with rfl | ⟨rest', last, rfl⟩
    · exact absurd hb List.not_mem_nil
    · rw [List.concat_eq_append, ← List.append_assoc] at hl
      obtain ⟨hfront, hlast⟩ := List.append_inj' hl rfl
      obtain rfl : c = last := by simpa using hlast
      rw [List.concat_eq_append] at hb
      -- `b` stands behind `a` in the list, or is the new last member.
      rcases List.mem_append.mp hb with hin | hlast
      · left
        rw [hfront, List.cons_sublist_iff]
        exact ⟨front, rest', rfl, ha, List.singleton_sublist.mpr hin⟩
      · right
        exact ⟨by rw [hfront]; exact List.mem_append_left _ ha, List.mem_singleton.mp hlast⟩
  · intro h
    rw [← List.cons_sublist_iff]
    rcases h with h | ⟨ha, rfl⟩
    · exact h.trans (List.sublist_append_left _ _)
    · exact (List.singleton_sublist.mpr ha).append (List.Sublist.refl [b])

/-- Of two members of a list one comes first. -/
theorem pair_sublist_or (ha : a ∈ l) (hb : b ∈ l) (hne : a ≠ b) : [a, b] <+ l ∨ [b, a] <+ l := by
  obtain ⟨front, back, rfl⟩ := List.append_of_mem hb
  rcases List.mem_append.mp ha with hin | hin
  · exact Or.inl (pair_sublist_iff.mpr ⟨front, back, rfl, hin⟩)
  · right
    have hback : a ∈ back := (List.mem_cons.mp hin).resolve_left hne
    refine List.Sublist.trans ?_ (List.sublist_append_right front (b :: back))
    exact (List.singleton_sublist.mpr hback).cons_cons b

/-- Without repetitions, only one of them does. -/
theorem not_pair_sublist_swap (hnodup : l.Nodup) (h : [a, b] <+ l) : ¬ [b, a] <+ l := by
  induction l with
  | nil => exact absurd h (by simp)
  | cons c l ih =>
    obtain ⟨hc, hnodup⟩ := List.nodup_cons.mp hnodup
    intro hswap
    -- The first member can be one of the two, and then it stands nowhere else.
    rcases List.sublist_cons_iff.mp h with hin | ⟨rest, heq, hrest⟩
    · rcases List.sublist_cons_iff.mp hswap with hin' | ⟨rest', heq', -⟩
      · exact ih hnodup hin hin'
      · obtain ⟨rfl, -⟩ := List.cons.inj heq'
        exact hc (hin.subset (by simp))
    · obtain ⟨rfl, rfl⟩ := List.cons.inj heq
      rcases List.sublist_cons_iff.mp hswap with hin' | ⟨rest', heq', -⟩
      · exact hc (hin'.subset (by simp))
      · obtain ⟨rfl, -⟩ := List.cons.inj heq'
        exact hc (List.singleton_sublist.mp hrest)

end

/-! ## The order of leaving -/

namespace SpreadGraph

variable {g : SpreadGraph} {roots : List String} {u v : String}

/-- In a graph without circles a name stands behind everything known that it leads to. -/
theorem pair_sublist_finishOrder (hacyclic : Acyclic g.Edge) (hu : u ∈ g.finishOrder roots)
    (hpath : TransGen g.Edge u v) (hk : g.Knows v) : [v, u] <+ g.finishOrder roots := by
  obtain ⟨front, back, hsplit⟩ := List.append_of_mem hu
  rw [pair_sublist_iff]
  refine ⟨front, back, hsplit, ?_⟩
  -- Along the path: what is in front of `u` has its own spreads in front of it.
  induction hpath with
  | single hedge => exact mem_front_of_acyclic hacyclic hsplit hedge hk
  | @tail w v _ hedge ih =>
    obtain ⟨front', back', hfront⟩ := List.append_of_mem (ih hedge.knows)
    have hsplit' : g.finishOrder roots = front' ++ w :: (back' ++ u :: back) := by
      rw [hsplit, hfront, List.append_assoc, List.cons_append]
    rw [hfront]
    exact List.mem_append_left _ (mem_front_of_acyclic hacyclic hsplit' hedge hk)

end SpreadGraph

namespace Registry

variable {r : Registry} {names : List String}

/-- Fragments found under some names stand in the order of the names. -/
theorem pair_sublist_filterMap_get? {f g : SourcedFragment} (hf : r.get? f.name = some f)
    (hg : r.get? g.name = some g) (h : [f.name, g.name] <+ names) :
    [f, g] <+ names.filterMap r.get? := by
  have hpair : [f.name, g.name].filterMap r.get? = [f, g] := by
    rw [List.filterMap_cons, hf, List.filterMap_cons, hg]
    rfl
  rw [← hpair]
  exact h.filterMap r.get?

/-- The graph of a registry knows the names in the order of registration. -/
theorem names_graph (r : Registry) : r.graph.names = r.fragments.map (·.name) := by
  unfold graph SpreadGraph.names
  rw [List.map_map]
  rfl

theorem transGen_graph {u v : String} : TransGen r.graph.Edge u v ↔ TransGen r.Spreads u v := by
  rw [edge_graph_eq]

/-- What can be relied on in a registry that has been checked. -/
structure Lawful (r : Registry) : Prop where
  distinct : (r.fragments.map (·.name)).Nodup
  acyclic : Acyclic r.Spreads
  closed : r.Closed

namespace Lawful

variable {roots : List String}

/-- A registry that comes of a pool is lawful. -/
theorem of_toRegistry {history : List Offer} (h : (collected history).toRegistry = .ok r) :
    r.Lawful := by
  obtain ⟨rfl, hacyclic, hclosed⟩ := Pool.toRegistry_eq_ok_iff.mp h
  exact ⟨(Pool.WellFormed.collected history).nodup_merged, hacyclic, hclosed⟩

/-- Registered fragments lead to registered names only. -/
theorem get?_of_transGen (h : r.Lawful) {u v : String} (hpath : TransGen r.Spreads u v) :
    ∃ f, r.get? v = some f := by
  obtain ⟨w, -, f, hf, hv⟩ := TransGen.tail'_iff.mp hpath
  exact h.closed f (mem_of_get? hf) v hv

/-- A fragment that a search has found stands behind each fragment that it leads to. -/
theorem exists_pair_sublist (h : r.Lawful) {f : SourcedFragment}
    (hf : f ∈ (r.graph.finishOrder roots).filterMap r.get?) {name : String}
    (hpath : TransGen r.Spreads f.name name) :
    ∃ g, g.name = name ∧ [g, f] <+ (r.graph.finishOrder roots).filterMap r.get? := by
  obtain ⟨hname, hget⟩ := mem_filterMap_get?.mp hf
  obtain ⟨g, hg⟩ := h.get?_of_transGen hpath
  obtain rfl := name_of_get? hg
  refine ⟨g, rfl, pair_sublist_filterMap_get? hg hget ?_⟩
  exact SpreadGraph.pair_sublist_finishOrder (acyclic_spreads_iff.mp h.acyclic) hname
    (transGen_graph.mpr hpath) (knows_graph.mpr ⟨g, hg⟩)

end Lawful

end Registry

/-! ## A small registry -/

/-- A fragment of the given name that spreads some names. -/
def spreading (name : String) (spreads : List String) (external : Bool) : SourcedFragment :=
  ⟨⟨name, "T", .start, [], spreads.map fun spread => .spread .start spread []⟩, none, external⟩

/-- `A` spreads `C`, which is registered behind `B`. All of them lead to the external `E`. -/
def sharingOffers : List Offer :=
  [.fragment (spreading "A" ["C", "B"] false), .fragment (spreading "B" ["E"] false),
    .fragment (spreading "C" ["E", "E"] false), .externals [spreading "E" [] true]]

theorem toRegistry_sharingOffers :
    (collected sharingOffers).toRegistry = .ok (collected sharingOffers).merged := by cbv

end QueryModule.Fragment
