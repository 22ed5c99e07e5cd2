import QueryModule.Proofs.Fragment.Precedence

/-!
# All fragments in order

A registry lists its fragments so that each one stands behind all that it leads to. Many orders do
that. The one that is taken keeps to the order of registration as far as it can: a fragment is taken
before its turn only when one whose turn has come leads to it.

The reason is that a search does its roots in order. What it has left by the time that it has done the
roots up to `a` is the front of what it leaves in the end, and `a` is in this front
(`finishOrder_append`). Whatever stands before `a` has thus been reached from a root no later than `a`.

> `spreadOrder_topological`
-/

namespace QueryModule.Fragment

open QueryModule.Graphql
open Relation (TransGen ReflTransGen)
open scoped List

/-- What a search leaves before one of its roots is reached from that root or from one in front. -/
theorem SpreadGraph.reached_of_pair_sublist {g : SpreadGraph} {front back : List String}
    {a b : String} (hk : g.Knows a)
    (h : [b, a] <+ g.finishOrder (front ++ [a] ++ back)) : g.Reached (front ++ [a]) b := by
  obtain ⟨more, hmore⟩ := g.finishOrder_append (front ++ [a]) back
  have ha : a ∈ g.finishOrder (front ++ [a]) :=
    mem_finishOrder.mpr ⟨hk, a, by simp, .refl⟩
  have hnodup := nodup_finishOrder g (front ++ [a] ++ back)
  rw [hmore] at h hnodup
  have hb : b ∈ g.finishOrder (front ++ [a]) := by
    rcases List.mem_append.mp (h.subset (List.mem_cons_self ..)) with hin | hin
    · exact hin
    · -- Behind the front `b` would stand behind `a`, and not before it.
      have hswap : [a, b] <+ g.finishOrder (front ++ [a]) ++ more :=
        (List.singleton_sublist.mpr ha).append (List.singleton_sublist.mpr hin)
      exact absurd h (not_pair_sublist_swap hnodup hswap)
  exact (mem_finishOrder.mp hb).2

namespace Registry.Lawful

variable {r : Registry} {a b : SourcedFragment}

/-- A fragment that is taken before its turn is one that a fragment whose turn has come leads to. -/
theorem exists_leading (h : r.Lawful) (hregistered : [a, b] <+ r.fragments)
    (horder : [b, a] <+ r.spreadOrder) :
    ∃ c, (c = a ∨ [c, a] <+ r.fragments) ∧ TransGen r.Spreads c.name b.name := by
  have ha : a ∈ r.fragments := hregistered.subset (by simp)
  -- The search takes the fragments as they are registered; up to `a` these are its first roots.
  obtain ⟨front, back, hsplit⟩ := List.append_of_mem ha
  have hnames : r.graph.names = front.map (·.name) ++ [a.name] ++ back.map (·.name) := by
    rw [names_graph, hsplit]
    simp
  have hpair : [b.name, a.name] <+ r.graph.finishOrder r.graph.names := by
    rw [← map_name_spreadOrder]
    exact horder.map (·.name)
  rw [hnames] at hpair
  -- What is left in front of `a` comes from one of them.
  obtain ⟨root, hroot, hpath⟩ := SpreadGraph.reached_of_pair_sublist
    (knows_graph.mpr ⟨a, get?_of_nodup h.distinct ha⟩) hpair
  have hroot' : root ∈ (front ++ [a]).map (·.name) := by simpa using hroot
  obtain ⟨c, hc, rfl⟩ := List.mem_map.mp hroot'
  have hturn : c = a ∨ [c, a] <+ r.fragments := by
    rcases List.mem_append.mp hc with hin | hin
    · exact Or.inr (pair_sublist_iff.mpr ⟨front, back, hsplit, hin⟩)
    · exact Or.inl (List.mem_singleton.mp hin)
  refine ⟨c, hturn, ?_⟩
  rcases Relation.reflTransGen_iff_eq_or_transGen.mp hpath with heq | hpath'
  · -- `b` itself would be registered no later than `a`.
    have hb : b ∈ r.fragments := hregistered.subset (by simp)
    have hcr : c ∈ r.fragments := by
      rw [hsplit, List.append_cons]
      exact List.mem_append_left _ hc
    obtain rfl : b = c := List.inj_on_of_nodup_map h.distinct hb hcr heq
    have hnodup := List.Nodup.of_map _ h.distinct
    rcases hturn with rfl | hturn
    · exact absurd hregistered (List.nodup_iff_sublist.mp hnodup b)
    · exact absurd hturn (not_pair_sublist_swap hnodup hregistered)
  · exact transGen_graph.mp hpath'

end Registry.Lawful

/-- **The order of all fragments.** Whatever offers a pool has had, when a registry comes of it:
* the order lists exactly the registered fragments, and each of them once;
* whatever a fragment spreads, directly or through others, stands in front of it;
* when `b` stands in front of `a` although `a` has been registered before `b`, then a fragment that has
  been registered no later than `a` leads to `b`. -/
theorem spreadOrder_topological (history : List Offer) (r : Registry)
    (h : (collected history).toRegistry = .ok r) :
    (r.spreadOrder.Perm r.fragments ∧ (r.spreadOrder.map (·.name)).Nodup) ∧
      (∀ f ∈ r.fragments, ∀ name, TransGen r.Spreads f.name name →
        ∃ g, g.name = name ∧ [g, f] <+ r.spreadOrder) ∧
      ∀ a b, [a, b] <+ r.fragments → [b, a] <+ r.spreadOrder →
        ∃ c, (c = a ∨ [c, a] <+ r.fragments) ∧ TransGen r.Spreads c.name b.name := by
  have hlawful := Registry.Lawful.of_toRegistry h
  have hperm := Registry.spreadOrder_perm hlawful.distinct
  refine ⟨⟨hperm, r.nodup_spreadOrder⟩, fun f hf name hpath => ?_, fun a b => hlawful.exists_leading⟩
  exact hlawful.exists_pair_sublist (hperm.mem_iff.mpr hf) hpath

/-- `C` is taken before `B`, because `A` leads to it. -/
theorem spreadOrder_sharingOffers :
    (collected sharingOffers).toRegistry = .ok (collected sharingOffers).merged ∧
      (collected sharingOffers).merged.spreadOrder.map (·.name) = ["E", "C", "B", "A"] ∧
      ∃ c, (c = spreading "B" ["E"] false ∨
          [c, spreading "B" ["E"] false] <+ (collected sharingOffers).merged.fragments) ∧
        TransGen (collected sharingOffers).merged.Spreads c.name "C" := by
  have hfragments : (collected sharingOffers).merged.fragments
      = [spreading "A" ["C", "B"] false, spreading "B" ["E"] false, spreading "C" ["E", "E"] false,
        spreading "E" [] true] := by rfl
  have horder : (collected sharingOffers).merged.spreadOrder
      = [spreading "E" [] true, spreading "C" ["E", "E"] false, spreading "B" ["E"] false,
        spreading "A" ["C", "B"] false] := by cbv
  obtain ⟨-, -, hturn⟩ := spreadOrder_topological sharingOffers _ toRegistry_sharingOffers
  refine ⟨toRegistry_sharingOffers, by rw [horder]; rfl, ?_⟩
  refine hturn (spreading "B" ["E"] false) (spreading "C" ["E", "E"] false) ?_ ?_
  · rw [hfragments]
    exact ((List.Sublist.refl [_, _]).append (List.nil_sublist [_])).cons _
  · rw [horder]
    exact ((List.Sublist.refl [_, _]).append (List.nil_sublist [_])).cons _

end QueryModule.Fragment
