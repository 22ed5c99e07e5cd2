import Mathlib.Data.List.Find
import QueryModule.Proofs.Fragment.Collecting

/-!
# The history of a pool

Fragments reach a pool in four ways: one at a time, with a document, with some documents put together,
or as external ones. In whatever order this happens, and however often a fragment has been refused
before, a pool is determined by the sequence of fragments that it has been offered. Either side holds
the first fragment of every name, in the order in which they have been offered (`side_collected`), and
an offer that is refused in part adds the rest of it as if the refused fragments were not there
(`side_collected_concat`).

> `collected_of_history`: what a pool holds and what it has reported, for every history of offers.
-/

namespace QueryModule.Fragment

open QueryModule.Graphql

/-! ## Offers -/

/-- A way in which fragments are offered to a pool. -/
inductive Offer where
  /-- A fragment, for the side that it belongs to. -/
  | fragment (f : SourcedFragment)
  /-- The definitions of a document, whose fragments become local ones. -/
  | document (definitions : List Definition) (file : Option String)
  /-- Documents put together, whose fragments become local ones. -/
  | documents (sources : List SourceDocument)
  /-- Fragments that become external ones, whatever they have been before. -/
  | externals (fragments : List SourcedFragment)

namespace Offer

/-- The pool with what it takes up of the offer, and the errors about what it refuses. -/
def addTo (p : Pool) : Offer → Pool × List FragmentError
  | fragment f => p.add f
  | document definitions file => p.addDefinitions (definitions.map (⟨·, file⟩))
  | documents sources => p.addDefinitions (combine sources)
  | externals fragments => p.addExternals fragments

/-- The fragments that are offered, in order: each one with the file that it comes from, and as a
fragment of the side that it is offered to. -/
def fragments : Offer → List SourcedFragment
  | fragment f => [f]
  | document definitions file =>
    (definitions.filterMap Definition.fragment?).map (⟨·, file, false⟩)
  | documents sources => sources.flatMap fun d =>
    ((d.definitions.getD []).filterMap Definition.fragment?).map (⟨·, d.file, false⟩)
  | externals fragments => fragments.map fun f => ⟨f.definition, f.file, true⟩

/-- The fragments of a document are local, and their file is that of the document. -/
theorem fragmentsOf_map (definitions : List Definition) (file : Option String) :
    fragmentsOf false (definitions.map (⟨·, file⟩))
      = (definitions.filterMap Definition.fragment?).map (⟨·, file, false⟩) := by
  unfold fragmentsOf
  rw [List.filterMap_map, List.map_filterMap]
  rfl

theorem fragmentsOf_combine (documents : List SourceDocument) :
    fragmentsOf false (combine documents) = documents.flatMap fun d =>
      ((d.definitions.getD []).filterMap Definition.fragment?).map (⟨·, d.file, false⟩) := by
  unfold combine
  rw [fragmentsOf, List.filterMap_flatMap]
  exact List.flatMap_congr fun d _ => fragmentsOf_map (d.definitions.getD []) d.file

/-- All four ways come to offering the fragments one after the other. -/
theorem addTo_eq (p : Pool) (o : Offer) : o.addTo p = p.addAll o.fragments := by
  cases o with
  | fragment f =>
    show p.add f = ((p.add f).1, (p.add f).2 ++ [])
    rw [List.append_nil]
  | document definitions file => rw [fragments, ← fragmentsOf_map]; rfl
  | documents sources => rw [fragments, ← fragmentsOf_combine]; rfl
  | externals fragments => rfl

end Offer

/-- A pool after some offers, and the errors that each of them has been answered with. -/
def Pool.run (p : Pool) : List Offer → Pool × List (List FragmentError)
  | [] => (p, [])
  | o :: rest =>
    let (p, errors) := o.addTo p
    let (p, more) := p.run rest
    (p, errors :: more)

/-- The pool that has been offered nothing but what the history says. -/
def collected (history : List Offer) : Pool := (Pool.empty.run history).1

/-- The errors of each offer. -/
def reported (history : List Offer) : List (List FragmentError) := (Pool.empty.run history).2

/-- All fragments that have been offered, in order. -/
def offered (history : List Offer) : List SourcedFragment := history.flatMap Offer.fragments

/-- The fragments that no other one of their name and side stands in front of. -/
def firstsIn (offered : List SourcedFragment) : List SourcedFragment :=
  offered.zipIdx.filterMap fun (f, i) =>
    if ((offered.take i).find? f.sameKey).isSome then none else some f

/-- The same for fragments that are offered behind others. -/
def firstsBehind (before offered : List SourcedFragment) : List SourcedFragment :=
  offered.zipIdx.filterMap fun (f, i) =>
    if ((before ++ offered.take i).find? f.sameKey).isSome then none else some f

theorem firstsBehind_cons (before : List SourcedFragment) (f : SourcedFragment)
    (rest : List SourcedFragment) :
    firstsBehind before (f :: rest)
      = (if (before.find? f.sameKey).isSome then none else some f).toList
        ++ firstsBehind (before ++ [f]) rest :=
  filterMap_zipIdx_cons (fun front (g : SourcedFragment) =>
    if (front.find? g.sameKey).isSome then none else some g) before f rest

/-- Whether a fragment is the first of its name and side is seen from the fragments of its side. -/
theorem filter_firstsBehind (external : Bool) : ∀ before offered : List SourcedFragment,
    (firstsBehind before offered).filter (·.external = external)
      = firstsBehind (before.filter (·.external = external)) (offered.filter (·.external = external))
  | before, [] => rfl
  | before, f :: rest => by
    have hcons : (f :: rest).filter (·.external = external)
        = [f].filter (·.external = external) ++ rest.filter (·.external = external) :=
      List.filter_append [f] rest
    rw [firstsBehind_cons, List.filter_append, filter_firstsBehind external (before ++ [f]) rest,
      List.filter_append, hcons]
    by_cases hf : f.external = external
    · -- What `f` is compared with belongs to its side.
      have hfind : (before.filter (·.external = external)).find? f.sameKey = before.find? f.sameKey := by
        rw [List.find?_filter]
        refine List.find?_congr fun g _ => ?_
        unfold SourcedFragment.sameKey
        cases g.external <;> cases external <;> simp_all
      have hsingle : [f].filter (·.external = external) = [f] := List.filter_eq_self.mpr (by simpa using hf)
      rw [hsingle, List.singleton_append, firstsBehind_cons, hfind]
      congr 1
      split
      · rfl
      · exact hsingle
    · have hsingle : [f].filter (·.external = external) = [] :=
        List.filter_eq_nil_iff.mpr (by simpa using hf)
      rw [hsingle, List.append_nil, List.nil_append]
      split
      · rfl
      · rw [Option.toList_some, hsingle, List.nil_append]

/-! ## What an offer changes -/

namespace Pool

/-- Of the offered fragments a side takes up those that are the first of their name. -/
theorem side_addAll (external : Bool) :
    ∀ {p : Pool} {before : List SourcedFragment} (offered : List SourcedFragment), p.Holds before →
      (p.addAll offered).1.side external
        = p.side external ++ (firstsBehind before offered).filter (·.external = external)
  | p, before, [], _ => (List.append_nil _).symm
  | p, before, f :: rest, h => by
    show ((p.add f).1.addAll rest).1.side external = _
    rw [side_addAll external rest (h.add f), side_add, firstsBehind_cons, List.filter_append,
      ← List.append_assoc]
    congr 1
    by_cases hf : f.external = external
    · rw [← hf, h f]
      cases before.find? f.sameKey with
      | none => simp
      | some first => simp
    · rw [if_neg fun hin => hf hin.1]
      split
      · simp
      · simp [hf]

theorem addAll_append (back : List SourcedFragment) : ∀ (p : Pool) (front : List SourcedFragment),
    p.addAll (front ++ back)
      = (((p.addAll front).1.addAll back).1, (p.addAll front).2 ++ ((p.addAll front).1.addAll back).2)
  | p, [] => rfl
  | p, f :: front => by
    rw [List.cons_append, addAll, addAll]
    dsimp only
    rw [addAll_append back _ front, List.append_assoc]

/-- A pool does not see where one offer ends and the next one starts. -/
theorem run_eq_addAll : ∀ (p : Pool) (history : List Offer),
    (p.run history).1 = (p.addAll (offered history)).1 ∧
      (p.run history).2.flatten = (p.addAll (offered history)).2
  | p, [] => ⟨rfl, rfl⟩
  | p, o :: rest => by
    obtain ⟨hpool, herrors⟩ := run_eq_addAll (o.addTo p).1 rest
    have hoffered : offered (o :: rest) = o.fragments ++ offered rest := List.flatMap_cons
    rw [Offer.addTo_eq] at hpool herrors
    rw [hoffered, addAll_append, run]
    dsimp only
    rw [Offer.addTo_eq, hpool, List.flatten_cons, herrors]
    exact ⟨rfl, rfl⟩

theorem run_concat (o : Offer) : ∀ (p : Pool) (history : List Offer),
    p.run (history ++ [o])
      = ((o.addTo (p.run history).1).1, (p.run history).2 ++ [(o.addTo (p.run history).1).2])
  | p, [] => rfl
  | p, first :: rest => by
    rw [List.cons_append, run, run]
    dsimp only
    rw [run_concat o _ rest]
    rfl

end Pool

/-! ## What a history comes to -/

section

variable (history : List Offer)

/-- After every history the pool holds what has been offered first. -/
theorem holds_collected : (collected history).Holds (offered history) := by
  unfold collected
  rw [(Pool.run_eq_addAll Pool.empty history).1]
  exact Pool.holds_addAll (offered history) Pool.holds_empty

/-- Either side holds the first fragments of those that have been offered to it. -/
theorem side_collected (external : Bool) :
    (collected history).side external = firstsIn ((offered history).filter (·.external = external)) := by
  have hempty : Pool.empty.side external = [] := by cases external <;> rfl
  unfold collected
  rw [(Pool.run_eq_addAll Pool.empty history).1,
    Pool.side_addAll external (offered history) Pool.holds_empty, hempty, filter_firstsBehind]
  rfl

/-- All that has been reported is the duplicates. -/
theorem flatten_reported : (reported history).flatten = duplicatesIn (offered history) := by
  unfold reported
  rw [(Pool.run_eq_addAll Pool.empty history).2,
    Pool.errors_addAll (offered history) Pool.holds_empty, duplicatesBehind_nil]

/-- A next offer adds its first fragments to their sides. -/
theorem side_collected_concat (o : Offer) (external : Bool) :
    (collected (history ++ [o])).side external = (collected history).side external
      ++ (firstsBehind (offered history) o.fragments).filter (·.external = external) := by
  have hnext : collected (history ++ [o]) = ((collected history).addAll o.fragments).1 := by
    unfold collected
    rw [Pool.run_concat, Offer.addTo_eq]
  rw [hnext, Pool.side_addAll external o.fragments (holds_collected history)]

/-- A next offer is answered with its duplicates. -/
theorem reported_concat (o : Offer) :
    reported (history ++ [o])
      = reported history ++ [duplicatesBehind (offered history) o.fragments] := by
  have hnext : reported (history ++ [o])
      = reported history ++ [((collected history).addAll o.fragments).2] := by
    unfold reported collected
    rw [Pool.run_concat, Offer.addTo_eq]
  rw [hnext, Pool.errors_addAll o.fragments (holds_collected history)]

end

/-- A pool is its two sides. -/
theorem Pool.ext_side {p q : Pool} (h : ∀ external, p.side external = q.side external) : p = q := by
  have hlocals : p.locals = q.locals := h false
  have hexternals : p.externals = q.externals := h true
  cases p
  cases q
  exact congrArg₂ Pool.mk hlocals hexternals

/-- **History of a pool.** Whatever offers a pool has had, in whatever order and however often it has
refused something:
* it holds under every name what either side has been offered first under it;
* either side consists of the first fragments of those offered to it, in the order of the offers;
* the errors of the whole run are one for each offered fragment that is not the first of its name and
  side, in order, and each names the location of the one that is held and its own;
* a further offer is answered with the errors of its duplicates, and adds all its other fragments to
  their sides and nothing else;
* a history that offers the same fragments to either side in the same order leads to the same pool,
  however the offers to the two sides follow each other. -/
theorem collected_of_history (history : List Offer) :
    (∀ external name, ((collected history).side external).find? (·.name = name)
        = (offered history).find? fun f => f.name = name && f.external = external) ∧
      (∀ external, (collected history).side external
        = firstsIn ((offered history).filter (·.external = external))) ∧
      (reported history).flatten = duplicatesIn (offered history) ∧
      (∀ o : Offer,
        reported (history ++ [o])
            = reported history ++ [duplicatesBehind (offered history) o.fragments] ∧
          ∀ external, (collected (history ++ [o])).side external = (collected history).side external
            ++ (firstsBehind (offered history) o.fragments).filter (·.external = external)) ∧
      ∀ other : List Offer,
        (∀ external, (offered other).filter (·.external = external)
          = (offered history).filter (·.external = external)) →
        collected other = collected history := by
  refine ⟨fun external name => ?_, side_collected history, flatten_reported history,
    fun o => ⟨reported_concat history o, side_collected_concat history o⟩, fun other h => ?_⟩
  · exact holds_collected history ⟨⟨name, "", .start, [], []⟩, none, external⟩
  · refine Pool.ext_side fun external => ?_
    rw [side_collected, side_collected, h external]

end QueryModule.Fragment
