import QueryModule.Fragment.Pool
import Mathlib.Data.List.Nodup

/-!
# Collecting fragments

A pool is filled by offering fragments to it one after the other. What it holds then and what it has
refused depend on the offered fragments alone: of all fragments of one name and one side (local or
external) the first is held, and every later one is refused with an error that names both.

`duplicatesIn` states these errors by position. `errors_addAll` says that a pool gives them whatever
mixture of sides is offered, and `addAll_of_errors_eq_nil` what a pool holds that has refused nothing.
-/

namespace QueryModule.Fragment

open QueryModule.Graphql

/-- The fragments have the same name and belong to the same side. -/
def SourcedFragment.sameKey (f g : SourcedFragment) : Bool :=
  g.name = f.name && g.external = f.external

/-- The error that `f` is offered behind `first`. -/
def SourcedFragment.duplicateOf (f first : SourcedFragment) : FragmentError :=
  .duplicateDefinition f.name first.location f.location

/-- An error for each fragment that stands behind another of its name and side; it names the first
one of these. -/
def duplicatesIn (offered : List SourcedFragment) : List FragmentError :=
  offered.zipIdx.filterMap fun (f, i) =>
    ((offered.take i).find? f.sameKey).map f.duplicateOf

/-- The same for fragments that are offered behind others. -/
def duplicatesBehind (before offered : List SourcedFragment) : List FragmentError :=
  offered.zipIdx.filterMap fun (f, i) =>
    ((before ++ offered.take i).find? f.sameKey).map f.duplicateOf

/-- What is made of every element of a list and the elements in front of it. -/
theorem filterMap_zipIdx_cons {α β : Type} (make : List α → α → Option β) (before : List α) (a : α)
    (rest : List α) :
    ((a :: rest).zipIdx.filterMap fun x => make (before ++ (a :: rest).take x.2) x.1)
      = (make before a).toList
        ++ rest.zipIdx.filterMap fun x => make (before ++ [a] ++ rest.take x.2) x.1 := by
  -- Behind `a` all indices are one higher, and `a` is one of the elements in front.
  have hrest : (rest.zipIdx.filterMap
        ((fun (x : α × Nat) => make (before ++ (a :: rest).take x.2) x.1) ∘ fun x => (x.1, x.2 + 1)))
      = rest.zipIdx.filterMap fun x => make (before ++ [a] ++ rest.take x.2) x.1 := by
    refine List.filterMap_congr fun x _ => ?_
    show make (before ++ (a :: rest).take (x.2 + 1)) x.1 = _
    rw [List.take_succ_cons, List.append_cons]
  rw [List.zipIdx_cons, List.zipIdx_succ, List.filterMap_cons, List.filterMap_map, hrest]
  simp only [List.take_zero, List.append_nil]
  cases make before a with
  | none => rfl
  | some b => rfl

theorem duplicatesBehind_nil (offered : List SourcedFragment) :
    duplicatesBehind [] offered = duplicatesIn offered := rfl

/-- The first of several offers is a duplicate of those before it only, and the others also of it. -/
theorem duplicatesBehind_cons (before : List SourcedFragment) (f : SourcedFragment)
    (rest : List SourcedFragment) :
    duplicatesBehind before (f :: rest)
      = ((before.find? f.sameKey).map f.duplicateOf).toList
        ++ duplicatesBehind (before ++ [f]) rest :=
  filterMap_zipIdx_cons (fun front (g : SourcedFragment) => (front.find? g.sameKey).map g.duplicateOf)
    before f rest

/-! ## No duplicates -/

/-- What two fragments may not have in common. -/
def SourcedFragment.key (f : SourcedFragment) : Bool × String := (f.external, f.name)

/-- Fragments have the same key when their names and their sides are equal. -/
theorem sameKey_iff {f g : SourcedFragment} : f.sameKey g = true ↔ g.key = f.key := by
  unfold SourcedFragment.sameKey SourcedFragment.key
  rw [Bool.and_eq_true, decide_eq_true_eq, decide_eq_true_eq, Prod.mk.injEq, and_comm]

/-- None is found when no other one has the key. -/
theorem find?_sameKey_eq_none {f : SourcedFragment} {l : List SourcedFragment} :
    l.find? f.sameKey = none ↔ f.key ∉ l.map (·.key) := by
  rw [List.find?_eq_none, List.mem_map]
  constructor
  · intro h ⟨g, hg, hkey⟩
    exact h g hg (sameKey_iff.mpr hkey)
  · intro h g hg hsame
    exact h ⟨g, hg, sameKey_iff.mp hsame⟩

/-- Behind fragments with different keys, nothing is a duplicate when all keys are different. The
induction takes the first offer to those in front. -/
theorem duplicatesBehind_eq_nil_iff :
    ∀ {before offered : List SourcedFragment}, (before.map (·.key)).Nodup →
      (duplicatesBehind before offered = [] ↔ ((before ++ offered).map (·.key)).Nodup)
  | before, [], h => by
    rw [List.append_nil]
    exact ⟨fun _ => h, fun _ => rfl⟩
  | before, f :: rest, h => by
    rw [duplicatesBehind_cons, List.append_eq_nil_iff, List.append_cons before f rest]
    by_cases hfresh : f.key ∈ before.map (·.key)
    · -- `f` is a duplicate: neither side can hold.
      constructor
      · intro ⟨hnone, _⟩
        cases hfind : before.find? f.sameKey with
        | none => exact absurd hfresh (find?_sameKey_eq_none.mp hfind)
        | some first =>
          rw [hfind] at hnone
          exact absurd hnone (by simp)
      · intro hnodup
        rw [List.map_append, List.map_append, List.nodup_append, List.nodup_append] at hnodup
        exact absurd rfl (hnodup.1.2.2 f.key hfresh f.key (by simp))
    · have hbefore : ((before ++ [f]).map (·.key)).Nodup := by
        rw [List.map_append, List.map_singleton, ← List.concat_eq_append]
        exact h.concat hfresh
      rw [find?_sameKey_eq_none.mpr hfresh, duplicatesBehind_eq_nil_iff hbefore]
      exact ⟨fun h => h.2, fun h => ⟨rfl, h⟩⟩

/-- Nothing is a duplicate when no two fragments have the same name and side. -/
theorem duplicatesIn_eq_nil_iff {offered : List SourcedFragment} :
    duplicatesIn offered = [] ↔ (offered.map (·.key)).Nodup := by
  rw [← duplicatesBehind_nil]
  exact duplicatesBehind_eq_nil_iff List.nodup_nil

/-! ## What a pool holds, and what it refuses -/

namespace Pool

/-- The local or the external fragments. -/
def side (p : Pool) (external : Bool) : List SourcedFragment :=
  if external then p.externals else p.locals

/-- The pool holds under every name what was offered first under it. -/
def Holds (p : Pool) (offered : List SourcedFragment) : Prop :=
  ∀ f : SourcedFragment, (p.side f.external).find? (·.name = f.name) = offered.find? f.sameKey

/-- An empty pool holds what has been offered: nothing. -/
theorem holds_empty : Holds empty [] := by
  intro f
  unfold side
  split
  · rfl
  · rfl

/-- The pool refuses a fragment when one of its name and side has been offered before. -/
theorem Holds.errors_add {p : Pool} {offered : List SourcedFragment} (h : p.Holds offered)
    (f : SourcedFragment) :
    (p.add f).2 = ((offered.find? f.sameKey).map f.duplicateOf).toList := by
  rw [← h f]
  unfold add side
  cases f.external with
  | false =>
    simp only [Bool.false_eq_true, if_false]
    cases p.locals.find? (·.name = f.name) with
    | none => rfl
    | some first => rfl
  | true =>
    simp only [if_true]
    cases p.externals.find? (·.name = f.name) with
    | none => rfl
    | some first => rfl

/-- A pool takes a fragment up at the end of its side, unless the side has one of its name. -/
theorem side_add (p : Pool) (f : SourcedFragment) (external : Bool) :
    (p.add f).1.side external =
      if f.external = external ∧ (p.side external).find? (·.name = f.name) = none then
        p.side external ++ [f]
      else p.side external := by
  unfold add side
  cases hf : f.external with
  | false =>
    simp only [Bool.false_eq_true, if_false]
    cases external with
    | false => cases hfind : p.locals.find? (·.name = f.name) <;> simp [hfind]
    | true => cases hfind : p.locals.find? (·.name = f.name) <;> simp
  | true =>
    simp only [if_true]
    cases external with
    | false => cases hfind : p.externals.find? (·.name = f.name) <;> simp
    | true => cases hfind : p.externals.find? (·.name = f.name) <;> simp [hfind]

/-- One more offer is held if it is the first of its name and side. -/
theorem Holds.add {p : Pool} {offered : List SourcedFragment} (h : p.Holds offered)
    (f : SourcedFragment) : (p.add f).1.Holds (offered ++ [f]) := by
  intro g
  rw [side_add, List.find?_append]
  by_cases hkey : g.sameKey f = true
  · have hside : f.external = g.external ∧ f.name = g.name := by
      simpa [SourcedFragment.sameKey, and_comm] using hkey
    rw [hside.1, hside.2, List.find?_singleton, if_pos hkey, ← h g]
    cases hfind : (p.side g.external).find? (·.name = g.name) with
    | some first => simp [hfind]
    | none => simp [hfind, hside.2, List.find?_append]
  · -- `f` is not what `g` would meet, whether it is taken up or not.
    rw [List.find?_singleton, if_neg hkey, Option.or_none, ← h g]
    split
    · next hin =>
      have hname : f.name ≠ g.name := fun hname => hkey (by
        simp [SourcedFragment.sameKey, hname, hin.1])
      rw [List.find?_append, List.find?_singleton, if_neg (by simpa using hname), Option.or_none]
    · rfl

/-- The errors of a run are those of the fragments that are not the first of their name and side. -/
theorem errors_addAll : ∀ {p : Pool} {before : List SourcedFragment} (offered : List SourcedFragment),
    p.Holds before → (p.addAll offered).2 = duplicatesBehind before offered
  | p, before, [], _ => rfl
  | p, before, f :: rest, h => by
    show (p.add f).2 ++ ((p.add f).1.addAll rest).2 = _
    rw [h.errors_add f, errors_addAll rest (h.add f), duplicatesBehind_cons]

/-- And so are several. -/
theorem holds_addAll : ∀ {p : Pool} {before : List SourcedFragment} (offered : List SourcedFragment),
    p.Holds before → (p.addAll offered).1.Holds (before ++ offered)
  | p, before, [], h => by
    rw [List.append_nil]
    exact h
  | p, before, f :: rest, h => by
    rw [List.append_cons]
    exact holds_addAll rest (h.add f)

/-- A fragment that is not refused is taken up. -/
theorem add_of_errors_eq_nil {p : Pool} {f : SourcedFragment} (h : (p.add f).2 = []) :
    (p.add f).1 =
      if f.external then { p with externals := p.externals ++ [f] }
      else { p with locals := p.locals ++ [f] } := by
  unfold add at h ⊢
  cases hfind : (if f.external then p.externals else p.locals).find? (·.name = f.name) with
  | some first =>
    simp only [hfind] at h
    exact absurd h (by simp)
  | none =>
    simp only [hfind]
    split
    · rfl
    · rfl

/-- A run without errors adds all fragments, each to its side. -/
theorem addAll_of_errors_eq_nil : ∀ {p : Pool} {offered : List SourcedFragment},
    (p.addAll offered).2 = [] →
      (p.addAll offered).1 =
        ⟨p.locals ++ offered.filter (!·.external), p.externals ++ offered.filter (·.external)⟩
  | p, [], _ => by simp [addAll]
  | p, f :: rest, h => by
    have h' : (p.add f).2 ++ ((p.add f).1.addAll rest).2 = [] := h
    obtain ⟨hadd, hrest⟩ := List.append_eq_nil_iff.mp h'
    show ((p.add f).1.addAll rest).1 = _
    rw [addAll_of_errors_eq_nil hrest, add_of_errors_eq_nil hadd]
    cases hf : f.external with
    | false => simp [hf]
    | true => simp [hf]

end Pool

end QueryModule.Fragment
