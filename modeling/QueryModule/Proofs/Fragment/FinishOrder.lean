import QueryModule.Proofs.Fragment.SearchInvariant

/-!
# What a search has found at its end

The names that a search leaves are the known ones that its roots lead to, each of them once
(`mem_finishOrder`, `nodup_finishOrder`). Their order is read off the invariant: a name stands behind
what it spreads, except across a spread that closes a reported loop (`ordered_finishOrder`); and since
every loop is a genuine one, there is no exception in a graph without circles
(`mem_front_of_acyclic`).

The same exception, seen from the other side, says that the search of all names misses no circle:

> `acyclic_unclosed`: without the closing spreads of the reported loops there is no circle left.
-/

namespace QueryModule.Fragment

open Relation (TransGen ReflTransGen)

/-- One of the roots leads to the name. -/
def SpreadGraph.Reached (g : SpreadGraph) (roots : List String) (name : String) : Prop :=
  ∃ root ∈ roots, ReflTransGen g.Edge root name

theorem SpreadGraph.Reached.tail {g : SpreadGraph} {roots : List String} {u v : String}
    (h : g.Reached roots u) (hedge : g.Edge u v) : g.Reached roots v := by
  obtain ⟨root, hroot, hpath⟩ := h
  exact ⟨root, hroot, hpath.tail hedge⟩

/-- A walk with a first and a last name leads from the one to the other. -/
theorem transGen_of_isChain {edge : String → String → Prop} {b : String} :
    ∀ (inner : List String) (a : String), (a :: inner ++ [b]).IsChain edge → TransGen edge a b
  | [], a, h => .single (List.isChain_cons_cons.mp h).1
  | n :: inner, a, h => by
    obtain ⟨hfirst, hrest⟩ := List.isChain_cons_cons.mp h
    exact .head hfirst (transGen_of_isChain inner n hrest)

/-- A loop leads from a name to itself. -/
theorem IsLoop.transGen {edge : String → String → Prop} {path : List String}
    (h : IsLoop edge path) : ∃ name, TransGen edge name name := by
  obtain ⟨name, inner, rfl, _, hchain⟩ := h
  exact ⟨name, transGen_of_isChain inner name hchain⟩

namespace Search

variable {g : SpreadGraph} {s t : Search} {roots : List String}

/-- Everything the search touches comes from a root, and no root that the graph knows is passed
over. -/
structure FromRoots (g : SpreadGraph) (roots : List String) (s : Search) : Prop where
  pending : ∀ n, .enter n ∈ s.pending → g.Reached roots n
  path : ∀ n ∈ s.path, g.Reached roots n
  finished : ∀ n ∈ s.finished, g.Reached roots n
  started : ∀ root ∈ roots, g.Knows root →
    .enter root ∈ s.pending ∨ root ∈ s.path ∨ root ∈ s.finished

/-- At the start everything pending is a root. -/
theorem fromRoots_start (g : SpreadGraph) (roots : List String) :
    FromRoots g roots (start roots) where
  pending := fun n hn => by
    obtain ⟨root, hroot, heq⟩ := List.mem_map.mp hn
    rw [← Task.enter.inj heq]
    exact ⟨root, hroot, .refl⟩
  path := fun n hn => absurd hn List.not_mem_nil
  finished := fun n hn => absurd hn List.not_mem_nil
  started := fun root hroot _ => Or.inl (List.mem_map_of_mem hroot)

/-- A pending task is done, or it is still pending. -/
private theorem started_of_pending {task : Task} {rest : List Task} {n : String} {P : Prop}
    (hp : s.pending = task :: rest) (h : .enter n ∈ s.pending ∨ P) :
    task = .enter n ∨ .enter n ∈ rest ∨ P := by
  rw [hp] at h
  rcases h with hin | hP
  · rcases List.mem_cons.mp hin with heq | hin'
    · exact Or.inl heq.symm
    · exact Or.inr (Or.inl hin')
  · exact Or.inr (Or.inr hP)

/-- Taking a task away keeps what comes from the roots, when it is not the last sign of a root. -/
private theorem FromRoots.drop {name : String} {rest : List Task} (h : FromRoots g roots s)
    (hp : s.pending = .enter name :: rest)
    (hdone : g.Knows name → name ∈ s.path ∨ name ∈ s.finished) (loops : List (List String)) :
    FromRoots g roots { s with pending := rest, loops := loops } where
  pending := fun n hn => h.pending n (by rw [hp]; exact List.mem_cons_of_mem _ hn)
  path := h.path
  finished := h.finished
  started := fun root hroot hk => by
    rcases started_of_pending hp (h.started root hroot hk) with heq | hrest | hseen
    · rw [Task.enter.inj heq] at hdone
      exact Or.inr (hdone hk)
    · exact Or.inl hrest
    · exact Or.inr hseen

/-- Every step keeps what comes from the roots. -/
theorem FromRoots.next (hinv : Inv g s) (h : FromRoots g roots s) (hmove : Move g s t) :
    FromRoots g roots t := by
  cases hmove with
  -- A task is taken away whose name has been seen, or is unknown.
  | skip hp hm => exact h.drop hp (fun _ => Or.inr ((hinv.marked.finished _).mp hm)) s.loops
  | close hp hm => exact h.drop hp (fun _ => Or.inl ((hinv.marked.onPath _).mp hm)) _
  | ignore hp hg => exact h.drop hp (fun hk => absurd hk (SpreadGraph.not_knows hg)) s.loops
  | @enter name rest spreads hp _ hg =>
    have hname : g.Reached roots name :=
      h.pending name (by rw [hp]; exact List.mem_cons_self ..)
    refine ⟨fun n hn => ?_, fun n hn => ?_, h.finished, fun root hroot hk => ?_⟩
    · rcases List.mem_append.mp hn with hspread | hrest
      · obtain ⟨v, hv, heq⟩ := List.mem_map.mp hspread
        rw [← Task.enter.inj heq]
        exact hname.tail ⟨spreads, hg, hv⟩
      · rcases List.mem_cons.mp hrest with heq | hrest'
        · exact absurd heq (by simp)
        · exact h.pending n (by rw [hp]; exact List.mem_cons_of_mem _ hrest')
    · rcases List.mem_cons.mp hn with rfl | hn'
      · exact hname
      · exact h.path n hn'
    · rcases started_of_pending hp (h.started root hroot hk) with heq | hrest | hseen | hseen
      · -- The root is the name that is being entered.
        exact Or.inr (Or.inl (by rw [Task.enter.inj heq]; exact List.mem_cons_self ..))
      · exact Or.inl (List.mem_append_right _ (List.mem_cons_of_mem _ hrest))
      · exact Or.inr (Or.inl (List.mem_cons_of_mem _ hseen))
      · exact Or.inr (Or.inr hseen)
  | @leave name rest hp =>
    obtain ⟨outer, hpath, htail⟩ := hinv.exists_outer hp
    refine ⟨fun n hn => ?_, fun n hn => ?_, fun n hn => ?_, fun root hroot hk => ?_⟩
    · exact h.pending n (by rw [hp]; exact List.mem_cons_of_mem _ hn)
    · rw [htail] at hn
      exact h.path n (by rw [hpath]; exact List.mem_cons_of_mem _ hn)
    · rcases List.mem_append.mp hn with hn' | hn'
      · exact h.finished n hn'
      · rw [List.mem_singleton.mp hn']
        exact h.path name (by rw [hpath]; exact List.mem_cons_self ..)
    · rw [htail]
      rcases started_of_pending hp (h.started root hroot hk) with heq | hrest | hseen | hseen
      · exact absurd heq (by simp)
      · exact Or.inl hrest
      · rw [hpath] at hseen
        rcases List.mem_cons.mp hseen with rfl | hseen'
        · -- The root is the name that is being left.
          exact Or.inr (Or.inr (List.mem_append_right _ (List.mem_cons_self ..)))
        · exact Or.inr (Or.inl hseen')
      · exact Or.inr (Or.inr (List.mem_append_left _ hseen))

/-- In a graph without circles no loop is found at any moment. -/
theorem Inv.loops_eq_nil (h : Inv g s) (hacyclic : Acyclic g.Edge) : s.loops = [] := by
  refine List.eq_nil_iff_forall_not_mem.mpr fun path hpath => ?_
  obtain ⟨name, hname⟩ := (h.genuine path hpath).transGen
  exact hacyclic name hname

/-- What a name spreads that has been left has been left, too, unless the spread has closed a loop. -/
theorem Inv.mem_finished_or_closes (h : Inv g s) {u v : String} (hu : u ∈ s.finished)
    (hedge : g.Edge u v) (hk : g.Knows v) : v ∈ s.finished ∨ Closes s.loops u v := by
  obtain ⟨front, back, hsplit⟩ := List.append_of_mem hu
  refine (h.ordered front u back hsplit v hedge hk).imp_left fun hfront => ?_
  rw [hsplit]
  exact List.mem_append_left _ hfront

/-- So at the end everything that has been left comes from them. -/
theorem fromRoots_run (g : SpreadGraph) (roots : List String) :
    FromRoots g roots ((start roots).run g) :=
  (run_induction (P := fun s => Inv g s ∧ FromRoots g roots s)
    (fun h hmove => ⟨h.1.next hmove, h.2.next h.1 hmove⟩)
    ⟨inv_start g roots, fromRoots_start g roots⟩).2

end Search

namespace SpreadGraph

open Search

variable {g : SpreadGraph} {roots : List String}

/-! ## The order of leaving -/

/-- No name is left twice. -/
theorem nodup_finishOrder (g : SpreadGraph) (roots : List String) :
    (g.finishOrder roots).Nodup :=
  (inv_run g roots).finished_nodup

/-- A name stands behind what it spreads, unless the spread closes a reported loop. -/
theorem ordered_finishOrder {front back : List String} {u v : String}
    (h : g.finishOrder roots = front ++ u :: back) (hedge : g.Edge u v) (hk : g.Knows v) :
    v ∈ front ∨ Closes ((start roots).run g).loops u v :=
  (inv_run g roots).ordered front u back h v hedge hk

/-- A known name that a name of the order spreads is in the order, too. -/
theorem mem_finishOrder_of_edge {u v : String} (hu : u ∈ g.finishOrder roots)
    (hedge : g.Edge u v) (hk : g.Knows v) : v ∈ g.finishOrder roots := by
  rcases (inv_run g roots).mem_finished_or_closes hu hedge hk with hin | ⟨walk, hloop⟩
  · exact hin
  · -- A reported loop consists of names that have been entered, and at the end all are left.
    rcases (inv_run g roots).entered _ hloop v (by simp) with hpath | hfin
    · rw [path_run] at hpath
      exact absurd hpath List.not_mem_nil
    · exact hfin

/-- The search leaves exactly the known names that its roots lead to. -/
theorem mem_finishOrder {name : String} :
    name ∈ g.finishOrder roots ↔ g.Knows name ∧ g.Reached roots name := by
  constructor
  · intro h
    exact ⟨(inv_run g roots).known name (Or.inr h), (fromRoots_run g roots).finished name h⟩
  · intro ⟨hk, root, hroot, hpath⟩
    -- Along the path from the root: a root has been started, and at the end all is left.
    induction hpath with
    | refl =>
      rcases (fromRoots_run g roots).started root hroot hk with hin | hin | hin
      · rw [pending_run] at hin
        exact absurd hin List.not_mem_nil
      · rw [path_run] at hin
        exact absurd hin List.not_mem_nil
      · exact hin
    | tail _ hedge ih => exact mem_finishOrder_of_edge (ih hedge.knows) hedge hk

/-! ## Graphs without circles -/

/-- Where there is no circle no loop is reported. -/
theorem loops_eq_nil_of_acyclic (h : Acyclic g.Edge) (roots : List String) :
    ((start roots).run g).loops = [] :=
  (inv_run g roots).loops_eq_nil h

/-- In a graph without circles every name stands behind what it spreads. -/
theorem mem_front_of_acyclic {front back : List String} {u v : String} (hacyclic : Acyclic g.Edge)
    (h : g.finishOrder roots = front ++ u :: back) (hedge : g.Edge u v) (hk : g.Knows v) :
    v ∈ front := by
  rcases ordered_finishOrder h hedge hk with hfront | ⟨walk, hloop⟩
  · exact hfront
  · rw [loops_eq_nil_of_acyclic hacyclic roots] at hloop
    exact absurd hloop List.not_mem_nil

/-! ## Circles -/

/-- The names of a graph are those that it knows. -/
theorem Knows.mem_names {name : String} (h : g.Knows name) : name ∈ g.names := by
  obtain ⟨spreads, hs⟩ := h
  exact mem_names_of_spreads? hs

/-- A search of all names leaves every name that the graph knows. -/
theorem Knows.mem_finishOrder_names {name : String} (h : g.Knows name) :
    name ∈ g.finishOrder g.names :=
  mem_finishOrder.mpr ⟨h, name, h.mem_names, .refl⟩

/-- The edges that do not close a reported loop. -/
def OpenEdge (g : SpreadGraph) (u v : String) : Prop := g.Edge u v ∧ ¬ Closes g.loops u v

/-- In a graph without circles no edge closes a loop. -/
theorem OpenEdge.of_acyclic {u v : String} (hacyclic : Acyclic g.Edge) (hedge : g.Edge u v) :
    g.OpenEdge u v := by
  refine ⟨hedge, fun ⟨front, hloop⟩ => ?_⟩
  have hnone : g.loops = [] := loops_eq_nil_of_acyclic hacyclic g.names
  rw [hnone] at hloop
  exact absurd hloop List.not_mem_nil

/-- Open edges lead forward in the order of leaving, seen from its end. -/
theorem OpenEdge.idxOf_lt {u v : String} (h : g.OpenEdge u v) (hk : g.Knows v) :
    (g.finishOrder g.names).idxOf v < (g.finishOrder g.names).idxOf u := by
  obtain ⟨hedge, hopen⟩ := h
  obtain ⟨front, back, hsplit⟩ := List.append_of_mem hedge.knows.mem_finishOrder_names
  have hnodup := nodup_finishOrder g g.names
  have hfront : v ∈ front := (ordered_finishOrder hsplit hedge hk).resolve_right hopen
  rw [hsplit] at hnodup ⊢
  -- `u` stands once in the order, and so its index is the length of what is in front of it.
  have hu : u ∉ front := not_mem_of_nodup_append hnodup
  rw [List.idxOf_append_of_mem hfront, List.idxOf_append_of_notMem hu]
  exact Nat.lt_of_lt_of_le (List.idxOf_lt_length_of_mem hfront) (Nat.le_add_right _ _)

/-- Ways along open edges lead forward, too. -/
theorem idxOf_lt_of_transGen {u v : String} (h : TransGen g.OpenEdge u v) (hk : g.Knows v) :
    (g.finishOrder g.names).idxOf v < (g.finishOrder g.names).idxOf u := by
  induction h with
  | single hedge => exact hedge.idxOf_lt hk
  | tail _ hedge ih => exact Nat.lt_trans (hedge.idxOf_lt hk) (ih hedge.1.knows)

/-- Without the closing spreads of the reported loops there is no circle. -/
theorem acyclic_unclosed (g : SpreadGraph) : Acyclic g.OpenEdge := by
  intro name h
  have hk : g.Knows name := by
    obtain ⟨n, hedge, -⟩ := TransGen.head'_iff.mp h
    exact hedge.1.knows
  exact Nat.lt_irrefl _ (idxOf_lt_of_transGen h hk)

/-- Reported loops are loops. -/
theorem genuine_loops {path : List String} (h : path ∈ g.loops) : IsLoop g.Edge path :=
  (inv_run g g.names).genuine path h

/-- No loop is reported exactly when there is no circle. -/
theorem loops_eq_nil_iff : g.loops = [] ↔ Acyclic g.Edge := by
  constructor
  · intro h name hname
    refine acyclic_unclosed g name (TransGen.mono (fun u v hedge => ⟨hedge, ?_⟩) _ _ hname)
    intro ⟨front, hloop⟩
    rw [h] at hloop
    exact absurd hloop List.not_mem_nil
  · exact fun h => loops_eq_nil_of_acyclic h g.names

end SpreadGraph

end QueryModule.Fragment
