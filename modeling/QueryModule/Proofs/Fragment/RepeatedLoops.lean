import QueryModule.Proofs.Fragment.Precedence

/-!
# How often a loop is reported

A loop is reported when the search comes to a spread that leads back to a name on the path, and it does
so each time that it comes to one. A fragment can spread the same fragment several times, and so a loop
is reported once for each time that its last spread is written.

Nothing else repeats a report. Down the path, names have been entered one below the other, and so they
are left in the opposite order; a reported loop thus goes through its names in the order in which they
are left, from the last one to the first one, and from the last one it closes (`Tallied.descends`). Loops
that go through the same names are therefore the same list of names, wherever they start. And while a
name is on the path the names above it do not change, so the loops that one spread closes are the same,
too (`Tally`).

> `reportedLoops_repeated`
-/

namespace QueryModule.Fragment

open QueryModule.Graphql
open scoped List

namespace Search

variable {g : SpreadGraph} {s t : Search} {loops : List (List String)}

/-- A loop ends with the spread that closes it. -/
theorem eq_of_append_eq_loopAt {front outer : List String} {u u' v v' : String}
    (h : front ++ [u, v] = loopAt (u' :: outer) v') : u = u' ∧ v = v' := by
  obtain ⟨front', hfront'⟩ := exists_loopAt_eq u' outer v'
  obtain ⟨-, hlast⟩ := List.append_inj' (h.trans hfront') rfl
  simpa using hlast

/-- Loops that are closed by different spreads are different. -/
theorem loopAt_ne {u u' v v' : String} {outer outer' : List String} (h : u ≠ u' ∨ v ≠ v') :
    loopAt (u :: outer) v ≠ loopAt (u' :: outer') v' := by
  intro heq
  obtain ⟨front, hfront⟩ := exists_loopAt_eq u outer v
  obtain ⟨hu, hv⟩ := eq_of_append_eq_loopAt (hfront.symm.trans heq)
  exact h.elim (fun h => h hu) fun h => h hv

/-- The pending tasks, cut at the leaving of each name on the path, with the loops that the name has
closed so far: one for each of its spreads that leads back to a name on the path and is not pending. -/
inductive Tally (g : SpreadGraph) (loops : List (List String)) : List Task → List String → Prop where
  | roots (names : List String) : Tally g loops (names.map .enter) []
  | spreading {todo spreads : List String} {u : String} {below : List Task} {outer : List String}
      (known : g.spreads? u = some spreads)
      (only : ∀ front v, front ++ [u, v] ∈ loops →
        v ∈ u :: outer ∧ front ++ [u, v] = loopAt (u :: outer) v)
      (counted : ∀ v ∈ u :: outer,
        loops.count (loopAt (u :: outer) v) + todo.count v = spreads.count v)
      (outside : Tally g loops below outer) :
      Tally g loops (todo.map .enter ++ .leave u :: below) (u :: outer)

/-- A loop that is closed by a name further inside does not count for the names further outside. -/
theorem Tally.report {pending : List Task} {path inner : List String} {u name : String}
    (h : Tally g loops pending path) (hu : u ∉ path) :
    Tally g (loops ++ [loopAt (u :: inner) name]) pending path := by
  induction h with
  | roots names => exact .roots names
  | @spreading todo spreads u' below outer known only counted _ ih =>
    obtain ⟨hne, hu⟩ := List.ne_and_not_mem_of_not_mem_cons hu
    refine .spreading known (fun front v hmem => ?_) (fun v hv => ?_) (ih hu)
    · rcases List.mem_append.mp hmem with hold | hnew
      · exact only front v hold
      · exact absurd (eq_of_append_eq_loopAt (List.mem_singleton.mp hnew)).1.symm hne
    · rw [List.count_append, List.count_singleton, if_neg (by simpa using loopAt_ne (Or.inl hne))]
      exact counted v hv

/-- A name that does not lead back to the path can be taken away from what is pending. -/
theorem Tally.drop {name : String} {rest : List Task} {path : List String}
    (h : Tally g loops (.enter name :: rest) path) (hname : name ∉ path) :
    Tally g loops rest path := by
  generalize hp : Task.enter name :: rest = pending at h
  cases h with
  | roots names =>
    obtain ⟨later, rfl, rfl⟩ := enter_cons_eq_map hp
    exact .roots later
  | @spreading todo spreads u below outer known only counted outside =>
    obtain ⟨later, rfl, rfl⟩ := enter_cons_eq_append hp
    refine .spreading known only (fun v hv => ?_) outside
    have hne : name ≠ v := fun heq => hname (heq ▸ hv)
    rw [← counted v hv, List.count_cons_of_ne hne]

/-- A name that leads back to the path can be exchanged for the report of the loop. -/
theorem Tally.close {name : String} {rest : List Task} {path : List String}
    (h : Tally g loops (.enter name :: rest) path) (hnodup : path.Nodup) (hname : name ∈ path) :
    Tally g (loops ++ [loopAt path name]) rest path := by
  generalize hp : Task.enter name :: rest = pending at h
  cases h with
  | roots => exact absurd hname List.not_mem_nil
  | @spreading todo spreads u below outer known only counted outside =>
    obtain ⟨later, rfl, rfl⟩ := enter_cons_eq_append hp
    refine .spreading known (fun front v hmem => ?_) (fun v hv => ?_)
      (outside.report (List.nodup_cons.mp hnodup).1)
    · -- The new loop, like those before, ends with a name on the path.
      rcases List.mem_append.mp hmem with hold | hnew
      · exact only front v hold
      · rw [List.mem_singleton] at hnew
        obtain ⟨-, rfl⟩ := eq_of_append_eq_loopAt hnew
        exact ⟨hname, hnew⟩
    · -- The report takes the place of the pending spread in the count of its name, and does not touch
      -- other counts.
      have hbefore := counted v hv
      rw [List.count_append, List.count_singleton]
      by_cases heq : name = v
      · rw [heq, List.count_cons_self] at hbefore
        rw [if_pos (by simp [heq])]
        omega
      · rw [List.count_cons_of_ne heq] at hbefore
        rw [if_neg (by simpa using loopAt_ne (Or.inr heq))]
        omega

/-- When a name is entered, no loop goes through it yet and all its spreads are pending. -/
theorem Tally.enter {name : String} {rest : List Task} {path spreads : List String}
    (h : Tally g loops (.enter name :: rest) path) (hname : name ∉ path)
    (hloops : ∀ loop ∈ loops, name ∉ loop) (hg : g.spreads? name = some spreads) :
    Tally g loops (spreads.map .enter ++ .leave name :: rest) (name :: path) := by
  refine .spreading hg (fun front v hmem => ?_) (fun v _ => ?_) (h.drop hname)
  · exact absurd (by simp) (hloops _ hmem)
  · obtain ⟨front, hfront⟩ := exists_loopAt_eq name path v
    have hnone : loopAt (name :: path) v ∉ loops := fun hmem =>
      hloops _ hmem (by rw [hfront]; simp)
    rw [List.count_eq_zero_of_not_mem hnone, Nat.zero_add]

/-- When a name is left, it has closed one loop for each of its spreads that leads back. -/
theorem Tally.leave {name : String} {rest : List Task} {path : List String}
    (h : Tally g loops (.leave name :: rest) path) :
    ∃ outer, path = name :: outer ∧ Tally g loops rest outer ∧
      ∀ front v spreads, front ++ [name, v] ∈ loops → g.spreads? name = some spreads →
        loops.count (front ++ [name, v]) = spreads.count v := by
  generalize hp : Task.leave name :: rest = pending at h
  cases h with
  | roots names => exact absurd hp leave_cons_ne_map
  | @spreading todo spreads u below outer known only counted outside =>
    obtain ⟨rfl, rfl, rfl⟩ := leave_cons_eq_append hp
    refine ⟨outer, rfl, outside, fun front v spreads' hmem hg => ?_⟩
    obtain rfl : spreads = spreads' := Option.some.inj (known.symm.trans hg)
    obtain ⟨hv, heq⟩ := only front v hmem
    rw [heq, ← counted v hv, List.count_nil, Nat.add_zero]

/-- What is known of the reported loops at every moment of a search. -/
structure Tallied (g : SpreadGraph) (s : Search) : Prop where
  /-- From its end to its start a loop goes through names in the order of leaving. -/
  descends : ∀ loop ∈ s.loops, loop.dropLast.reverse <+ s.finished ++ s.path
  tally : Tally g s.loops s.pending s.path
  counted : ∀ u ∈ s.finished, ∀ front v spreads, front ++ [u, v] ∈ s.loops →
    g.spreads? u = some spreads → s.loops.count (front ++ [u, v]) = spreads.count v

/-- At the start no loop has been reported. -/
theorem tallied_start (g : SpreadGraph) (roots : List String) : Tallied g (start roots) where
  descends := fun _ h => absurd h List.not_mem_nil
  tally := .roots roots
  counted := fun _ h => absurd h List.not_mem_nil

/-- A loop leads from a name on the path down the path, and back. -/
theorem reverse_dropLast_loopAt {path : List String} {name : String} (hnodup : path.Nodup)
    (hname : name ∈ path) : (loopAt path name).dropLast.reverse <+ path := by
  obtain ⟨inner, outer, rfl⟩ := List.append_of_mem hname
  rw [loopAt_append outer (not_mem_of_nodup_append hnodup), List.dropLast_concat, List.reverse_cons,
    List.reverse_reverse]
  exact (List.Sublist.refl inner).append (List.singleton_sublist.mpr (List.mem_cons_self ..))

/-- A loop that is reported is counted for the spread that closes it. -/
theorem Tallied.close {name : String} {rest : List Task} (hinv : Inv g s) (h : Tallied g s)
    (hp : s.pending = .enter name :: rest) (hm : s.mark? name = some .onPath) :
    Tallied g { s with pending := rest, loops := s.loops ++ [loopAt s.path name] } := by
  have hname : name ∈ s.path := (hinv.marked.onPath name).mp hm
  have htally := h.tally
  rw [hp] at htally
  refine ⟨fun loop hloop => ?_, htally.close hinv.path_nodup hname, fun u hu front v spreads hmem hg => ?_⟩
  · rcases List.mem_append.mp hloop with hold | hnew
    · exact h.descends loop hold
    · rw [List.mem_singleton.mp hnew]
      exact (reverse_dropLast_loopAt hinv.path_nodup hname).trans (List.sublist_append_right _ _)
  · -- What has been left closes no loop anymore: the new one is closed by a name on the path.
    obtain ⟨inner, outer, hpath⟩ := List.exists_cons_of_ne_nil (List.ne_nil_of_mem hname)
    have hne : front ++ [u, v] ≠ loopAt s.path name := fun heq => by
      rw [hpath] at heq
      obtain ⟨rfl, -⟩ := eq_of_append_eq_loopAt heq
      exact hinv.marked.disjoint (by rw [hpath]; exact List.mem_cons_self ..) hu
    have hold : front ++ [u, v] ∈ s.loops := by
      rcases List.mem_append.mp hmem with hold | hnew
      · exact hold
      · exact absurd (List.mem_singleton.mp hnew) hne
    rw [List.count_append, List.count_singleton, if_neg (by simpa using hne.symm), Nat.add_zero]
    exact h.counted u hu front v spreads hold hg

/-- Every step keeps the count. -/
theorem Tallied.next (hinv : Inv g s) (h : Tallied g s) (hmove : Move g s t) : Tallied g t := by
  have htally := h.tally
  cases hmove with
  | @skip name rest hp hm =>
    rw [hp] at htally
    -- A name that has been left is not on the path, so it leads to no loop.
    have hname : name ∉ s.path := fun hin =>
      hinv.marked.disjoint hin ((hinv.marked.finished name).mp hm)
    exact ⟨h.descends, htally.drop hname, h.counted⟩
  | close hp hm => exact h.close hinv hp hm
  | @ignore name rest hp hg =>
    rw [hp] at htally
    -- Neither does a name that the graph does not know.
    have hname : name ∉ s.path := fun hin =>
      SpreadGraph.not_knows hg (hinv.known name (Or.inl hin))
    exact ⟨h.descends, htally.drop hname, h.counted⟩
  | @enter name rest spreads hp hm hg =>
    rw [hp] at htally
    have hname := hinv.marked.not_mem_path hm
    -- No loop goes through a name that is new.
    have hloops : ∀ loop ∈ s.loops, name ∉ loop := fun loop hloop hin =>
      hinv.marked.not_seen hm (hinv.entered loop hloop name hin)
    refine ⟨fun loop hloop => ?_, htally.enter hname hloops hg, h.counted⟩
    exact (h.descends loop hloop).trans ((List.sublist_cons_self name s.path).append_left s.finished)
  | @leave name rest hp =>
    rw [hp] at htally
    obtain ⟨outer, hpath, hbelow, hcounted⟩ := htally.leave
    have htail := path_leave hpath rest
    refine ⟨fun loop hloop => ?_, ?_, fun u hu => ?_⟩
    · rw [htail]
      show _ <+ s.finished ++ [name] ++ outer
      rw [← List.append_cons, ← hpath]
      exact h.descends loop hloop
    · rw [htail]
      exact hbelow
    · rcases List.mem_append.mp hu with hu | hu
      · exact h.counted u hu
      · rw [List.mem_singleton.mp hu]
        exact hcounted

theorem tallied_run (g : SpreadGraph) (roots : List String) : Tallied g ((start roots).run g) :=
  (run_induction (P := fun s => Inv g s ∧ Tallied g s)
    (fun h hmove => ⟨h.1.next hmove, h.2.next h.1 hmove⟩)
    ⟨inv_start g roots, tallied_start g roots⟩).2

end Search

/-- Parts of a list without repetitions that have the same members are the same. -/
theorem eq_of_sublist_of_perm {α : Type} {l a b : List α} (hnodup : l.Nodup) (ha : a <+ l)
    (hb : b <+ l) (h : a.Perm b) : a = b := by
  refine h.eq_of_pairwise (fun x y _ _ (hxy : [x, y] <+ l) hyx => ?_)
    (List.pairwise_iff_forall_sublist.mpr fun hxy => hxy.trans ha)
    (List.pairwise_iff_forall_sublist.mpr fun hxy => hxy.trans hb)
  exact absurd hyx (not_pair_sublist_swap hnodup hxy)

/-- The last name of a loop is its first one. -/
theorem IsLoop.eq_append_head? {edge : String → String → Prop} {path : List String}
    (h : IsLoop edge path) : path = path.dropLast ++ path.dropLast.head?.toList := by
  obtain ⟨name, inner, rfl, -, -⟩ := h
  rw [List.dropLast_concat]
  rfl

namespace SpreadGraph

open Search

variable {g : SpreadGraph}

/-- Loops that go through the same names are the same. -/
theorem eq_of_perm_loops {a b : List String} (ha : a ∈ g.loops) (hb : b ∈ g.loops)
    (h : a.dropLast.Perm b.dropLast) : a = b := by
  have hdescends : ∀ loop ∈ g.loops, loop.dropLast.reverse <+ g.finishOrder g.names := by
    intro loop hloop
    have := (tallied_run g g.names).descends loop hloop
    rwa [path_run, List.append_nil] at this
  have hreverse : a.dropLast.reverse = b.dropLast.reverse :=
    eq_of_sublist_of_perm (nodup_finishOrder g g.names) (hdescends a ha) (hdescends b hb)
      ((List.reverse_perm _).trans (h.trans (List.reverse_perm _).symm))
  rw [(genuine_loops ha).eq_append_head?, (genuine_loops hb).eq_append_head?,
    List.reverse_injective hreverse]

/-- A loop is found once for each time that its last spread is written. -/
theorem count_loops {front spreads : List String} {u v : String} (h : front ++ [u, v] ∈ g.loops)
    (hu : g.spreads? u = some spreads) : g.loops.count (front ++ [u, v]) = spreads.count v := by
  refine (tallied_run g g.names).counted u ?_ front v spreads h hu
  rcases (inv_run g g.names).entered _ h u (by simp) with hpath | hleft
  · rw [path_run] at hpath
    exact absurd hpath List.not_mem_nil
  · exact hleft

end SpreadGraph

/-! ## Reports -/

/-- Reported loops that are rotations of each other are equal, since they go through the same names. -/
theorem eq_of_isRotated_reportedLoops {p : Pool} {a b : List String} (ha : a ∈ p.reportedLoops)
    (hb : b ∈ p.reportedLoops) (h : a.dropLast ~r b.dropLast) : a = b := by
  rw [reportedLoops_eq] at ha hb
  exact SpreadGraph.eq_of_perm_loops ha hb h.perm

/-- A loop is reported once for each time that its last spread is written. -/
theorem count_reportedLoops {p : Pool} {path : List String} {u v : String} {f : SourcedFragment}
    (h : path ∈ p.reportedLoops) (hlast : [u, v] <:+ path) (hf : p.merged.get? u = some f) :
    p.reportedLoops.count path = (spreadNames f.definition.selections).count v := by
  obtain ⟨front, rfl⟩ := hlast
  rw [reportedLoops_eq] at h ⊢
  exact SpreadGraph.count_loops h (by rw [Registry.spreads?_graph, hf]; rfl)

/-- The last step of a reported loop is a spread of a registered fragment. -/
theorem exists_closing {p : Pool} {path : List String} (h : path ∈ p.reportedLoops) :
    ∃ u v f, [u, v] <:+ path ∧ p.merged.get? u = some f := by
  have hcircle := isCircle_of_mem_reportedLoops h
  rcases List.eq_nil_or_concat path with rfl | ⟨front, v, rfl⟩
  · exact absurd hcircle.two_le_length (by simp)
  · rcases List.eq_nil_or_concat front with rfl | ⟨front, u, rfl⟩
    · exact absurd hcircle.two_le_length (by simp)
    · simp only [List.concat_eq_append, List.append_assoc, List.singleton_append] at hcircle ⊢
      obtain ⟨f, hf⟩ := hcircle.registered u (by simp)
      exact ⟨u, v, f, ⟨front, rfl⟩, hf⟩

/-- **Repeated reports.** Whatever a pool holds:
* of two reported loops neither is a rotation of the other, unless they are equal;
* each loop is reported once for each time that the fragment in front of its end spreads the one at its
  end, in whatever fields or inline selections it does so;
* so no loop is reported twice, and none together with a rotation of it, exactly when each spread that
  closes a loop is written once in its fragment. -/
theorem reportedLoops_repeated (p : Pool) :
    (∀ a ∈ p.reportedLoops, ∀ b ∈ p.reportedLoops, a.dropLast ~r b.dropLast → a = b) ∧
      (∀ path ∈ p.reportedLoops, ∃ u v f, [u, v] <:+ path ∧ p.merged.get? u = some f ∧
        p.reportedLoops.count path = (spreadNames f.definition.selections).count v) ∧
      ((p.reportedLoops.Pairwise fun a b => ¬ a.dropLast ~r b.dropLast) ↔
        ∀ u v f, p.ClosesLoop u v → p.merged.get? u = some f →
          (spreadNames f.definition.selections).count v = 1) := by
  refine ⟨fun a ha b hb => eq_of_isRotated_reportedLoops ha hb, fun path h => ?_, ?_⟩
  · obtain ⟨u, v, f, hlast, hf⟩ := exists_closing h
    exact ⟨u, v, f, hlast, hf, count_reportedLoops h hlast hf⟩
  · -- As rotations are equal, they are left out exactly when nothing is reported twice.
    have hnodup : (p.reportedLoops.Pairwise fun a b => ¬ a.dropLast ~r b.dropLast) ↔
        p.reportedLoops.Nodup := by
      refine List.Pairwise.iff_of_mem fun {a b} ha hb => not_congr ?_
      exact ⟨eq_of_isRotated_reportedLoops ha hb, fun heq => heq ▸ List.IsRotated.refl _⟩
    rw [hnodup, List.nodup_iff_count_eq_one]
    constructor
    · intro h u v f ⟨path, hpath, hlast⟩ hf
      rw [← count_reportedLoops hpath hlast hf]
      exact h path hpath
    · intro h path hpath
      obtain ⟨u, v, f, hlast, hf⟩ := exists_closing hpath
      rw [count_reportedLoops hpath hlast hf]
      exact h u v f ⟨path, hpath, hlast⟩ hf

/-- A fragment that spreads itself twice is reported twice. -/
theorem reportedLoops_selfSpread :
    (collected [.fragment (spreading "A" ["A", "A"] false)]).reportedLoops
        = [["A", "A"], ["A", "A"]] ∧
      ¬ ∀ p : Pool, p.reportedLoops.Pairwise fun a b => ¬ a.dropLast ~r b.dropLast := by
  have hloops : (collected [.fragment (spreading "A" ["A", "A"] false)]).reportedLoops
      = [["A", "A"], ["A", "A"]] := by cbv
  refine ⟨hloops, fun h => ?_⟩
  have hpair := h (collected [.fragment (spreading "A" ["A", "A"] false)])
  rw [hloops] at hpair
  exact (List.pairwise_cons.mp hpair).1 _ (List.mem_singleton_self _) (List.IsRotated.refl _)

end QueryModule.Fragment
