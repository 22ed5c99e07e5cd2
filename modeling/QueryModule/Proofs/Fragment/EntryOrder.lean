import QueryModule.Proofs.Fragment.Precedence

/-!
# In which order a search enters names

A search marks a name when it enters it, so the order of entering can be read off the marks. Two facts
about it are kept by every step.

* What a search enters while a name is on the path lies below this name. So of two names that do not
  lead to each other, the one that is entered first is left first (`Nested`).
* In a graph without circles the search enters a name where a walk that goes through everything again
  each time it is spread would come to it for the first time (`Along`). A name that has been left is not
  entered again, but the walk below it would come to nothing new either: all of it has been left.

Together they say what decides between names that could be left in either order:

> `pair_sublist_finishOrder_of_unfolds`: of two names, the one that the walk comes to first is left
> first, unless it leads to the other one.
-/

namespace QueryModule.Fragment

open Relation (TransGen ReflTransGen)
open scoped List

/-- The names that have been marked as entered, first one first. -/
def enteredIn (marks : List (String × Mark)) : List String :=
  (marks.filterMap fun m => if m.2 = .onPath then some m.1 else none).reverse

/-- The mark of a name that is entered comes behind those of the names before it. -/
@[simp] theorem enteredIn_onPath (name : String) (marks : List (String × Mark)) :
    enteredIn ((name, .onPath) :: marks) = enteredIn marks ++ [name] := by
  simp [enteredIn]

@[simp] theorem enteredIn_finished (name : String) (marks : List (String × Mark)) :
    enteredIn ((name, .finished) :: marks) = enteredIn marks := by
  simp [enteredIn]

/-- The names that are still to be entered. -/
def namesToEnter (pending : List Task) : List String :=
  pending.filterMap fun
    | .enter name => some name
    | .leave _ => none

@[simp] theorem namesToEnter_enter (name : String) (rest : List Task) :
    namesToEnter (.enter name :: rest) = name :: namesToEnter rest := rfl

@[simp] theorem namesToEnter_leave (name : String) (rest : List Task) :
    namesToEnter (.leave name :: rest) = namesToEnter rest := rfl

@[simp] theorem namesToEnter_map_enter (names : List String) (rest : List Task) :
    namesToEnter (names.map .enter ++ rest) = names ++ namesToEnter rest := by
  unfold namesToEnter
  rw [List.filterMap_append, List.filterMap_map]
  exact congrArg (· ++ _) List.filterMap_some

/-- The walk through everything that some names spread, depth first and without a memory: what is spread
several times is gone through several times. -/
inductive SpreadGraph.Unfolds (g : SpreadGraph) : List String → List String → Prop where
  | done : Unfolds g [] []
  | follow {name : String} {spreads rest below behind : List String} :
      g.spreads? name = some spreads → Unfolds g spreads below → Unfolds g rest behind →
      Unfolds g (name :: rest) (name :: below ++ behind)
  | pass {name : String} {rest behind : List String} :
      g.spreads? name = none → Unfolds g rest behind → Unfolds g (name :: rest) behind

namespace SpreadGraph

variable {g : SpreadGraph}

/-- Walks through names behind each other are put behind each other. -/
theorem Unfolds.append {names more walk further : List String} (h : g.Unfolds names walk)
    (hmore : g.Unfolds more further) : g.Unfolds (names ++ more) (walk ++ further) := by
  induction h with
  | done => exact hmore
  | follow hg hbelow _ _ ih =>
    rw [List.append_assoc]
    exact .follow hg hbelow ih
  | pass hg _ ih => exact .pass hg ih

/-- The walk comes to known names only, and only to what the names lead to. -/
theorem Unfolds.mem {names walk : List String} (h : g.Unfolds names walk) {n : String}
    (hn : n ∈ walk) : g.Knows n ∧ g.Reached names n := by
  induction h with
  | done => exact absurd hn List.not_mem_nil
  | @follow name spreads rest below behind hg _ _ ihbelow ihbehind =>
    rcases List.mem_append.mp hn with hn | hn
    · rcases List.mem_cons.mp hn with rfl | hn
      · exact ⟨⟨spreads, hg⟩, n, List.mem_cons_self .., .refl⟩
      · obtain ⟨hk, root, hroot, hpath⟩ := ihbelow hn
        exact ⟨hk, name, List.mem_cons_self .., .head ⟨spreads, hg, hroot⟩ hpath⟩
    · obtain ⟨hk, root, hroot, hpath⟩ := ihbehind hn
      exact ⟨hk, root, List.mem_cons_of_mem _ hroot, hpath⟩
  | pass _ _ ih =>
    obtain ⟨hk, root, hroot, hpath⟩ := ih hn
    exact ⟨hk, root, List.mem_cons_of_mem _ hroot, hpath⟩

end SpreadGraph

namespace Search

variable {g : SpreadGraph} {s t : Search} {roots : List String}

/-- The names that have been entered, first one first. -/
def entered (s : Search) : List String := enteredIn s.marks

/-! ## Entering and leaving -/

/-- What has been entered behind a name on the path lies below this name, and so does what has been
entered behind a name and left before it. -/
structure Nested (g : SpreadGraph) (s : Search) : Prop where
  mem : ∀ n, n ∈ s.entered ↔ n ∈ s.path ∨ n ∈ s.finished
  nodup : s.entered.Nodup
  below : ∀ u v, u ∈ s.path → [u, v] <+ s.entered → TransGen g.Edge u v
  inside : ∀ u v, [u, v] <+ s.entered → [v, u] <+ s.finished → TransGen g.Edge u v

/-- At the start no name has been entered. -/
theorem nested_start (g : SpreadGraph) (roots : List String) : Nested g (start roots) where
  mem := fun n => by simp [start, entered, enteredIn]
  nodup := List.nodup_nil
  below := fun u _ hu => absurd hu List.not_mem_nil
  inside := fun u v h => absurd h (by simp [start, entered, enteredIn])

/-- A name without a mark has not been entered. -/
theorem Nested.not_mem_entered (h : Nested g s) (hinv : Inv g s) {name : String}
    (hfresh : s.mark? name = none) : name ∉ s.entered := fun hin =>
  hinv.marked.not_seen hfresh ((h.mem name).mp hin)

/-- Every name on the path leads to the innermost one. -/
theorem Inv.transGen_innermost {name : String} {outer : List String} (h : Inv g s)
    (hpath : s.path = name :: outer) {u : String} (hu : u ∈ outer) : TransGen g.Edge u name := by
  have hchain := h.chain
  rw [hpath] at hchain
  have hlong : (name :: outer).IsChain fun v u => TransGen g.Edge u v :=
    hchain.imp fun _ _ hedge => .single hedge
  have : Trans (fun v u => TransGen g.Edge u v) (fun v u => TransGen g.Edge u v)
      (fun v u => TransGen g.Edge u v) := ⟨fun hvu huw => huw.trans hvu⟩
  exact (List.pairwise_cons.mp (List.isChain_iff_pairwise.mp hlong)).1 u hu

/-- Every step keeps the nesting. Where a name is entered, it lies below all names of the path. -/
theorem Nested.next (hinv : Inv g s) (h : Nested g s) (hmove : Move g s t) : Nested g t := by
  have hnext := hinv.next hmove
  cases hmove with
  | skip => exact ⟨h.mem, h.nodup, h.below, h.inside⟩
  | close => exact ⟨h.mem, h.nodup, h.below, h.inside⟩
  | ignore => exact ⟨h.mem, h.nodup, h.below, h.inside⟩
  | @enter name rest spreads hp hfresh hg =>
    have hnew : name ∉ s.entered := h.not_mem_entered hinv hfresh
    have hentered : enteredIn ((name, .onPath) :: s.marks) = s.entered ++ [name] :=
      enteredIn_onPath name s.marks
    refine ⟨fun n => ?_, ?_, fun u v hu huv => ?_, fun u v huv hvu => ?_⟩
    · -- What has been entered is on the path or has been left.
      show n ∈ enteredIn ((name, .onPath) :: s.marks) ↔ n ∈ name :: s.path ∨ n ∈ s.finished
      rw [hentered, List.mem_append, h.mem, List.mem_singleton, List.mem_cons, or_right_comm,
        or_comm (a := n ∈ s.path)]
    · show (enteredIn ((name, .onPath) :: s.marks)).Nodup
      rw [hentered, ← List.concat_eq_append]
      exact h.nodup.concat hnew
    · have huv' : [u, v] <+ s.entered ++ [name] := hentered ▸ huv
      rcases pair_sublist_concat.mp huv' with hold | ⟨hold, rfl⟩
      · rcases List.mem_cons.mp hu with rfl | hu
        · exact absurd (hold.subset (List.mem_cons_self ..)) hnew
        · exact h.below u v hu hold
      · -- The new name lies below everything on the path.
        rcases List.mem_cons.mp hu with rfl | hu
        · exact absurd hold hnew
        · exact hnext.transGen_innermost rfl hu
    · -- The new name has not been left.
      have huv' : [u, v] <+ s.entered ++ [name] := hentered ▸ huv
      rcases pair_sublist_concat.mp huv' with hold | ⟨-, rfl⟩
      · exact h.inside u v hold hvu
      · have hleft : v ∈ s.finished := hvu.subset (List.mem_cons_self ..)
        exact absurd ((h.mem v).mpr (Or.inr hleft)) hnew
  | @leave name rest hp =>
    obtain ⟨outer, hpath, htail⟩ := hinv.exists_outer hp
    have hname : name ∈ s.path := by rw [hpath]; exact List.mem_cons_self ..
    have hentered : (s.leave name rest).entered = s.entered := enteredIn_finished name s.marks
    refine ⟨fun n => ?_, hentered ▸ h.nodup, fun u v hu huv => ?_, fun u v huv hvu => ?_⟩
    · -- The name goes over from the path to what has been left.
      rw [hentered, htail, h.mem, hpath, List.mem_cons]
      show _ ↔ n ∈ outer ∨ n ∈ s.finished ++ [name]
      rw [List.mem_append, List.mem_singleton, or_assoc, or_comm, or_assoc]
    · rw [htail] at hu
      exact h.below u v (by rw [hpath]; exact List.mem_cons_of_mem _ hu) (hentered ▸ huv)
    · -- If `u` is the name that is left, `v` lies below it, since it was entered while `u` was on the
      -- path.
      have hvu' : [v, u] <+ s.finished ++ [name] := hvu
      rcases pair_sublist_concat.mp hvu' with hold | ⟨-, rfl⟩
      · exact h.inside u v (hentered ▸ huv) hold
      · exact h.below u v hname (hentered ▸ huv)

/-! ## Along the walk -/

/-- The search has come to a place in the walk: what it has entered is what the walk has come to, in the
order in which it has come there first, and what it still has to enter is where the walk goes on. -/
def Along (g : SpreadGraph) (walk : List String) (s : Search) : Prop :=
  ∃ gone ahead, walk = gone ++ ahead ∧ g.Unfolds (namesToEnter s.pending) ahead ∧
    (∀ n, n ∈ gone ↔ n ∈ s.entered) ∧
    ∀ u v, [u, v] <+ s.entered → gone.idxOf u < gone.idxOf v

/-- At the start the walk lies ahead. -/
theorem along_start {walk : List String} (h : g.Unfolds roots walk) : Along g walk (start roots) := by
  refine ⟨[], walk, rfl, ?_, fun n => by simp [start, entered, enteredIn],
    fun u v huv => absurd huv (by simp [start, entered, enteredIn])⟩
  have hnames : namesToEnter (roots.map .enter) = roots := by
    have := namesToEnter_map_enter roots []
    rwa [List.append_nil, show namesToEnter [] = [] from rfl, List.append_nil] at this
  show g.Unfolds (namesToEnter (roots.map .enter)) walk
  rw [hnames]
  exact h

/-- In a graph without circles all that a name leads to has been left when the name has. -/
theorem Inv.mem_finished (h : Inv g s) (hacyclic : Acyclic g.Edge) {name n : String}
    (hname : name ∈ s.finished) (hpath : ReflTransGen g.Edge name n) (hk : g.Knows n) :
    n ∈ s.finished := by
  induction hpath with
  | refl => exact hname
  | @tail u v _ hedge ih =>
    rcases h.mem_finished_or_closes (ih hedge.knows) hedge hk with hin | ⟨walk, hloop⟩
    · exact hin
    · rw [h.loops_eq_nil hacyclic] at hloop
      exact absurd hloop List.not_mem_nil

/-- Going through names again that have been entered changes nothing. -/
theorem Along.skip (again : List String) {gone ahead : List String} (hagain : ∀ n ∈ again, n ∈ s.entered)
    (hgone : ∀ n, n ∈ gone ↔ n ∈ s.entered)
    (horder : ∀ u v, [u, v] <+ s.entered → gone.idxOf u < gone.idxOf v)
    {t : Search} (hentered : t.entered = s.entered)
    (hahead : g.Unfolds (namesToEnter t.pending) ahead) :
    Along g (gone ++ (again ++ ahead)) t := by
  refine ⟨gone ++ again, ahead, (List.append_assoc ..).symm, hahead, fun n => ?_, fun u v huv => ?_⟩
  · rw [hentered, List.mem_append, hgone]
    exact ⟨fun h => h.elim id (hagain n), Or.inl⟩
  · rw [hentered] at huv
    have hu : u ∈ gone := (hgone u).mpr (huv.subset (by simp))
    have hv : v ∈ gone := (hgone v).mpr (huv.subset (by simp))
    rw [List.idxOf_append_of_mem hu, List.idxOf_append_of_mem hv]
    exact horder u v huv

/-- Every step keeps the search at a place in the walk: a name is entered where the walk comes to it
first. -/
theorem Along.next (hacyclic : Acyclic g.Edge) {walk : List String} (hinv : Inv g s)
    (hnested : Nested g s) (h : Along g walk s) (hmove : Move g s t) : Along g walk t := by
  have hnext := hinv.next hmove
  obtain ⟨gone, ahead, rfl, hahead, hgone, horder⟩ := h
  cases hmove with
  | @skip name rest hp hleft =>
    rw [hp, namesToEnter_enter] at hahead
    have hname := (hinv.marked.finished name).mp hleft
    cases hahead with
    | @follow _ spreads _ below behind hg hbelow hbehind =>
      -- The walk goes through what lies below the name again.
      refine Along.skip (s := s) (name :: below) (fun n hn => ?_) hgone horder rfl hbehind
      refine (hnested.mem n).mpr (Or.inr ?_)
      rcases List.mem_cons.mp hn with rfl | hn
      · exact hname
      · obtain ⟨hk, root, hroot, hpath⟩ := hbelow.mem hn
        exact hinv.mem_finished hacyclic hname (.head ⟨spreads, hg, hroot⟩ hpath) hk
    | pass hg hbehind =>
      exact absurd (hinv.known name (Or.inr hname)) (SpreadGraph.not_knows hg)
  | close =>
    exact absurd (hnext.loops_eq_nil hacyclic) (by simp)
  | @ignore name rest hp hunknown =>
    rw [hp, namesToEnter_enter] at hahead
    cases hahead with
    | follow hg _ _ => rw [hg] at hunknown; exact absurd hunknown (by simp)
    | pass _ hbehind => exact ⟨gone, ahead, rfl, hbehind, hgone, horder⟩
  | @enter name rest spreads hp hfresh hknown =>
    rw [hp, namesToEnter_enter] at hahead
    cases hahead with
    | pass hg _ => rw [hg] at hknown; exact absurd hknown (by simp)
    | @follow _ spreads' _ below behind hg hbelow hbehind =>
      obtain rfl : spreads' = spreads := Option.some.inj (hg.symm.trans hknown)
      have hentered : enteredIn ((name, .onPath) :: s.marks) = s.entered ++ [name] :=
        enteredIn_onPath name s.marks
      have hnew : name ∉ gone := fun hin =>
        hnested.not_mem_entered hinv hfresh ((hgone name).mp hin)
      refine ⟨gone ++ [name], below ++ behind, by simp, ?_, fun n => ?_, fun u v huv => ?_⟩
      · show g.Unfolds (namesToEnter (spreads'.map .enter ++ .leave name :: rest)) _
        rw [namesToEnter_map_enter, namesToEnter_leave]
        exact hbelow.append hbehind
      · show _ ↔ n ∈ enteredIn ((name, .onPath) :: s.marks)
        rw [hentered, List.mem_append, List.mem_append, hgone]
      · have huv' : [u, v] <+ s.entered ++ [name] := hentered ▸ huv
        rcases pair_sublist_concat.mp huv' with hold | ⟨hold, rfl⟩
        · have hu : u ∈ gone := (hgone u).mpr (hold.subset (by simp))
          have hv : v ∈ gone := (hgone v).mpr (hold.subset (by simp))
          rw [List.idxOf_append_of_mem hu, List.idxOf_append_of_mem hv]
          exact horder u v hold
        · -- The walk has not come to the new name before.
          have hu : u ∈ gone := (hgone u).mpr hold
          rw [List.idxOf_append_of_mem hu, List.idxOf_append_of_notMem hnew]
          exact Nat.lt_of_lt_of_le (List.idxOf_lt_length_of_mem hu) (Nat.le_add_right _ _)
  | @leave name rest hp =>
    rw [hp, namesToEnter_leave] at hahead
    have hentered : (s.leave name rest).entered = s.entered := enteredIn_finished name s.marks
    exact ⟨gone, ahead, rfl, hahead, fun n => by rw [hentered]; exact hgone n,
      fun u v huv => horder u v (hentered ▸ huv)⟩

/-- Both hold at the end of a search. -/
theorem nested_along_run (hacyclic : Acyclic g.Edge) {walk : List String}
    (h : g.Unfolds roots walk) :
    Nested g ((start roots).run g) ∧ Along g walk ((start roots).run g) :=
  (run_induction (P := fun s => Inv g s ∧ Nested g s ∧ Along g walk s)
    (fun h hmove => ⟨h.1.next hmove, h.2.1.next h.1 hmove, h.2.2.next hacyclic h.1 h.2.1 hmove⟩)
    ⟨inv_start g roots, nested_start g roots, along_start h⟩).2

end Search

namespace SpreadGraph

open Search

variable {g : SpreadGraph} {roots walk : List String}

/-- Of two names, the one that the walk comes to first is left first, unless it leads to the other
one. -/
theorem pair_sublist_finishOrder_of_unfolds (hacyclic : Acyclic g.Edge) (h : g.Unfolds roots walk)
    {u v : String} (hu : u ∈ g.finishOrder roots) (hv : v ∈ g.finishOrder roots)
    (hfirst : walk.idxOf u < walk.idxOf v) (hpath : ¬ TransGen g.Edge u v) :
    [u, v] <+ g.finishOrder roots := by
  obtain ⟨hnested, gone, ahead, rfl, hahead, hgone, horder⟩ := nested_along_run hacyclic h
  rw [pending_run] at hahead
  cases hahead
  rw [List.append_nil] at hfirst
  have hne : u ≠ v := fun heq => absurd hfirst (by rw [heq]; exact Nat.lt_irrefl _)
  have hentered : [u, v] <+ ((start roots).run g).entered := by
    rcases pair_sublist_or ((hnested.mem u).mpr (Or.inr hu)) ((hnested.mem v).mpr (Or.inr hv)) hne
      with hfront | hbehind
    · exact hfront
    · exact absurd (horder v u hbehind) (Nat.lt_asymm hfirst)
  rcases pair_sublist_or hu hv hne with hfront | hbehind
  · exact hfront
  · exact absurd (hnested.inside u v hentered hbehind) hpath

end SpreadGraph

end QueryModule.Fragment
