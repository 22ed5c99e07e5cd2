import QueryModule.Proofs.Fragment.SpreadRelation
import Mathlib.Data.List.Chain
import Mathlib.Data.List.Nodup

/-!
# What holds at every moment of a search

`Search` is a sequence of small steps, and so what is said of its end is proved of every step. Two
things have to be known at every moment: which loops have been found (`genuine`), and that nothing has
been passed over. The second is the difficult one. A name on the path is in the middle of what it
spreads: some of its spreads are still pending, one leads to the next name on the path, and all others
are *settled*: the spread name is unknown, or has been left, or the spread has been reported as the
closing one of a loop. `Frames` says this of every name on the path at once, by cutting the pending
tasks at their `leave` tasks, one for each name on the path.

When a name is left no task of its own is pending, so all its spreads are settled; hence `ordered`:

> a name that has been left stands behind every known name that it spreads, unless that spread has
> been reported as the closing one of a loop.

`Inv` collects all of it, `Inv.next` says that a step keeps it, and `inv_run` that it holds at the end
of a search from any roots, where no task is left (`pending_run`).
-/

namespace QueryModule.Fragment

open Relation (TransGen ReflTransGen)

/-- A walk along the edges of the graph that starts and ends with the same name and repeats no other
one. -/
def IsLoop (edge : String → String → Prop) (path : List String) : Prop :=
  ∃ name inner, path = name :: inner ++ [name] ∧ (name :: inner).Nodup ∧ path.IsChain edge

/-- One of the loops ends with the step from `u` to `v`. -/
def Closes (loops : List (List String)) (u v : String) : Prop := ∃ front, front ++ [u, v] ∈ loops

/-- A step that closes a loop still does when more loops have been reported. -/
theorem Closes.mono {loops more : List (List String)} {u v : String} (h : Closes loops u v) :
    Closes (loops ++ more) u v := by
  obtain ⟨front, hmem⟩ := h
  exact ⟨front, List.mem_append_left _ hmem⟩

namespace Search

variable {g : SpreadGraph} {s t : Search}

/-! ## The steps, one by one -/

/-- What one step can do. -/
inductive Move (g : SpreadGraph) (s : Search) : Search → Prop where
  /-- The next name has been left already. -/
  | skip {name : String} {rest : List Task} (pending : s.pending = .enter name :: rest)
      (left : s.mark? name = some .finished) : Move g s { s with pending := rest }
  /-- The next name is on the path: a loop. -/
  | close {name : String} {rest : List Task} (pending : s.pending = .enter name :: rest)
      (entered : s.mark? name = some .onPath) :
      Move g s { s with pending := rest, loops := s.loops ++ [loopAt s.path name] }
  /-- The graph does not know the next name. -/
  | ignore {name : String} {rest : List Task} (pending : s.pending = .enter name :: rest)
      (unknown : g.spreads? name = none) : Move g s { s with pending := rest }
  /-- The next name is entered. -/
  | enter {name : String} {rest : List Task} {spreads : List String}
      (pending : s.pending = .enter name :: rest) (fresh : s.mark? name = none)
      (known : g.spreads? name = some spreads) :
      Move g s
        { s with
          pending := spreads.map .enter ++ .leave name :: rest
          path := name :: s.path
          marks := (name, .onPath) :: s.marks }
  /-- The innermost name of the path is left. -/
  | leave {name : String} {rest : List Task} (pending : s.pending = .leave name :: rest) :
      Move g s (s.leave name rest)

/-- Every step is one of these. -/
theorem move_of_next? (h : s.next? g = some t) : Move g s t := by
  unfold next? at h
  split at h
  · exact absurd h (by simp)
  · next name rest hp =>
    rw [← Option.some.inj h]
    unfold Search.enter
    split
    · next hm => exact .skip hp hm
    · next hm => exact .close hp hm
    · next hm =>
      split
      · next hg => exact .ignore hp hg
      · next spreads hg => exact .enter hp hm hg
  · next name rest hp =>
    rw [← Option.some.inj h]
    exact .leave hp

/-- What the start has and every step keeps, the end has, too. At the end nothing is pending. -/
theorem run_induction {P : Search → Prop} (step : ∀ {s t : Search}, P s → Move g s t → P t)
    (h : P s) : P (s.run g) := by
  fun_induction run g s with
  | case1 s _ => exact h
  | case2 s t hnext _ ih => exact ih (step h (move_of_next? hnext))

/-- A search runs until nothing is pending. -/
theorem pending_run : (s.run g).pending = [] := by
  fun_induction run g s with
  | case1 s hnext =>
    unfold next? at hnext
    split at hnext
    · next hp => exact hp
    · exact absurd hnext (by simp)
    · exact absurd hnext (by simp)
  | case2 _ _ _ _ ih => exact ih

/-! ## Marks -/

/-- A new mark hides the older ones of the same name. -/
theorem lookup_cons_eq {marks : List (String × Mark)} {name n : String} {m : Mark} :
    List.lookup n ((name, m) :: marks) = if n = name then some m else List.lookup n marks := by
  rw [List.lookup_cons]
  by_cases h : n = name
  · simp [h]
  · rw [beq_eq_false_iff_ne.mpr h, if_neg h]

/-- The marks say which names are on the path and which have been left. -/
structure Marked (s : Search) : Prop where
  onPath : ∀ n, s.mark? n = some .onPath ↔ n ∈ s.path
  finished : ∀ n, s.mark? n = some .finished ↔ n ∈ s.finished

/-- No name is on the path and left. -/
theorem Marked.disjoint (h : Marked s) {n : String} (hp : n ∈ s.path) : n ∉ s.finished := by
  intro hf
  have hmark := (h.finished n).mpr hf
  rw [(h.onPath n).mpr hp] at hmark
  exact absurd hmark (by simp)

/-- A name without a mark is not on the path. -/
theorem Marked.not_mem_path (h : Marked s) {n : String} (hn : s.mark? n = none) : n ∉ s.path := by
  intro hp
  rw [(h.onPath n).mpr hp] at hn
  exact absurd hn (by simp)

theorem Marked.not_mem_finished (h : Marked s) {n : String} (hn : s.mark? n = none) :
    n ∉ s.finished := by
  intro hf
  rw [(h.finished n).mpr hf] at hn
  exact absurd hn (by simp)

/-- A name without a mark is nowhere. -/
theorem Marked.not_seen (h : Marked s) {n : String} (hn : s.mark? n = none) :
    ¬ (n ∈ s.path ∨ n ∈ s.finished) := fun hseen =>
  hseen.elim (h.not_mem_path hn) (h.not_mem_finished hn)

/-- Entering a name marks it as one of the path. -/
theorem Marked.enter {name : String} {pending : List Task} (h : Marked s)
    (hfresh : s.mark? name = none) :
    Marked
      { s with pending := pending, path := name :: s.path, marks := (name, .onPath) :: s.marks } := by
  constructor
  · intro n
    show List.lookup n ((name, Mark.onPath) :: s.marks) = some .onPath ↔ n ∈ name :: s.path
    rw [lookup_cons_eq, List.mem_cons]
    by_cases hn : n = name
    · simp [hn]
    · rw [if_neg hn]
      exact (h.onPath n).trans ⟨Or.inr, fun h => h.resolve_left hn⟩
  · intro n
    show List.lookup n ((name, Mark.onPath) :: s.marks) = some .finished ↔ n ∈ s.finished
    rw [lookup_cons_eq]
    by_cases hn : n = name
    · rw [hn]
      simp [h.not_mem_finished hfresh]
    · rw [if_neg hn]
      exact h.finished n

/-! ### Leaving a name -/

theorem path_leave {name : String} {outer : List String} (hpath : s.path = name :: outer)
    (rest : List Task) : (s.leave name rest).path = outer := by
  show s.path.tail = outer
  rw [hpath]
  rfl

/-- Leaving the innermost name of the path marks it as left. -/
theorem Marked.leave {name : String} {outer : List String} (h : Marked s)
    (hpath : s.path = name :: outer) (hfresh : name ∉ outer) (rest : List Task) :
    Marked (s.leave name rest) := by
  constructor
  · intro n
    rw [path_leave hpath]
    show List.lookup n ((name, Mark.finished) :: s.marks) = some .onPath ↔ n ∈ outer
    rw [lookup_cons_eq]
    by_cases hn : n = name
    · -- The new mark hides that of being on the path.
      rw [hn]
      simp [hfresh]
    · rw [if_neg hn]
      refine (h.onPath n).trans ?_
      rw [hpath, List.mem_cons]
      exact ⟨fun h => h.resolve_left hn, Or.inr⟩
  · intro n
    show List.lookup n ((name, Mark.finished) :: s.marks) = some .finished
      ↔ n ∈ s.finished ++ [name]
    rw [lookup_cons_eq, List.mem_append, List.mem_singleton]
    by_cases hn : n = name
    · simp [hn]
    · rw [if_neg hn]
      exact (h.finished n).trans ⟨Or.inl, fun h => h.resolve_right hn⟩

/-! ## Settled spreads -/

/-- Nothing is left to be done about the spread of `v` by `u`. -/
inductive Settled (g : SpreadGraph) (s : Search) (u v : String) : Prop where
  | unknown : ¬ g.Knows v → Settled g s u v
  | left : v ∈ s.finished → Settled g s u v
  | closed : Closes s.loops u v → Settled g s u v
  /-- `v` has been entered from `u`, and neither has been left. -/
  | inside (inner outer : List String) : s.path = inner ++ v :: u :: outer → Settled g s u v

/-- What is settled stays so while nothing is taken back and the path only grows. -/
theorem Settled.mono {u v : String} (h : Settled g s u v)
    (finished : ∀ n ∈ s.finished, n ∈ t.finished)
    (loops : ∀ a b, Closes s.loops a b → Closes t.loops a b) (path : s.path <:+ t.path) :
    Settled g t u v := by
  cases h with
  | unknown hv => exact .unknown hv
  | left hv => exact .left (finished v hv)
  | closed hv => exact .closed (loops u v hv)
  | inside inner outer hp =>
    obtain ⟨more, hmore⟩ := path
    exact .inside (more ++ inner) outer (by rw [← hmore, hp, List.append_assoc])

/-- When the innermost name of the path is left, what has been inside of another one has been left. -/
theorem Settled.leave {name u v : String} {outer : List String} (h : Settled g s u v)
    (hpath : s.path = name :: outer) (rest : List Task) : Settled g (s.leave name rest) u v := by
  cases h with
  | unknown hv => exact .unknown hv
  | left hv => exact .left (List.mem_append_left _ hv)
  | closed hv => exact .closed hv
  | inside inner below hin =>
    rw [hpath] at hin
    cases inner with
    | nil =>
      rw [List.nil_append, List.cons.injEq] at hin
      exact .left (List.mem_append_right _ (by rw [hin.1]; exact List.mem_cons_self ..))
    | cons n inner =>
      rw [List.cons_append, List.cons.injEq] at hin
      exact .inside inner below ((path_leave hpath rest).trans hin.2)

/-- A known name that the innermost name of the path spreads, and that is settled, has been left, or
the spread closes a loop: nothing is inside of the innermost name. -/
theorem Settled.of_innermost {name v : String} {outer : List String} (h : Settled g s name v)
    (hpath : s.path = name :: outer) (hfresh : name ∉ outer) (hk : g.Knows v) :
    v ∈ s.finished ∨ Closes s.loops name v := by
  cases h with
  | unknown hv => exact absurd hk hv
  | left hv => exact Or.inl hv
  | closed hv => exact Or.inr hv
  | inside inner below hin =>
    rw [hpath] at hin
    -- The name would stand on the path a second time.
    have hmem : name ∈ outer := by
      cases inner with
      | nil =>
        rw [List.nil_append, List.cons.injEq] at hin
        rw [hin.2]
        exact List.mem_cons_self ..
      | cons n inner =>
        rw [List.cons_append, List.cons.injEq] at hin
        rw [hin.2]
        exact List.mem_append_right _ (List.mem_cons_of_mem _ (List.mem_cons_self ..))
    exact absurd hmem hfresh

/-! ## Pending tasks

The tasks of a name on the path are those that enter what it spreads and, behind them, the one that leaves
it. What comes first among the pending tasks says how the tasks of the innermost name begin. -/

section

variable {name u : String} {names todo : List String} {rest below : List Task}

/-- Where only names are to be entered, the first task is the first of them. -/
theorem enter_cons_eq_map (h : Task.enter name :: rest = names.map .enter) :
    ∃ later, names = name :: later ∧ rest = later.map .enter := by
  obtain ⟨n, later, rfl, hname, rfl⟩ := List.map_eq_cons_iff.mp h.symm
  exact ⟨later, by rw [Task.enter.inj hname], rfl⟩

theorem leave_cons_ne_map : Task.leave name :: rest ≠ names.map .enter := by
  intro h
  obtain ⟨n, later, -, hname, -⟩ := List.map_eq_cons_iff.mp h.symm
  exact absurd hname (by simp)

/-- A name that is to be entered first is the first of those in front of the leaving. -/
theorem enter_cons_eq_append (h : Task.enter name :: rest = todo.map .enter ++ .leave u :: below) :
    ∃ later, todo = name :: later ∧ rest = later.map .enter ++ .leave u :: below := by
  cases todo with
  | nil => exact absurd h (by simp)
  | cons n later =>
    simp only [List.map_cons, List.cons_append, List.cons.injEq, Task.enter.injEq] at h
    obtain ⟨rfl, rfl⟩ := h
    exact ⟨later, rfl, rfl⟩

/-- A name is left first only when nothing stands in front of its leaving. -/
theorem leave_cons_eq_append (h : Task.leave name :: rest = todo.map .enter ++ .leave u :: below) :
    todo = [] ∧ name = u ∧ rest = below := by
  cases todo with
  | nil =>
    simp only [List.map_nil, List.nil_append, List.cons.injEq, Task.leave.injEq] at h
    exact ⟨rfl, h⟩
  | cons n later => exact absurd h (by simp)

end

/-- The pending tasks, cut at the leaving of each name on the path. What a name spreads is pending
or settled. -/
inductive Frames (g : SpreadGraph) (settled : String → String → Prop) :
    List Task → List String → Prop where
  | roots (names : List String) : Frames g settled (names.map .enter) []
  | spreading {todo : List String} {u : String} {below : List Task} {outer : List String}
      (edges : ∀ v ∈ todo, g.Edge u v) (rest : ∀ v, g.Edge u v → v ∈ todo ∨ settled u v)
      (frames : Frames g settled below outer) :
      Frames g settled (todo.map .enter ++ .leave u :: below) (u :: outer)

/-- The cut of the pending tasks stays when more becomes settled. -/
theorem Frames.mono {settled settled' : String → String → Prop} {pending : List Task}
    {path : List String} (sub : ∀ u v, settled u v → settled' u v)
    (h : Frames g settled pending path) : Frames g settled' pending path := by
  induction h with
  | roots names => exact .roots names
  | spreading edges rest _ ih =>
    refine .spreading edges (fun v hv => ?_) ih
    rcases rest v hv with htodo | hset
    · exact Or.inl htodo
    · exact Or.inr (sub _ _ hset)

/-- The next name to be entered is a root, or spread by the innermost name of the path. When it is
settled it can be taken away. -/
theorem Frames.drop {settled : String → String → Prop} {name : String} {rest : List Task}
    {path : List String} (h : Frames g settled (.enter name :: rest) path)
    (hset : ∀ u outer, path = u :: outer → g.Edge u name → settled u name) :
    Frames g settled rest path ∧ ∀ u outer, path = u :: outer → g.Edge u name := by
  generalize hp : Task.enter name :: rest = pending at h
  cases h with
  | roots names =>
    obtain ⟨later, rfl, rfl⟩ := enter_cons_eq_map hp
    exact ⟨.roots later, fun u outer h => absurd h (by simp)⟩
  | @spreading todo u below outer edges others frames =>
    obtain ⟨later, rfl, rfl⟩ := enter_cons_eq_append hp
    have hedge : g.Edge u name := edges name (List.mem_cons_self ..)
    constructor
    · -- What was pending is pending still, but for the name that is settled.
      refine .spreading (fun v hv => edges v (List.mem_cons_of_mem _ hv)) (fun v hv => ?_) frames
      rcases others v hv with htodo | hv'
      · rcases List.mem_cons.mp htodo with rfl | htodo'
        · exact Or.inr (hset u outer rfl hedge)
        · exact Or.inl htodo'
      · exact Or.inr hv'
    · intro u' outer' heq
      rw [List.cons.injEq] at heq
      rw [← heq.1]
      exact hedge

/-- The name to be left is the innermost one of the path, and all it spreads is settled. -/
theorem Frames.leave {settled : String → String → Prop} {name : String} {rest : List Task}
    {path : List String} (h : Frames g settled (.leave name :: rest) path) :
    ∃ outer, path = name :: outer ∧ (∀ v, g.Edge name v → settled name v) ∧
      Frames g settled rest outer := by
  generalize hp : Task.leave name :: rest = pending at h
  cases h with
  | roots names => exact absurd hp leave_cons_ne_map
  | @spreading todo u below outer edges others frames =>
    obtain ⟨rfl, rfl, rfl⟩ := leave_cons_eq_append hp
    refine ⟨outer, rfl, fun v hv => ?_, frames⟩
    rcases others v hv with htodo | hset
    · exact absurd htodo List.not_mem_nil
    · exact hset

/-- Where nothing is pending the path is empty. -/
theorem Frames.path_eq_nil {settled : String → String → Prop} {path : List String}
    (h : Frames g settled [] path) : path = [] := by
  generalize hp : ([] : List Task) = pending at h
  cases h with
  | roots names => rfl
  | spreading edges others frames => exact absurd hp (by simp)

/-! ## The invariant -/

/-- What is true of a search at every moment. -/
structure Inv (g : SpreadGraph) (s : Search) : Prop where
  marked : Marked s
  path_nodup : s.path.Nodup
  finished_nodup : s.finished.Nodup
  /-- Each name on the path has been entered from the next one. -/
  chain : s.path.IsChain fun v u => g.Edge u v
  known : ∀ n, n ∈ s.path ∨ n ∈ s.finished → g.Knows n
  frames : Frames g (Settled g s) s.pending s.path
  ordered : ∀ front u back, s.finished = front ++ u :: back →
    ∀ v, g.Edge u v → g.Knows v → v ∈ front ∨ Closes s.loops u v
  genuine : ∀ path ∈ s.loops, IsLoop g.Edge path
  entered : ∀ path ∈ s.loops, ∀ n ∈ path, n ∈ s.path ∨ n ∈ s.finished

/-- The invariant holds at the start, with the roots pending and the path empty. -/
theorem inv_start (g : SpreadGraph) (roots : List String) : Inv g (start roots) where
  marked := ⟨fun n => by simp [start, mark?], fun n => by simp [start, mark?]⟩
  path_nodup := List.nodup_nil
  finished_nodup := List.nodup_nil
  chain := .nil
  known := fun n h => by simp [start] at h
  frames := .roots roots
  ordered := fun front u back h => by simp [start] at h
  genuine := fun path h => absurd h List.not_mem_nil
  entered := fun path h => absurd h List.not_mem_nil

/-- The name that is about to be entered is spread by the innermost name of the path. -/
theorem Inv.chain_of_enter {name : String} {rest : List Task} (h : Inv g s)
    (hp : s.pending = .enter name :: rest) : (name :: s.path).IsChain fun v u => g.Edge u v := by
  have hall : Frames g (fun _ _ => True) (.enter name :: rest) s.path := by
    rw [← hp]
    exact h.frames.mono fun _ _ _ => trivial
  have hchain := h.chain
  cases hpath : s.path with
  | nil => exact .singleton _
  | cons u outer =>
    rw [hpath] at hchain hall
    exact List.isChain_cons_cons.mpr ⟨(hall.drop fun _ _ _ _ => trivial).2 u outer rfl, hchain⟩

/-- The name that is about to be left is the innermost one of the path. -/
theorem Inv.exists_outer {name : String} {rest : List Task} (h : Inv g s)
    (hp : s.pending = .leave name :: rest) :
    ∃ outer, s.path = name :: outer ∧ (s.leave name rest).path = outer := by
  have hframes := h.frames
  rw [hp] at hframes
  obtain ⟨outer, hpath, -, -⟩ := hframes.leave
  exact ⟨outer, hpath, path_leave hpath rest⟩

/-- A task that has nothing to do is taken away. -/
theorem Inv.drop {rest : List Task} (h : Inv g s) (frames : Frames g (Settled g s) rest s.path) :
    Inv g { s with pending := rest } where
  marked := ⟨h.marked.onPath, h.marked.finished⟩
  path_nodup := h.path_nodup
  finished_nodup := h.finished_nodup
  chain := h.chain
  known := h.known
  frames := frames.mono fun _ _ hset => hset.mono (fun _ hn => hn) (fun _ _ hc => hc) List.suffix_rfl
  ordered := h.ordered
  genuine := h.genuine
  entered := h.entered

/-! ### A loop is found -/

/-- The loop goes down the path from the name to the innermost name, and back to the name. -/
theorem loopAt_append {name : String} {inner : List String} (below : List String) (h : name ∉ inner) :
    loopAt (inner ++ name :: below) name = name :: inner.reverse ++ [name] := by
  unfold loopAt
  rw [List.takeWhile_append_of_pos, List.takeWhile_cons_of_neg (by simp), List.append_nil]
  intro n hn
  have hne : n ≠ name := fun e => h (e ▸ hn)
  simp [hne]

/-- The last step of a loop is the spread that has led to its report. -/
theorem exists_loopAt_eq (u : String) (outer : List String) (v : String) :
    ∃ front, loopAt (u :: outer) v = front ++ [u, v] := by
  unfold loopAt
  by_cases h : u = v
  · exact ⟨[], by simp [h]⟩
  · exact ⟨v :: (outer.takeWhile (· ≠ v)).reverse, by simp [h]⟩

theorem not_mem_of_nodup_append {name : String} {inner below : List String}
    (h : (inner ++ name :: below).Nodup) : name ∉ inner := fun hin =>
  (List.nodup_append.mp h).2.2 name hin name (List.mem_cons_self ..) rfl

/-- The path down from a name on it, closed by a spread of that name, is a loop. -/
theorem isLoop_loopAt {edge : String → String → Prop} {path : List String} {name : String}
    (hmem : name ∈ path) (hnodup : path.Nodup)
    (hchain : (name :: path).IsChain fun v u => edge u v) : IsLoop edge (loopAt path name) := by
  obtain ⟨inner, below, rfl⟩ := List.append_of_mem hmem
  have hfresh := not_mem_of_nodup_append hnodup
  have hclosed : (name :: (inner ++ [name])).IsChain fun v u => edge u v := by
    rw [List.append_cons, ← List.cons_append] at hchain
    exact hchain.left_of_append
  rw [loopAt_append below hfresh]
  refine ⟨name, inner.reverse, rfl, ?_, ?_⟩
  · rw [List.nodup_cons, List.mem_reverse, List.nodup_reverse]
    exact ⟨hfresh, (List.nodup_append.mp hnodup).1⟩
  · rw [← List.isChain_reverse] at hclosed
    simpa using hclosed

/-- Entering a name that is on the path reports the loop that it closes. That settles the spread that has
led to it. -/
theorem Inv.close {name : String} {rest : List Task} (h : Inv g s)
    (hp : s.pending = .enter name :: rest) (hm : s.mark? name = some .onPath) :
    Inv g { s with pending := rest, loops := s.loops ++ [loopAt s.path name] } := by
  have hmem : name ∈ s.path := (h.marked.onPath name).mp hm
  have hframes := h.frames
  rw [hp] at hframes
  -- The path is not empty, and its innermost name is the one that spreads `name`.
  obtain ⟨u, outer, hpath⟩ : ∃ u outer, s.path = u :: outer :=
    List.exists_cons_of_ne_nil (List.ne_nil_of_mem hmem)
  have hmono : ∀ a b, Settled g s a b →
      Settled g { s with pending := rest, loops := s.loops ++ [loopAt s.path name] } a b := by
    intro a b hset
    exact hset.mono (fun _ hn => hn) (fun _ _ hc => hc.mono) List.suffix_rfl
  have hloop : IsLoop g.Edge (loopAt s.path name) :=
    isLoop_loopAt hmem h.path_nodup (h.chain_of_enter hp)
  have hcloses : Closes (s.loops ++ [loopAt s.path name]) u name := by
    obtain ⟨front, hfront⟩ := exists_loopAt_eq u outer name
    rw [hpath, hfront]
    exact ⟨front, List.mem_append_right _ (List.mem_cons_self ..)⟩
  refine
    { marked := ⟨h.marked.onPath, h.marked.finished⟩
      path_nodup := h.path_nodup
      finished_nodup := h.finished_nodup
      chain := h.chain
      known := h.known
      frames := ?_
      ordered := ?_
      genuine := ?_
      entered := ?_ }
  · -- The spread is done with, because it closes the loop that is reported now.
    refine ((hframes.mono hmono).drop fun u' outer' hpath' _ => ?_).1
    rw [hpath, List.cons.injEq] at hpath'
    rw [← hpath'.1]
    exact .closed hcloses
  · intro fr a back hfin v hv hk
    rcases h.ordered fr a back hfin v hv hk with hin | hcl
    · exact Or.inl hin
    · exact Or.inr hcl.mono
  · intro path hpath'
    rcases List.mem_append.mp hpath' with hold | hnew
    · exact h.genuine path hold
    · rw [List.mem_singleton.mp hnew]
      exact hloop
  · intro path hpath' n hn
    rcases List.mem_append.mp hpath' with hold | hnew
    · exact h.entered path hold n hn
    · rw [List.mem_singleton.mp hnew] at hn
      left
      simp only [loopAt, List.cons_append, List.mem_cons, List.mem_append, List.mem_reverse,
        List.not_mem_nil, or_false] at hn
      rcases hn with rfl | hn | rfl
      · exact hmem
      · exact (List.takeWhile_sublist _).subset hn
      · exact hmem

/-! ### A name is entered, and left -/

/-- Entering a name without a mark puts it on the path, with what it spreads pending in front of its
leaving. -/
theorem Inv.enter {name : String} {rest : List Task} {spreads : List String} (h : Inv g s)
    (hp : s.pending = .enter name :: rest) (hm : s.mark? name = none)
    (hg : g.spreads? name = some spreads) :
    Inv g
      { s with
        pending := spreads.map .enter ++ .leave name :: rest
        path := name :: s.path
        marks := (name, .onPath) :: s.marks } := by
  have hpath := h.marked.not_mem_path hm
  have hframes := h.frames
  rw [hp] at hframes
  -- The path only grows, so that what is settled stays so.
  have hmono : ∀ a b, Settled g s a b →
      Settled g
        { s with
          pending := spreads.map .enter ++ .leave name :: rest
          path := name :: s.path
          marks := (name, .onPath) :: s.marks } a b := by
    intro a b hset
    exact hset.mono (fun _ hn => hn) (fun _ _ hc => hc) (List.suffix_cons name s.path)
  -- The spread that has led here is settled, as the name is inside of the one that spreads it.
  obtain ⟨hbelow, -⟩ := (hframes.mono hmono).drop fun u outer hpath' _ =>
    .inside [] outer (by rw [hpath']; rfl)
  refine
    { marked := h.marked.enter hm
      path_nodup := List.nodup_cons.mpr ⟨hpath, h.path_nodup⟩
      finished_nodup := h.finished_nodup
      chain := h.chain_of_enter hp
      known := ?_
      frames := ?_
      ordered := h.ordered
      genuine := h.genuine
      entered := ?_ }
  · -- The new name is known, since the graph gives its spreads.
    intro n hn
    rcases hn with hn | hn
    · rcases List.mem_cons.mp hn with rfl | hn'
      · exact ⟨spreads, hg⟩
      · exact h.known n (Or.inl hn')
    · exact h.known n (Or.inr hn)
  · -- A new frame: all that the name spreads is pending.
    refine .spreading (fun v hv => ⟨spreads, hg, hv⟩) (fun v hv => ?_) hbelow
    obtain ⟨spreads', hg', hv'⟩ := hv
    rw [hg] at hg'
    rw [Option.some.inj hg']
    exact Or.inl hv'
  · -- What the loops go through stays on the path or among what has been left.
    intro path hl n hn
    rcases h.entered path hl n hn with hin | hin
    · exact Or.inl (List.mem_cons_of_mem _ hin)
    · exact Or.inr hin

/-- Leaving the innermost name of the path makes it finished: by the cut, all it spreads is settled. -/
theorem Inv.leave {name : String} {rest : List Task} (h : Inv g s)
    (hp : s.pending = .leave name :: rest) : Inv g (s.leave name rest) := by
  have hframes := h.frames
  rw [hp] at hframes
  obtain ⟨outer, hpath, hsettled, hbelow⟩ := hframes.leave
  have htail := path_leave hpath rest
  have hnodup := h.path_nodup
  have hchain := h.chain
  rw [hpath] at hnodup hchain
  obtain ⟨hfresh, hnodup⟩ := List.nodup_cons.mp hnodup
  have hmem : name ∈ s.path := by
    rw [hpath]
    exact List.mem_cons_self ..
  -- The name goes over from the path to those that have been left.
  have hmoved : ∀ n, n ∈ s.path ∨ n ∈ s.finished ↔ n ∈ outer ∨ n ∈ s.finished ++ [name] := by
    intro n
    rw [hpath, List.mem_cons, List.mem_append, List.mem_singleton, or_comm (a := n = name),
      or_assoc, or_comm (a := n = name)]
  refine
    { marked := h.marked.leave hpath hfresh rest
      path_nodup := by rw [htail]; exact hnodup
      finished_nodup := ?_
      chain := by rw [htail]; exact hchain.tail
      known := ?_
      frames := ?_
      ordered := ?_
      genuine := h.genuine
      entered := ?_ }
  · -- The name has been on the path, so it has not been left before.
    show (s.finished ++ [name]).Nodup
    rw [← List.concat_eq_append]
    exact h.finished_nodup.concat (h.marked.disjoint hmem)
  · intro n hn
    rw [htail] at hn
    exact h.known n ((hmoved n).mpr hn)
  · -- For the names further outside, what is settled stays so.
    rw [htail]
    exact hbelow.mono fun _ _ hset => hset.leave hpath rest
  · intro front u back heq v hv hk
    have heq' : s.finished ++ [name] = front ++ u :: back := heq
    rcases List.eq_nil_or_concat back with rfl | ⟨back', last, rfl⟩
    · -- `u` is the name that is being left: all it spreads is settled.
      obtain ⟨hfront, hname⟩ := List.append_inj' heq' rfl
      have hname : name = u := by simpa using hname
      rw [← hname] at hv ⊢
      rw [← hfront]
      exact (hsettled v hv).of_innermost hpath hfresh hk
    · -- `u` was left earlier.
      rw [List.concat_eq_append, ← List.cons_append, ← List.append_assoc] at heq'
      obtain ⟨hfront, -⟩ := List.append_inj' heq' rfl
      exact h.ordered front u back' hfront v hv hk
  · intro path hl n hn
    rw [htail]
    exact (hmoved n).mp (h.entered path hl n hn)

/-- A step keeps the invariant. -/
theorem Inv.next (h : Inv g s) (hmove : Move g s t) : Inv g t := by
  cases hmove with
  | @skip name rest hp hm =>
    -- What has been left is settled for whoever spreads it.
    have hframes := h.frames
    rw [hp] at hframes
    exact h.drop (hframes.drop fun _ _ _ _ => .left ((h.marked.finished name).mp hm)).1
  | close hp hm => exact h.close hp hm
  | ignore hp hg =>
    -- So is what the graph does not know.
    have hframes := h.frames
    rw [hp] at hframes
    exact h.drop (hframes.drop fun _ _ _ _ => .unknown (SpreadGraph.not_knows hg)).1
  | enter hp hm hg => exact h.enter hp hm hg
  | leave hp => exact h.leave hp

/-- The invariant holds at the end of a search. -/
theorem inv_run (g : SpreadGraph) (roots : List String) : Inv g ((start roots).run g) :=
  run_induction Inv.next (inv_start g roots)

/-- At the end no name is on the path. -/
theorem path_run (g : SpreadGraph) (roots : List String) : ((start roots).run g).path = [] := by
  have hframes := (inv_run g roots).frames
  rw [pending_run] at hframes
  exact hframes.path_eq_nil

end Search

end QueryModule.Fragment
