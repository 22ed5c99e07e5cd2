/-!
# Depth-first search of spreads

Fragments and their spreads form a graph. The search enters a name, goes through the names it spreads
in order, and leaves it again; names that the graph does not know are passed over, and a name that
has been left is not entered again. Two things come out of it: the names in the order of leaving, in
which every name stands behind those it spreads, and a loop for every spread that leads back to a
name which has been entered and not yet left.

The search is a sequence of small steps, so that what holds at every moment can be said of a step.
Each step either enters a name for the first time or takes a task away, and so the search ends.
-/

namespace QueryModule.Fragment

/-- Names, and for each of them the names that it spreads, in order. -/
structure SpreadGraph where
  nodes : List (String × List String)
  deriving DecidableEq, Repr

namespace SpreadGraph

/-- The names that the graph knows. -/
def names (g : SpreadGraph) : List String := g.nodes.map (·.1)

/-- What a name spreads, if the graph knows it. -/
def spreads? (g : SpreadGraph) (name : String) : Option (List String) := g.nodes.lookup name

end SpreadGraph

/-- What a search knows of a name that it has entered. -/
inductive Mark where
  /-- Entered and not yet left. -/
  | onPath
  /-- Left. -/
  | finished
  deriving DecidableEq, Repr

/-- What is still to be done. -/
inductive Task where
  | enter (name : String)
  | leave (name : String)
  deriving DecidableEq, Repr

/-- A search in progress. -/
structure Search where
  /-- What is still to be done, next task first. -/
  pending : List Task
  /-- The names that have been entered and not yet left, innermost first. -/
  path : List String
  /-- The marks of names, latest first. -/
  marks : List (String × Mark)
  /-- The names that have been left, in that order. -/
  finished : List String
  /-- The loops that have been found, in that order. Each starts and ends with the same name. -/
  loops : List (List String)
  deriving DecidableEq, Repr

namespace Search

/-- The search that is about to enter some names. -/
def start (roots : List String) : Search := ⟨roots.map .enter, [], [], [], []⟩

/-- The mark of a name. -/
def mark? (s : Search) (name : String) : Option Mark := s.marks.lookup name

/-- The loop that a spread of `name` closes. The part of the path outside of the loop only leads into
it. -/
def loopAt (path : List String) (name : String) : List String :=
  name :: (path.takeWhile (· ≠ name)).reverse ++ [name]

/-- Enters a name, given what is left to be done afterwards. -/
def enter (g : SpreadGraph) (s : Search) (name : String) (rest : List Task) : Search :=
  match s.mark? name with
  | some .finished => { s with pending := rest }
  | some .onPath => { s with pending := rest, loops := s.loops ++ [loopAt s.path name] }
  | none =>
    match g.spreads? name with
    | none => { s with pending := rest }
    | some spreads =>
      { s with
        pending := spreads.map .enter ++ .leave name :: rest
        path := name :: s.path
        marks := (name, .onPath) :: s.marks }

/-- Leaves a name, given what is left to be done afterwards. -/
def leave (s : Search) (name : String) (rest : List Task) : Search :=
  { s with
    pending := rest
    path := s.path.tail
    marks := (name, .finished) :: s.marks
    finished := s.finished ++ [name] }

/-- The next step of a search, if anything is left to be done. -/
def next? (g : SpreadGraph) (s : Search) : Option Search :=
  match s.pending with
  | [] => none
  | .enter name :: rest => some (s.enter g name rest)
  | .leave name :: rest => some (s.leave name rest)

/-- How many of the known names have not been entered. -/
def unvisited (g : SpreadGraph) (s : Search) : Nat := g.names.countP fun n => (s.mark? n).isNone

/-- When a name gets a mark, the names without one are those without one before, less that name. -/
theorem isNone_lookup_cons (marks : List (String × Mark)) (name n : String) (m : Mark) :
    (List.lookup n ((name, m) :: marks)).isNone = (n != name && (List.lookup n marks).isNone) := by
  rw [List.lookup_cons]
  cases h : n == name <;> simp [bne, h]

/-- A name without a mark had none before another name got one. -/
theorem isNone_of_cons {marks : List (String × Mark)} {name n : String} {m : Mark}
    (h : (List.lookup n ((name, m) :: marks)).isNone = true) :
    (List.lookup n marks).isNone = true := by
  rw [isNone_lookup_cons, Bool.and_eq_true] at h
  exact h.2

/-- Marking a name adds no unvisited one. -/
theorem countP_cons_le (names : List String) (marks : List (String × Mark)) (name : String)
    (m : Mark) :
    (names.countP fun n => (List.lookup n ((name, m) :: marks)).isNone)
      ≤ names.countP fun n => (List.lookup n marks).isNone :=
  List.countP_mono_left fun _ _ h => isNone_of_cons h

/-- Marking an unvisited name takes it away from the unvisited ones. -/
theorem countP_cons_lt {names : List String} {marks : List (String × Mark)} {name : String}
    (m : Mark) (hmem : name ∈ names) (hnone : List.lookup name marks = none) :
    (names.countP fun n => (List.lookup n ((name, m) :: marks)).isNone)
      < names.countP fun n => (List.lookup n marks).isNone := by
  simp only [isNone_lookup_cons]
  rw [← List.countP_filter, List.countP_eq_length_filter, List.countP_eq_length_filter,
    List.length_filter_lt_length_iff_exists]
  exact ⟨name, List.mem_filter.mpr ⟨hmem, by rw [hnone]; rfl⟩, by simp⟩

/-- A name that the graph has spreads for is one of its names. -/
theorem mem_names_of_spreads? {g : SpreadGraph} {name : String} {spreads : List String}
    (h : g.spreads? name = some spreads) : name ∈ g.names := by
  obtain ⟨front, back, hnodes, -⟩ := List.lookup_eq_some_iff.mp h
  rw [SpreadGraph.names, hnodes, List.map_append]
  exact List.mem_append_right _ List.mem_cons_self

/-- A step either takes an unvisited name away, or leaves their number as it is or smaller and takes a
task away. -/
theorem next?_decreases {g : SpreadGraph} {s t : Search} (h : s.next? g = some t) :
    t.unvisited g < s.unvisited g ∨
      (t.unvisited g ≤ s.unvisited g ∧ t.pending.length < s.pending.length) := by
  unfold next? at h
  split at h
  · simp at h
  · next name rest hp =>
    rw [← Option.some.inj h]
    unfold enter
    split
    · exact Or.inr ⟨Nat.le_refl _, by simp [hp]⟩
    · exact Or.inr ⟨Nat.le_refl _, by simp [hp]⟩
    · next hm =>
      split
      · exact Or.inr ⟨Nat.le_refl _, by simp [hp]⟩
      · next hs => exact Or.inl (countP_cons_lt .onPath (mem_names_of_spreads? hs) hm)
  · next name rest hp =>
    rw [← Option.some.inj h]
    exact Or.inr ⟨countP_cons_le _ _ _ _, by simp [leave, hp]⟩

/-- The search at its end, when nothing is left to be done. -/
def run (g : SpreadGraph) (s : Search) : Search :=
  match h : s.next? g with
  | none => s
  | some t =>
    have := next?_decreases h
    run g t
termination_by (s.unvisited g, s.pending.length)
decreasing_by
  rcases this with hlt | ⟨hle, hlt⟩
  · exact Prod.Lex.left _ _ hlt
  · rcases Nat.lt_or_eq_of_le hle with hlt' | heq
    · exact Prod.Lex.left _ _ hlt'
    · rw [heq]
      exact Prod.Lex.right _ hlt

end Search

/-- The names reached from some roots in the order in which the search leaves them: each one once, and
behind the names that it spreads unless they lead back to it. -/
def SpreadGraph.finishOrder (g : SpreadGraph) (roots : List String) : List String :=
  ((Search.start roots).run g).finished

/-- The loops that a search of all names finds, one for each spread that closes one. -/
def SpreadGraph.loops (g : SpreadGraph) : List (List String) :=
  ((Search.start g.names).run g).loops

end QueryModule.Fragment
