import QueryModule.Proofs.Fragment.EntryOrder

/-!
# A search without a memory

A search does not enter a name again that it has left. The search that does enter it again, and lists
all that lies below it once more, is simpler: what it lists for some roots is what it lists for each of
them, one after the other. `Unwinds` is this search, and in a graph without circles it comes to an end.

The memory of the real search leaves out repetitions and nothing else. While it runs, what it has left
are the first occurrences in what the search without a memory has listed by then (`Unwinding`). The
step that this hangs on is the one in which a name is passed over: everything below a name that has been
left has been left, too, and so the repetition brings nothing new.

> `finishOrder_eq_eraseDups`: a search leaves the first occurrences of what it would list without a
> memory.

So it does not matter where a memory is kept and where it is thrown away. The order of all fragments
shares one among all of them; what a selection set needs is found with a new one each time:

> `spreadOrder_eq_firsts`
-/

namespace QueryModule.Fragment

open QueryModule.Graphql
open Relation (TransGen ReflTransGen)

/-! ## First occurrences -/

section

variable {α : Type} [BEq α] [LawfulBEq α] {l m more : List α} {a : α}

/-- What is listed again changes nothing. -/
theorem eraseDups_append_of_subset (h : ∀ b ∈ more, b ∈ l) : (l ++ more).eraseDups = l.eraseDups := by
  have hnone : more.removeAll l = [] := by
    unfold List.removeAll
    rw [List.filter_eq_nil_iff]
    intro b hb
    simp [h b hb]
  rw [List.eraseDups_append, hnone, List.eraseDups_nil, List.append_nil]

/-- What has not been listed before is added at the end. -/
theorem eraseDups_concat_of_not_mem (h : a ∉ l) : (l ++ [a]).eraseDups = l.eraseDups ++ [a] := by
  have hself : [a].removeAll l = [a] := by
    unfold List.removeAll
    rw [List.filter_eq_self]
    intro b hb
    rw [List.mem_singleton.mp hb]
    simp [h]
  rw [List.eraseDups_append, hself]
  rfl

/-- Selecting from a list and leaving out repetitions can be exchanged. -/
theorem eraseDups_filter (p : α → Bool) (l : List α) :
    (l.filter p).eraseDups = l.eraseDups.filter p := by
  induction l using List.reverseRecOn with
  | nil => rfl
  | append_singleton l a ih =>
    rw [List.filter_append]
    by_cases hmem : a ∈ l
    · have hagain : ∀ b ∈ [a].filter p, b ∈ l.filter p := by
        intro b hb
        obtain ⟨hb, hp⟩ := List.mem_filter.mp hb
        rw [List.mem_singleton.mp hb] at hp ⊢
        exact List.mem_filter.mpr ⟨hmem, hp⟩
      rw [eraseDups_append_of_subset hagain, ih,
        eraseDups_append_of_subset (by simpa using hmem)]
    · rw [eraseDups_concat_of_not_mem hmem, List.filter_append, ← ih]
      by_cases hp : p a = true
      · have hself : [a].filter p = [a] := List.filter_eq_self.mpr (by simpa using hp)
        rw [hself]
        exact eraseDups_concat_of_not_mem fun hin => hmem (List.mem_filter.mp hin).1
      · have hnone : [a].filter p = [] := List.filter_eq_nil_iff.mpr (by simpa using hp)
        rw [hnone, List.append_nil, List.append_nil]

/-- Where nothing is repeated nothing is left out. -/
theorem eraseDups_of_nodup (h : l.Nodup) : l.eraseDups = l := by
  induction l using List.reverseRecOn with
  | nil => rfl
  | append_singleton l a ih =>
    rw [← List.concat_eq_append, List.nodup_concat] at h
    rw [eraseDups_concat_of_not_mem h.1, ih h.2]

/-- The first occurrences in two lists decide those in both together. -/
theorem eraseDups_append_congr {l' m' : List α} (hl : l.eraseDups = l'.eraseDups)
    (hm : m.eraseDups = m'.eraseDups) : (l ++ m).eraseDups = (l' ++ m').eraseDups := by
  have hmem : ∀ b, b ∈ l ↔ b ∈ l' := by
    intro b
    rw [← List.mem_eraseDups, hl, List.mem_eraseDups]
  have hfresh : ∀ b ∈ m'.eraseDups, (!l.elem b) = !l'.elem b := by
    intro b _
    rw [Bool.eq_iff_iff]
    simp [hmem]
  rw [List.eraseDups_append, List.eraseDups_append, hl]
  unfold List.removeAll
  rw [eraseDups_filter, eraseDups_filter, hm, List.filter_congr hfresh]

end

/-! ## The search without a memory -/

/-- What is listed while some tasks are done, when nothing is remembered: a known name is listed behind
all that lies below it, as often as a task or a spread leads to it. -/
inductive SpreadGraph.Unwinds (g : SpreadGraph) : List Task → List String → Prop where
  | done : Unwinds g [] []
  | enter {name : String} {spreads : List String} {rest : List Task} {below behind : List String} :
      g.spreads? name = some spreads → Unwinds g (spreads.map .enter) below → Unwinds g rest behind →
      Unwinds g (.enter name :: rest) (below ++ name :: behind)
  | ignore {name : String} {rest : List Task} {behind : List String} :
      g.spreads? name = none → Unwinds g rest behind → Unwinds g (.enter name :: rest) behind
  | leave {name : String} {rest : List Task} {behind : List String} :
      Unwinds g rest behind → Unwinds g (.leave name :: rest) (name :: behind)

namespace SpreadGraph

variable {g : SpreadGraph}

/-- Tasks behind others are listed behind them. -/
theorem Unwinds.append {tasks more : List Task} {l further : List String} (h : g.Unwinds tasks l)
    (hmore : g.Unwinds more further) : g.Unwinds (tasks ++ more) (l ++ further) := by
  induction h with
  | done => exact hmore
  | enter hg hbelow _ _ ih =>
    rw [List.append_assoc, List.cons_append]
    exact .enter hg hbelow ih
  | ignore hg _ ih => exact .ignore hg ih
  | leave _ ih => exact .leave ih

/-- The tasks have to do with the name: it is to be left, or it is known and a name that is to be entered
leads to it. -/
def Concerns (g : SpreadGraph) (tasks : List Task) (n : String) : Prop :=
  .leave n ∈ tasks ∨ g.Knows n ∧ ∃ root, .enter root ∈ tasks ∧ ReflTransGen g.Edge root n

theorem Concerns.cons {rest : List Task} {n : String} (h : g.Concerns rest n) (task : Task) :
    g.Concerns (task :: rest) n := by
  rcases h with hleave | ⟨hk, root, hroot, hpath⟩
  · exact Or.inl (List.mem_cons_of_mem _ hleave)
  · exact Or.inr ⟨hk, root, List.mem_cons_of_mem _ hroot, hpath⟩

/-- Where names are to be entered only, one of them leads there. -/
theorem Concerns.exists_path {names : List String} {n : String} (h : g.Concerns (names.map .enter) n) :
    g.Knows n ∧ ∃ root ∈ names, ReflTransGen g.Edge root n := by
  rcases h with hleave | ⟨hk, root, hroot, hpath⟩
  · simp at hleave
  · exact ⟨hk, root, by simpa using hroot, hpath⟩

/-- Only names that the tasks have to do with are listed. -/
theorem Unwinds.mem {tasks : List Task} {l : List String} (h : g.Unwinds tasks l) {n : String}
    (hn : n ∈ l) : g.Concerns tasks n := by
  induction h with
  | done => exact absurd hn List.not_mem_nil
  | @enter name spreads rest below behind hg _ _ ihbelow ihbehind =>
    rcases List.mem_append.mp hn with hn | hn
    · obtain ⟨hk, root, hroot, hpath⟩ := (ihbelow hn).exists_path
      exact Or.inr ⟨hk, name, List.mem_cons_self .., .head ⟨spreads, hg, hroot⟩ hpath⟩
    · rcases List.mem_cons.mp hn with rfl | hn
      · exact Or.inr ⟨⟨spreads, hg⟩, n, List.mem_cons_self .., .refl⟩
      · exact (ihbehind hn).cons _
  | ignore _ _ ih => exact (ih hn).cons _
  | leave _ ih =>
    rcases List.mem_cons.mp hn with rfl | hn
    · exact Or.inl (List.mem_cons_self ..)
    · exact (ih hn).cons _

/-! ### It ends -/

/-- The search of some names ends when it does so below each of them. -/
theorem exists_unwinds_of_below : ∀ names : List String,
    (∀ name ∈ names, ∀ spreads, g.spreads? name = some spreads →
      ∃ below, g.Unwinds (spreads.map .enter) below) → ∃ l, g.Unwinds (names.map .enter) l
  | [], _ => ⟨[], .done⟩
  | name :: rest, h => by
    obtain ⟨behind, hbehind⟩ := exists_unwinds_of_below rest fun n hn =>
      h n (List.mem_cons_of_mem _ hn)
    cases hg : g.spreads? name with
    | none => exact ⟨behind, .ignore hg hbehind⟩
    | some spreads =>
      obtain ⟨below, hbelow⟩ := h name (List.mem_cons_self ..) spreads hg
      exact ⟨_, .enter hg hbelow hbehind⟩

/-- In a graph without circles the search below a known name ends. -/
theorem exists_unwinds_below (hacyclic : Acyclic g.Edge) {name : String} {spreads : List String}
    (hg : g.spreads? name = some spreads) : ∃ below, g.Unwinds (spreads.map .enter) below := by
  -- By the place of the name in the order of leaving: what it spreads stands further in front.
  induction hplace : (g.finishOrder g.names).idxOf name using Nat.strongRecOn
      generalizing name spreads with
  | ind place ih =>
    refine exists_unwinds_of_below spreads fun inner hinner spreads' hg' => ?_
    have hopen : g.OpenEdge name inner := .of_acyclic hacyclic ⟨spreads, hg, hinner⟩
    have hfront := hopen.idxOf_lt ⟨spreads', hg'⟩
    rw [hplace] at hfront
    exact ih _ hfront hg' rfl

/-- In a graph without circles every such search ends. -/
theorem exists_unwinds (hacyclic : Acyclic g.Edge) (names : List String) :
    ∃ l, g.Unwinds (names.map .enter) l :=
  exists_unwinds_of_below names fun _ _ _ hg => exists_unwinds_below hacyclic hg

end SpreadGraph

/-! ## What the memory leaves out -/

namespace Search

variable {g : SpreadGraph} {s t : Search} {roots l : List String}

/-- The search without a memory lists `l`, and has come to a place in it: what the search with a memory
has left are the first occurrences up to there, and what it still has to do leads to the rest. -/
def Unwinding (g : SpreadGraph) (l : List String) (s : Search) : Prop :=
  ∃ gone ahead, l = gone ++ ahead ∧ g.Unwinds s.pending ahead ∧ gone.eraseDups = s.finished

/-- At the start nothing has been listed. -/
theorem unwinding_start (h : g.Unwinds (roots.map .enter) l) : Unwinding g l (start roots) :=
  ⟨[], l, rfl, h, rfl⟩

/-- Below a name that has been left nothing is listed but what has been left, too. -/
theorem Inv.mem_finished_of_unwinds (hinv : Inv g s) (hacyclic : Acyclic g.Edge) {name : String}
    {spreads below : List String} (hname : name ∈ s.finished) (hg : g.spreads? name = some spreads)
    (hbelow : g.Unwinds (spreads.map .enter) below) {n : String} (hn : n ∈ below) :
    n ∈ s.finished := by
  obtain ⟨hk, root, hroot, hpath⟩ := (hbelow.mem hn).exists_path
  exact hinv.mem_finished hacyclic hname (.head ⟨spreads, hg, hroot⟩ hpath) hk

/-- Every step keeps the search at a place in the list: a name is entered where its listing begins, and
left where it is listed. -/
theorem Unwinding.next (hacyclic : Acyclic g.Edge) (hinv : Inv g s) (h : Unwinding g l s)
    (hmove : Move g s t) : Unwinding g l t := by
  have hnext := hinv.next hmove
  obtain ⟨gone, ahead, rfl, hahead, hgone⟩ := h
  cases hmove with
  | @skip name rest hp hleft =>
    rw [hp] at hahead
    have hname := (hinv.marked.finished name).mp hleft
    cases hahead with
    | @enter _ spreads _ below behind hg hbelow hbehind =>
      -- The search without a memory lists again what lies below the name.
      refine ⟨gone ++ (below ++ [name]), behind, by simp, hbehind, ?_⟩
      have hagain : ∀ n ∈ below ++ [name], n ∈ gone := by
        intro n hn
        rw [← List.mem_eraseDups, hgone]
        rcases List.mem_append.mp hn with hn | hn
        · exact hinv.mem_finished_of_unwinds hacyclic hname hg hbelow hn
        · rw [List.mem_singleton.mp hn]
          exact hname
      rw [eraseDups_append_of_subset hagain]
      exact hgone
    | ignore hg _ => exact absurd (hinv.known name (Or.inr hname)) (SpreadGraph.not_knows hg)
  | close =>
    exact absurd (hnext.loops_eq_nil hacyclic) (by simp)
  | ignore hp hunknown =>
    rw [hp] at hahead
    cases hahead with
    | enter hg _ _ =>
      rw [hg] at hunknown
      exact absurd hunknown (by simp)
    | ignore _ hbehind => exact ⟨gone, _, rfl, hbehind, hgone⟩
  | @enter name rest spreads hp _ hknown =>
    rw [hp] at hahead
    cases hahead with
    | ignore hg _ =>
      rw [hg] at hknown
      exact absurd hknown (by simp)
    | @enter _ spreads' _ below behind hg hbelow hbehind =>
      obtain rfl : spreads' = spreads := Option.some.inj (hg.symm.trans hknown)
      exact ⟨gone, below ++ name :: behind, rfl, hbelow.append (.leave hbehind), hgone⟩
  | @leave name rest hp =>
    obtain ⟨outer, hpath, -⟩ := hinv.exists_outer hp
    rw [hp] at hahead
    cases hahead with
    | @leave _ _ behind hbehind =>
      -- The name is on the path, and so it has not been left before.
      have hname : name ∈ s.path := by
        rw [hpath]
        exact List.mem_cons_self ..
      have hfresh : name ∉ gone := by
        rw [← List.mem_eraseDups, hgone]
        exact hinv.marked.disjoint hname
      refine ⟨gone ++ [name], behind, by simp, hbehind, ?_⟩
      show _ = s.finished ++ [name]
      rw [eraseDups_concat_of_not_mem hfresh, hgone]

/-- So at the end the whole list has been gone through. -/
theorem unwinding_run (hacyclic : Acyclic g.Edge) (h : g.Unwinds (roots.map .enter) l) :
    Unwinding g l ((start roots).run g) :=
  (run_induction (P := fun s => Inv g s ∧ Unwinding g l s)
    (fun h hmove => ⟨h.1.next hmove, h.2.next hacyclic h.1 hmove⟩)
    ⟨inv_start g roots, unwinding_start h⟩).2

end Search

namespace SpreadGraph

open Search

variable {g : SpreadGraph} {roots l : List String}

/-- In a graph without circles a search leaves the first occurrences of what it would list without a
memory. -/
theorem finishOrder_eq_eraseDups (hacyclic : Acyclic g.Edge)
    (h : g.Unwinds (roots.map .enter) l) : g.finishOrder roots = l.eraseDups := by
  obtain ⟨gone, ahead, rfl, hahead, hgone⟩ := unwinding_run hacyclic h
  rw [pending_run] at hahead
  cases hahead
  rw [List.append_nil]
  exact hgone.symm

/-- A search of known names leaves the first occurrences of what separate searches leave below each of
them, with the name itself behind. -/
theorem finishOrder_eq_flatMap (hacyclic : Acyclic g.Edge) {below : String → List String}
    {names : List String} (hnames : ∀ n ∈ names, g.spreads? n = some (below n)) :
    g.finishOrder names
      = (names.flatMap fun n => g.finishOrder (below n) ++ [n]).eraseDups := by
  have hlisted : ∃ l, g.Unwinds (names.map .enter) l ∧
      l.eraseDups = (names.flatMap fun n => g.finishOrder (below n) ++ [n]).eraseDups := by
    induction names with
    | nil => exact ⟨[], .done, rfl⟩
    | cons name rest ih =>
      obtain ⟨behind, hbehind, heq⟩ := ih fun n hn => hnames n (List.mem_cons_of_mem _ hn)
      obtain ⟨inner, hinner⟩ := exists_unwinds hacyclic (below name)
      have hg := hnames name (List.mem_cons_self ..)
      refine ⟨inner ++ name :: behind, .enter hg hinner hbehind, ?_⟩
      have hself : inner.eraseDups = (g.finishOrder (below name)).eraseDups := by
        rw [eraseDups_of_nodup (nodup_finishOrder g (below name)),
          finishOrder_eq_eraseDups hacyclic hinner]
      rw [List.flatMap_cons, List.append_cons]
      exact eraseDups_append_congr (eraseDups_append_congr hself rfl) heq
  obtain ⟨l, hl, heq⟩ := hlisted
  rw [finishOrder_eq_eraseDups hacyclic hl, heq]

end SpreadGraph

/-! ## From names to fragments -/

/-- The fragments of a list that no other one of their name stands in front of. -/
def firstsByName (l : List SourcedFragment) : List SourcedFragment :=
  l.eraseDupsBy fun f g => f.name == g.name

namespace Registry

variable {r : Registry}

/-- Where fragments are found under their names, leaving out repeated names leaves out the repeated
fragments. -/
theorem filterMap_eraseDups : ∀ {l : List SourcedFragment}, (∀ f ∈ l, r.get? f.name = some f) →
    (l.map (·.name)).eraseDups.filterMap r.get? = firstsByName l
  | [], _ => rfl
  | f :: rest, h => by
    let others := rest.filter fun g => (g.name == f.name) = false
    have hothers : ∀ g ∈ others, r.get? g.name = some g := fun g hg =>
      h g (List.mem_cons_of_mem _ (List.mem_filter.mp hg).1)
    have hnames : (rest.map (·.name)).filter (fun name => !name == f.name) = others.map (·.name) := by
      rw [List.filter_map]
      congr 1
      refine List.filter_congr fun g _ => ?_
      show (!g.name == f.name) = decide ((g.name == f.name) = false)
      cases g.name == f.name <;> rfl
    unfold firstsByName
    rw [List.map_cons, List.eraseDups_cons, List.filterMap_cons, h f (List.mem_cons_self ..), hnames,
      List.eraseDupsBy_cons, filterMap_eraseDups hothers]
    rfl
termination_by l => l.length
decreasing_by exact Nat.lt_succ_of_le (List.length_filter_le _ _)

/-- Every registered fragment, behind all that its own selections need. -/
def neededOneByOne (r : Registry) : List SourcedFragment :=
  r.fragments.flatMap fun f => r.neededBy f.definition.selections ++ [f]

/-- What is listed is found under its name. -/
theorem Lawful.get?_of_mem_neededOneByOne (h : r.Lawful) {f : SourcedFragment}
    (hf : f ∈ r.neededOneByOne) : r.get? f.name = some f := by
  obtain ⟨g, hg, hf⟩ := List.mem_flatMap.mp hf
  rcases List.mem_append.mp hf with hf | hf
  · exact (mem_neededBy.mp hf).1
  · rw [List.mem_singleton.mp hf]
    exact get?_of_nodup h.distinct hg

/-- The names that are listed come from one search for each fragment. -/
theorem map_name_neededOneByOne (r : Registry) :
    r.neededOneByOne.map (·.name)
      = r.fragments.flatMap fun f =>
          r.graph.finishOrder (spreadNames f.definition.selections) ++ [f.name] := by
  unfold neededOneByOne
  rw [List.map_flatMap]
  refine List.flatMap_congr fun f _ => ?_
  rw [List.map_append, map_name_neededBy]
  rfl

/-- The order of all fragments has the names in the order in which they occur first when the fragments
are gone through one by one. -/
theorem Lawful.finishOrder_names (h : r.Lawful) :
    r.graph.finishOrder r.graph.names = (r.neededOneByOne.map (·.name)).eraseDups := by
  -- In the graph a fragment spreads what its selections do.
  have hspreads : ∀ f ∈ r.fragments,
      r.graph.spreads? f.name = some (spreadNames f.definition.selections) := by
    intro f hf
    rw [spreads?_graph, get?_of_nodup h.distinct hf]
    rfl
  let below := fun name => (r.graph.spreads? name).getD []
  have hnames : ∀ n ∈ r.graph.names, r.graph.spreads? n = some (below n) := by
    intro n hn
    rw [names_graph] at hn
    obtain ⟨f, hf, rfl⟩ := List.mem_map.mp hn
    show _ = some ((r.graph.spreads? f.name).getD [])
    rw [hspreads f hf]
    rfl
  rw [SpreadGraph.finishOrder_eq_flatMap (acyclic_spreads_iff.mp h.acyclic) hnames, names_graph,
    List.flatMap_map, map_name_neededOneByOne]
  congr 1
  refine List.flatMap_congr fun f hf => ?_
  show r.graph.finishOrder ((r.graph.spreads? f.name).getD []) ++ [f.name] = _
  rw [hspreads f hf]
  rfl

end Registry

/-- **The two traversals agree.** Whatever offers a pool has had, when a registry comes of it, the order
of all fragments is what comes of going through the fragments as they are registered, listing for each
one what its selections need and then the fragment itself, and keeping the first occurrence of every
fragment. (A name stands for one fragment throughout this list, the one that is registered under it.) -/
theorem spreadOrder_eq_firsts (history : List Offer) (r : Registry)
    (h : (collected history).toRegistry = .ok r) :
    r.spreadOrder
        = firstsByName (r.fragments.flatMap fun f => r.neededBy f.definition.selections ++ [f]) ∧
      ∀ f ∈ r.fragments.flatMap (fun f => r.neededBy f.definition.selections ++ [f]),
        r.get? f.name = some f := by
  have hlawful := Registry.Lawful.of_toRegistry h
  have hget : ∀ f ∈ r.neededOneByOne, r.get? f.name = some f := fun f =>
    hlawful.get?_of_mem_neededOneByOne
  refine ⟨?_, hget⟩
  show (r.graph.finishOrder r.graph.names).filterMap r.get? = firstsByName r.neededOneByOne
  rw [hlawful.finishOrder_names, Registry.filterMap_eraseDups hget]

/-- What `A` needs is listed again behind it; the first occurrences are the order of all fragments. -/
theorem spreadOrder_eq_firsts_sharingOffers :
    (collected sharingOffers).toRegistry = .ok (collected sharingOffers).merged ∧
      (((collected sharingOffers).merged.fragments.flatMap fun f =>
        (collected sharingOffers).merged.neededBy f.definition.selections ++ [f]).map (·.name)
          = ["E", "C", "B", "A", "E", "B", "E", "C", "E"]) ∧
      (collected sharingOffers).merged.spreadOrder
        = firstsByName ((collected sharingOffers).merged.fragments.flatMap fun f =>
            (collected sharingOffers).merged.neededBy f.definition.selections ++ [f]) :=
  ⟨toRegistry_sharingOffers, by cbv,
    (spreadOrder_eq_firsts sharingOffers _ toRegistry_sharingOffers).1⟩

end QueryModule.Fragment
