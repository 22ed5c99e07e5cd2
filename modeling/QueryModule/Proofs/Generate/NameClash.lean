import Mathlib.Data.List.Nodup
import QueryModule.Generate.NameClash

/-!
# Which clash of names is reported

The sources of names are looked through in order. `firstClash` reports nothing exactly when all names
differ, and otherwise the first source whose name is taken, together with the source that has taken
it: up to there all names differ (`isFirst_of_firstClash`).

Which sources there are is said once more by place: the local fragments as they are registered, then
the operations with a name, document by document (`claimants`). External fragments and operations
without a name are not among them. In the row of the names that these claim, the two sources of the
reported clash are at the only places where they can be (`FirstRepeat`):

> `checkNames_exact`
-/

namespace QueryModule.Generate

open QueryModule.Config (Settings)
open QueryModule.Fragment (Registry SourcedFragment)
open QueryModule.Graphql

/-- The clash is between two of the sources, and up to its second one all names differ. -/
def NameClash.IsFirst (c : NameClash) (sources : List NameSource) : Prop :=
  ∃ before between after, sources = before ++ c.first :: between ++ c.second :: after ∧
    ((before ++ c.first :: between).map (·.generatedName)).Nodup ∧
    c.first.generatedName = c.second.generatedName

/-- Where no source is found under a name, none has it. -/
theorem find?_generatedName_eq_none {seen : List NameSource} {source : NameSource}
    (h : seen.find? (·.generatedName = source.generatedName) = none) :
    source.generatedName ∉ seen.map (·.generatedName) := by
  intro hmem
  obtain ⟨first, hfirst, hname⟩ := List.mem_map.mp hmem
  have := List.find?_eq_none.mp h first hfirst
  simp [hname] at this

/-- A source with a fresh name keeps the names apart. -/
theorem nodup_generatedName_concat {seen : List NameSource} {source : NameSource}
    (hseen : (seen.map (·.generatedName)).Nodup)
    (hfresh : source.generatedName ∉ seen.map (·.generatedName)) :
    ((seen ++ [source]).map (·.generatedName)).Nodup := by
  rw [List.map_append, List.map_singleton, ← List.concat_eq_append]
  exact hseen.concat hfresh

/-- No clash is reported when all names differ. -/
theorem nodup_of_firstClash_eq_none :
    ∀ {rest seen : List NameSource}, (seen.map (·.generatedName)).Nodup →
      firstClash seen rest = none → ((seen ++ rest).map (·.generatedName)).Nodup
  | [], seen, hseen, _ => by
    rw [List.append_nil]
    exact hseen
  | source :: rest, seen, hseen, h => by
    unfold firstClash at h
    cases hfind : seen.find? (·.generatedName = source.generatedName) with
    | some first =>
      simp only [hfind] at h
      exact absurd h (by simp)
    | none =>
      simp only [hfind] at h
      rw [List.append_cons]
      exact nodup_of_firstClash_eq_none
        (nodup_generatedName_concat hseen (find?_generatedName_eq_none hfind)) h

/-- The clash that is reported is the first one. -/
theorem isFirst_of_firstClash :
    ∀ {rest seen : List NameSource} {c : NameClash}, (seen.map (·.generatedName)).Nodup →
      firstClash seen rest = some c → c.IsFirst (seen ++ rest)
  | [], seen, c, _, h => absurd h (by simp [firstClash])
  | source :: rest, seen, c, hseen, h => by
    unfold firstClash at h
    cases hfind : seen.find? (·.generatedName = source.generatedName) with
    | some first =>
      simp only [hfind, Option.some.injEq] at h
      subst h
      -- The sources looked through so far all have names of their own.
      obtain ⟨before, between, hsplit⟩ := List.append_of_mem (List.mem_of_find?_eq_some hfind)
      have hname : first.generatedName = source.generatedName := by
        simpa using List.find?_some hfind
      exact ⟨before, between, rest, by rw [hsplit], by rw [← hsplit]; exact hseen, hname⟩
    | none =>
      simp only [hfind] at h
      rw [List.append_cons]
      exact isFirst_of_firstClash
        (nodup_generatedName_concat hseen (find?_generatedName_eq_none hfind)) h

/-- Where there is a clash the names are not all different. -/
theorem NameClash.IsFirst.not_nodup {c : NameClash} {sources : List NameSource}
    (h : c.IsFirst sources) : ¬ (sources.map (·.generatedName)).Nodup := by
  obtain ⟨before, between, after, rfl, -, hname⟩ := h
  intro hnodup
  rw [List.map_append, List.nodup_append] at hnodup
  exact hnodup.2.2 c.first.generatedName (by simp) c.second.generatedName (by simp) hname

/-- Either all names differ and the check passes, or it reports the first clash. -/
theorem checkNames_cases (r : Registry) (s : Settings)
    (definitions : List SourcedDefinition) :
    (checkNames r s definitions = .ok () ∧
      ((nameSources r s definitions).map (·.generatedName)).Nodup) ∨
    (∃ c, checkNames r s definitions = .error c ∧ c.IsFirst (nameSources r s definitions)) := by
  unfold checkNames
  cases h : firstClash [] (nameSources r s definitions) with
  | none =>
    have hnodup := @nodup_of_firstClash_eq_none _ [] List.nodup_nil h
    exact Or.inl ⟨rfl, hnodup⟩
  | some c =>
    have hfirst := @isFirst_of_firstClash _ [] c List.nodup_nil h
    exact Or.inr ⟨c, rfl, hfirst⟩

/-! ## Who claims a name -/

/-- What a constant is made of. -/
inductive Claimant where
  /-- A local fragment. -/
  | fragment (f : SourcedFragment)
  /-- An operation with a name, from a document with the given file. -/
  | operation (name : String) (file : Option String) (o : Operation)

namespace Claimant

/-- The name of the constant. -/
def generatedName (s : Settings) : Claimant → String
  | fragment f =>
    s.affixes.fragmentPrefix ++ s.renamer.rename f.name .typeNames ++ s.affixes.fragmentSuffix
  | operation name _ _ =>
    s.affixes.documentPrefix ++ s.renamer.rename name .typeNames ++ s.affixes.documentSuffix

/-- How a clash names the definition: with its kind, and with the place where it stands. -/
def source (s : Settings) (c : Claimant) : NameSource :=
  match c with
  | fragment f => ⟨"fragment " ++ f.name, c.generatedName s, ⟨f.file, f.definition.position⟩⟩
  | operation name file o => ⟨"operation " ++ name, c.generatedName s, ⟨file, o.position⟩⟩

/-- The check compares the names of the constants. -/
@[simp]
theorem generatedName_source (s : Settings) (c : Claimant) :
    (c.source s).generatedName = c.generatedName s := by
  cases c with
  | fragment f => rfl
  | operation name file o => rfl

/-- The operations with a name in a document, in its order. -/
def ofDocument (d : SourceDocument) : List Claimant :=
  (d.definitions.getD []).filterMap fun
    | .operation o => o.name?.map fun name => operation name d.file o
    | .fragment _ => none

end Claimant

/-- All that becomes a constant: the local fragments as they are registered, then the operations with a
name, document by document. -/
def claimants (r : Registry) (documents : List SourceDocument) : List Claimant :=
  (r.fragments.filter fun f => f.external = false).map .fragment ++ documents.flatMap Claimant.ofDocument

theorem map_generatedName_source (s : Settings) (l : List Claimant) :
    (l.map (·.source s)).map (·.generatedName) = l.map (·.generatedName s) := by
  rw [List.map_map]
  exact List.map_congr_left fun c _ => c.generatedName_source s

/-- The operations of a document are checked in its order. -/
theorem map_source_ofDocument (s : Settings) (d : SourceDocument) :
    (Claimant.ofDocument d).map (·.source s) = d.sourced.filterMap fun d =>
      d.definition.operation?.bind fun o => o.name?.map fun name =>
        ⟨"operation " ++ name, s.operationConstantName name, ⟨d.file, o.position⟩⟩ := by
  unfold Claimant.ofDocument SourceDocument.sourced
  rw [List.map_filterMap, List.filterMap_map]
  refine List.filterMap_congr fun definition _ => ?_
  cases definition with
  | fragment f => rfl
  | operation o =>
    show Option.map _ (Option.map _ o.name?) = Option.map _ o.name?
    rw [Option.map_map]
    rfl

/-- The check goes through the claimants in their order. -/
theorem nameSources_combine (r : Registry) (s : Settings) (documents : List SourceDocument) :
    nameSources r s (combine documents) = (claimants r documents).map (·.source s) := by
  have hlocals : r.fragments.filter (fun f => f.external = false) = r.locals :=
    List.filter_congr fun f _ => by cases f.external <;> rfl
  unfold nameSources claimants combine
  rw [hlocals, List.map_append, List.map_map, List.map_flatMap, List.filterMap_flatMap]
  show _ ++ _ = _ ++ _
  congr 1
  exact List.flatMap_congr fun d _ => (map_source_ofDocument s d).symm

/-! ## Where the clash is -/

/-- The name at `j` is the first one that stands further in front, too, and there it stands at `i`
only. -/
structure FirstRepeat (names : List String) (i j : Nat) : Prop where
  inside : j < names.length
  earlier : i < j
  same : names[i]? = names[j]?
  first : ∀ k < j, ∀ h < k, names[h]? ≠ names[k]?
  only : ∀ h < j, names[h]? = names[j]? → h = i

namespace FirstRepeat

variable {names : List String} {i j i' j' : Nat}

theorem not_nodup (h : FirstRepeat names i j) : ¬ names.Nodup := fun hnodup =>
  List.nodup_iff_getElem?_ne_getElem?.mp hnodup i j h.earlier h.inside h.same

/-- No name behind the first repetition is the first one. -/
theorem le (h : FirstRepeat names i j) (h' : FirstRepeat names i' j') : j ≤ j' := by
  by_contra hlt
  exact h.first j' (Nat.lt_of_not_le hlt) i' h'.earlier h'.same

/-- There is one such pair of places at most. -/
theorem unique (h : FirstRepeat names i j) (h' : FirstRepeat names i' j') : i = i' ∧ j = j' := by
  obtain rfl : j = j' := Nat.le_antisymm (h.le h') (h'.le h)
  exact ⟨h'.only i h.earlier h.same, rfl⟩

end FirstRepeat

/-- Behind names that all differ, a name that one of them is makes the first repetition. -/
theorem firstRepeat_of_nodup {front : List String} {name : String} {i : Nat} (hnodup : front.Nodup)
    (hi : front[i]? = some name) (back : List String) :
    FirstRepeat (front ++ name :: back) i front.length := by
  have hinside : i < front.length := (List.getElem?_eq_some_iff.mp hi).1
  have hfront : ∀ k < front.length, (front ++ name :: back)[k]? = front[k]? := fun k hk =>
    List.getElem?_append_left hk
  have hrepeated : (front ++ name :: back)[front.length]? = some name := by simp
  have hdiffer : ∀ k < front.length, ∀ h < k, front[h]? ≠ front[k]? := fun k hk h hh =>
    List.nodup_iff_getElem?_ne_getElem?.mp hnodup h k hh hk
  refine ⟨by simp, hinside, ?_, fun k hk h hh => ?_, fun h hh heq => ?_⟩
  · rw [hfront i hinside, hrepeated, hi]
  · rw [hfront k hk, hfront h (Nat.lt_trans hh hk)]
    exact hdiffer k hk h hh
  · rw [hfront h hh, hrepeated, ← hi] at heq
    -- Two places of the front with the same name are one.
    rcases Nat.lt_trichotomy h i with hlt | rfl | hlt
    · exact absurd heq (hdiffer i hinside h hlt)
    · rfl
    · exact absurd heq.symm (hdiffer h hh i hlt)

/-- The first clash is between the sources at these places. -/
theorem NameClash.IsFirst.firstRepeat {c : NameClash} {sources : List NameSource}
    (h : c.IsFirst sources) : ∃ i j, FirstRepeat (sources.map (·.generatedName)) i j ∧
      sources[i]? = some c.first ∧ sources[j]? = some c.second := by
  obtain ⟨before, between, after, rfl, hnodup, hname⟩ := h
  have hfirst : (before ++ c.first :: between)[before.length]? = some c.first := by simp
  generalize before ++ c.first :: between = front at hnodup hfirst ⊢
  have hinside : before.length < front.length := (List.getElem?_eq_some_iff.mp hfirst).1
  have hat : (front.map (·.generatedName))[before.length]? = some c.second.generatedName := by
    rw [List.getElem?_map, hfirst, ← hname]
    rfl
  refine ⟨before.length, front.length, ?_, ?_, by simp⟩
  · have hrepeat := firstRepeat_of_nodup hnodup hat (after.map (·.generatedName))
    rw [List.length_map] at hrepeat
    rw [List.map_append, List.map_cons]
    exact hrepeat
  · rw [List.getElem?_append_left hinside, hfirst]

/-- The clash is between two of the claimants: the first one whose name is claimed further in front, too,
and the one that claims it there. Both carry the name that is reported. -/
def NameClash.IsBetween (c : NameClash) (s : Settings) (l : List Claimant) : Prop :=
  ∃ i j first second, FirstRepeat (l.map (·.generatedName s)) i j ∧
    l[i]? = some first ∧ l[j]? = some second ∧
    c.first = first.source s ∧ c.second = second.source s ∧
    first.generatedName s = c.generatedName ∧ second.generatedName s = c.generatedName

namespace NameClash

variable {c c' : NameClash} {s : Settings} {l : List Claimant}

/-- The first clash of the sources is the one between their claimants. -/
theorem IsFirst.isBetween (h : c.IsFirst (l.map (·.source s))) : c.IsBetween s l := by
  obtain ⟨i, j, hrepeat, hi, hj⟩ := h.firstRepeat
  rw [map_generatedName_source] at hrepeat
  rw [List.getElem?_map, Option.map_eq_some_iff] at hi hj
  obtain ⟨first, hi, hfirst⟩ := hi
  obtain ⟨second, hj, hsecond⟩ := hj
  have hname : second.generatedName s = c.generatedName := by
    show _ = c.second.generatedName
    rw [← hsecond, Claimant.generatedName_source]
  have hsame : first.generatedName s = second.generatedName s := by
    have := hrepeat.same
    rw [List.getElem?_map, List.getElem?_map, hi, hj] at this
    exact Option.some.inj this
  exact ⟨i, j, first, second, hrepeat, hi, hj, hfirst.symm, hsecond.symm, hsame.trans hname, hname⟩

/-- Claimants with a clash between them do not all have different names. -/
theorem IsBetween.not_nodup (h : c.IsBetween s l) : ¬ (l.map (·.generatedName s)).Nodup := by
  obtain ⟨i, j, first, second, hrepeat, -⟩ := h
  exact hrepeat.not_nodup

/-- Only one clash can be reported. -/
theorem IsBetween.unique (h : c.IsBetween s l) (h' : c'.IsBetween s l) : c = c' := by
  obtain ⟨i, j, first, second, hrepeat, hi, hj, hfirst, hsecond, -⟩ := h
  obtain ⟨i', j', first', second', hrepeat', hi', hj', hfirst', hsecond', -⟩ := h'
  obtain ⟨rfl, rfl⟩ := hrepeat.unique hrepeat'
  obtain rfl : first = first' := Option.some.inj (hi.symm.trans hi')
  obtain rfl : second = second' := Option.some.inj (hj.symm.trans hj')
  cases c
  cases c'
  exact congrArg₂ mk (hfirst.trans hfirst'.symm) (hsecond.trans hsecond'.symm)

end NameClash

/-- **The check of names is exact.** For every registry, all settings and all documents: the check passes
exactly when no two of the local fragments and the named operations claim the same name, and it reports
exactly the clash between the first of them whose name is claimed further in front, too, and the one
that claims it there. Each of the two is named with the place of its own definition in the file that this
comes from. -/
theorem checkNames_exact (r : Registry) (s : Settings) (documents : List SourceDocument) :
    (checkNames r s (combine documents) = .ok () ↔
        ((claimants r documents).map (·.generatedName s)).Nodup) ∧
      ∀ clash, checkNames r s (combine documents) = .error clash ↔
        clash.IsBetween s (claimants r documents) := by
  rcases checkNames_cases r s (combine documents) with ⟨hok, hnodup⟩ | ⟨c, herror, hfirst⟩
  · rw [nameSources_combine, map_generatedName_source] at hnodup
    rw [hok]
    refine ⟨⟨fun _ => hnodup, fun _ => rfl⟩, fun clash => ⟨fun h => absurd h (by simp), fun h => ?_⟩⟩
    exact absurd hnodup h.not_nodup
  · rw [nameSources_combine] at hfirst
    have hbetween := hfirst.isBetween
    rw [herror]
    refine ⟨⟨fun h => absurd h (by simp), fun h => absurd h hbetween.not_nodup⟩,
      fun clash => ⟨fun h => ?_, fun h => ?_⟩⟩
    · rw [← Except.error.inj h]
      exact hbetween
    · rw [hbetween.unique h]

end QueryModule.Generate
