import QueryModule.Proofs.Config.Selectors
import QueryModule.Proofs.Generate.Renaming
import Mathlib.Data.List.DropRight

/-!
# The grammar of selectors

A selector is read without the white space at its ends. What is left of it denotes a treatment when it is
the word `keep`, the name of a casing, or such a name behind that of a module and a hash sign (`Selects`).
Everything else is refused for one of two reasons, and which of them it is depends on what stands in front
of the first hash sign:

> `ofSelector_eq_ok_iff`, `unknownModule_iff`, `unknownFunction_iff`

Of the selectors that are configured the first one that is refused decides (`resolve_eq_error_iff`), and
the one for enumeration values is the first, although no generated name depends on it.

> `selectors_exact`
-/

namespace QueryModule.Text

/-- What is left of a text without the white space at its ends. -/
structure IsCore (text core : List Char) : Prop where
  split : ∃ front back, text = front ++ core ++ back ∧ ∀ c ∈ front ++ back, isBlank c = true
  head : ∀ c ∈ core.head?, isBlank c = false
  last : ∀ c ∈ core.getLast?, isBlank c = false

/-- What is dropped is dropped to the end. -/
theorem head_dropWhile {p : Char → Bool} {text : List Char} {c : Char}
    (h : c ∈ (text.dropWhile p).head?) : p c = false := by
  have hnot := List.head?_dropWhile_not p text
  rw [Option.mem_def.mp h] at hnot
  exact hnot

/-- Trimming leaves the core of a text. -/
theorem isCore_trim (text : List Char) : IsCore text (trim text) := by
  have hprefix : trim text <+: trimStart text := List.rdropWhile_prefix _ _
  refine ⟨?_, fun c hc => ?_, fun c hc => ?_⟩
  · refine ⟨text.takeWhile isBlank, ((trimStart text).reverse.takeWhile isBlank).reverse, ?_, ?_⟩
    · rw [List.append_assoc, trim, trimEnd, ← List.reverse_append, List.takeWhile_append_dropWhile,
        List.reverse_reverse, trimStart, List.takeWhile_append_dropWhile]
    · intro c hc
      rw [List.mem_append, List.mem_reverse] at hc
      exact hc.elim (fun hc => List.mem_takeWhile_imp hc) fun hc => List.mem_takeWhile_imp hc
  · -- The core starts where the text without the white space at its start does.
    obtain ⟨back, hback⟩ := hprefix
    obtain ⟨rest, hrest⟩ := List.head?_eq_some_iff.mp hc
    have hhead : c ∈ (trimStart text).head? := by
      rw [← hback, hrest]
      rfl
    exact head_dropWhile hhead
  · rw [trim, trimEnd, List.getLast?_reverse] at hc
    exact head_dropWhile hc

end QueryModule.Text

namespace QueryModule.Naming

/-- The names of the casings, of which two have a second one. -/
inductive NamesCasing : String → Casing → Prop where
  | camel : NamesCasing "camelCase" .camel
  | capital : NamesCasing "capitalCase" .capital
  | constant : NamesCasing "constantCase" .constant
  | dot : NamesCasing "dotCase" .dot
  | header : NamesCasing "headerCase" .header
  | no : NamesCasing "noCase" .no
  | param : NamesCasing "paramCase" .param
  | pascal : NamesCasing "pascalCase" .pascal
  | path : NamesCasing "pathCase" .path
  | sentence : NamesCasing "sentenceCase" .sentence
  | snake : NamesCasing "snakeCase" .snake
  | title : NamesCasing "titleCase" .title
  | lower : NamesCasing "lowerCase" .lower
  | localeLower : NamesCasing "localeLowerCase" .lower
  | lowerFirst : NamesCasing "lowerCaseFirst" .lowerFirst
  | upper : NamesCasing "upperCase" .upper
  | localeUpper : NamesCasing "localeUpperCase" .upper
  | upperFirst : NamesCasing "upperCaseFirst" .upperFirst

/-- The module of the casings has two names. -/
def NamesModule (m : String) : Prop := m = "change-case-all" ∨ m = "change-case"

/-- The treatment that a selector without white space at its ends denotes. -/
inductive Selects : String → Treatment → Prop where
  | keep : Selects "keep" .keep
  | function {name : String} {t : Casing} : NamesCasing name t → Selects name (.transform t)
  | ofModule {m name : String} {t : Casing} : NamesModule m → NamesCasing name t →
      Selects (m ++ "#" ++ name) (.transform t)

/-! ## The parts of a selector -/

/-- Every entry of the list of casings is the name of one. -/
theorem namesCasing_of_mem : ∀ e ∈ Casing.names, NamesCasing e.1 e.2 := by
  simp only [Casing.names, List.forall_mem_cons]
  exact ⟨.camel, .capital, .constant, .dot, .header, .no, .param, .pascal, .path, .sentence, .snake,
    .title, .lower, .localeLower, .lowerFirst, .upper, .localeUpper, .upperFirst, nofun⟩

/-- A name is looked up as the casing that it names. -/
theorem ofName?_eq_some_iff {name : String} {t : Casing} :
    Casing.ofName? name = some t ↔ NamesCasing name t := by
  constructor
  · intro h
    obtain ⟨front, back, heq, -⟩ := List.lookup_eq_some_iff.mp h
    refine namesCasing_of_mem (name, t) ?_
    rw [heq]
    exact List.mem_append_right _ (List.mem_cons_self ..)
  · intro h
    cases h <;> rfl

/-- The modules that are looked for are those with one of the two names. -/
theorem mem_selectorModules_iff {m : String} : m ∈ selectorModules ↔ NamesModule m := by
  unfold selectorModules NamesModule
  rw [List.mem_cons, List.mem_singleton]

/-- No name of a casing and no name of a module has a hash sign in it, nor has the word `keep`. -/
theorem hash_not_mem :
    '#' ∉ keepWord.toList ∧ (∀ {name t}, NamesCasing name t → '#' ∉ name.toList) ∧
      ∀ {m}, NamesModule m → '#' ∉ m.toList := by
  refine ⟨by decide, fun h => ?_, fun h => ?_⟩
  · cases h <;> decide
  · rcases h with rfl | rfl <;> decide

namespace Treatment

/-- A text is cut at its first hash sign. -/
theorem splitAtHash?_append {front : List Char} (h : '#' ∉ front) (back : List Char) :
    splitAtHash? (front ++ '#' :: back) = some (front, back) := by
  have hne : ∀ c ∈ front, (c != '#') = true := fun c hc => bne_iff_ne.mpr (ne_of_mem_of_not_mem hc h)
  unfold splitAtHash?
  rw [List.dropWhile_append_of_pos hne, List.dropWhile_cons_of_neg (by simp),
    List.takeWhile_append_of_pos hne, List.takeWhile_cons_of_neg (by simp), List.append_nil]

/-- A text without one is not cut. -/
theorem splitAtHash?_of_not_mem {text : List Char} (h : '#' ∉ text) : splitAtHash? text = none := by
  have hnil : text.dropWhile (· != '#') = [] :=
    List.dropWhile_eq_nil_iff.mpr fun c hc => bne_iff_ne.mpr (ne_of_mem_of_not_mem hc h)
  unfold splitAtHash?
  rw [hnil]

/-- A selector has no hash sign, or there is a first one. -/
theorem hash_cases (core : String) :
    '#' ∉ core.toList ∨ ∃ m function : String, core = m ++ "#" ++ function ∧ '#' ∉ m.toList := by
  by_cases h : '#' ∈ core.toList
  · obtain ⟨front, back, hsplit, hfront⟩ := List.eq_append_cons_of_mem h
    refine .inr ⟨String.ofList front, String.ofList back, ?_, by simpa using hfront⟩
    rw [← String.toList_inj, hsplit]
    simp
  · exact .inl h

/-! ## What a selector comes to -/

/-- What a selector is read as once the white space is gone. -/
def ofCore (core : String) : Except SelectorError Treatment :=
  if core = keepWord then .ok .keep
  else
    match splitAtHash? core.toList with
    | some (m, function) =>
      if selectorModules.contains (String.ofList m) then ofFunction (String.ofList function) core
      else .error (.unknownModule (String.ofList m) core)
    | none => ofFunction core core

/-- A selector without white space at its ends. -/
def core (text : String) : String := String.ofList (Text.trim text.toList)

/-- A selector is read by its core. -/
theorem ofSelector_eq (text : String) : ofSelector text = ofCore (core text) := by
  unfold ofCore core
  rw [String.toList_ofList]
  rfl

theorem ofCore_keep : ofCore keepWord = .ok .keep := if_pos rfl

/-- With a hash sign, what is in front of the first one has to be a module, and what is behind it a
casing. -/
theorem ofCore_append {m function : String} (hm : '#' ∉ m.toList) :
    ofCore (m ++ "#" ++ function) =
      if m ∈ selectorModules then ofFunction function (m ++ "#" ++ function)
      else .error (.unknownModule m (m ++ "#" ++ function)) := by
  have hlist : (m ++ "#" ++ function).toList = m.toList ++ '#' :: function.toList := by simp
  have hkeep : m ++ "#" ++ function ≠ keepWord := by
    intro h
    apply hash_not_mem.1
    rw [← h, hlist]
    exact List.mem_append_right _ (List.mem_cons_self ..)
  rw [ofCore, if_neg hkeep, hlist, splitAtHash?_append hm]
  simp

/-- Without one, all of it has to be a casing. -/
theorem ofCore_of_not_mem {core : String} (h : '#' ∉ core.toList) (hkeep : core ≠ keepWord) :
    ofCore core = ofFunction core core := by
  rw [ofCore, if_neg hkeep, splitAtHash?_of_not_mem h]

/-- A function is the name of a casing, or it is refused. -/
theorem ofFunction_cases (function selector : String) :
    (∃ t, NamesCasing function t ∧ ofFunction function selector = .ok (.transform t)) ∨
      (∀ t, ¬ NamesCasing function t) ∧
        ofFunction function selector = .error (.unknownFunction function selector) := by
  unfold ofFunction
  cases h : Casing.ofName? function with
  | some t => exact .inl ⟨t, ofName?_eq_some_iff.mp h, rfl⟩
  | none =>
    refine .inr ⟨fun t ht => ?_, rfl⟩
    rw [ofName?_eq_some_iff.mpr ht] at h
    exact absurd h (by simp)

/-- The ways in which a selector is read. -/
inductive Reading (core : String) : Except SelectorError Treatment → Prop where
  | ok {t : Treatment} : Selects core t → Reading core (.ok t)
  | unknownModule {m rest : String} : core = m ++ "#" ++ rest → '#' ∉ m.toList → ¬ NamesModule m →
      Reading core (.error (.unknownModule m core))
  | unknownFunction {function : String} :
      (core = function ∧ '#' ∉ core.toList ∨ ∃ m, NamesModule m ∧ core = m ++ "#" ++ function) →
      core ≠ keepWord → (∀ t, ¬ NamesCasing function t) →
      Reading core (.error (.unknownFunction function core))

/-- Every selector is read in one of these ways. -/
theorem reading_ofCore (core : String) : Reading core (ofCore core) := by
  -- The word `keep` stands for itself; otherwise it matters whether there is a hash sign.
  by_cases hkeep : core = keepWord
  · rw [hkeep, ofCore_keep]
    exact .ok .keep
  · rcases hash_cases core with hnone | ⟨m, function, rfl, hm⟩
    · rw [ofCore_of_not_mem hnone hkeep]
      rcases ofFunction_cases core core with ⟨t, ht, heq⟩ | ⟨hno, heq⟩
      · rw [heq]
        exact .ok (.function ht)
      · rw [heq]
        exact .unknownFunction (.inl ⟨rfl, hnone⟩) hkeep hno
    · rw [ofCore_append hm]
      split
      · next hmodule =>
        rcases ofFunction_cases function (m ++ "#" ++ function) with ⟨t, ht, heq⟩ | ⟨hno, heq⟩
        · rw [heq]
          exact .ok (.ofModule (mem_selectorModules_iff.mp hmodule) ht)
        · rw [heq]
          exact .unknownFunction (.inr ⟨m, mem_selectorModules_iff.mp hmodule, rfl⟩) hkeep hno
      · next hmodule => exact .unknownModule rfl hm (mt mem_selectorModules_iff.mpr hmodule)

theorem reading_of_eq {core : String} {result : Except SelectorError Treatment}
    (h : ofCore core = result) : Reading core result := h ▸ reading_ofCore core

/-- A selector that denotes a treatment is read as this one. -/
theorem ofCore_of_selects {core : String} {t : Treatment} (h : Selects core t) :
    ofCore core = .ok t := by
  cases h with
  | keep => exact ofCore_keep
  | @function name t ht =>
    have hkeep : core ≠ keepWord := by
      rintro rfl
      have hnone : Casing.ofName? keepWord = none := by decide
      rw [ofName?_eq_some_iff.mpr ht] at hnone
      exact absurd hnone (by simp)
    rw [ofCore_of_not_mem (hash_not_mem.2.1 ht) hkeep, ofFunction, ofName?_eq_some_iff.mpr ht]
  | @ofModule m name t hm ht =>
    rw [ofCore_append (hash_not_mem.2.2 hm), if_pos (mem_selectorModules_iff.mpr hm), ofFunction,
      ofName?_eq_some_iff.mpr ht]

variable {text : String}

/-- Exactly the selectors of the grammar are accepted. -/
theorem ofSelector_eq_ok_iff {t : Treatment} : ofSelector text = .ok t ↔ Selects (core text) t := by
  rw [ofSelector_eq]
  constructor
  · intro h
    cases reading_of_eq h with
    | ok hselects => exact hselects
  · exact ofCore_of_selects

/-- A selector is refused because of its module when what stands in front of its first hash sign is no
module. -/
theorem unknownModule_iff {m selector : String} :
    ofSelector text = .error (.unknownModule m selector) ↔
      selector = core text ∧ ¬ NamesModule m ∧ '#' ∉ m.toList ∧
        ∃ rest, core text = m ++ "#" ++ rest := by
  rw [ofSelector_eq]
  constructor
  · intro h
    cases reading_of_eq h with
    | unknownModule hsplit hm hmodule => exact ⟨rfl, hmodule, hm, _, hsplit⟩
  · rintro ⟨rfl, hmodule, hm, rest, hsplit⟩
    rw [hsplit, ofCore_append hm, if_neg (mt mem_selectorModules_iff.mp hmodule)]

/-- It is refused because of the function in every other case in which it denotes nothing. -/
theorem unknownFunction_iff {function selector : String} :
    ofSelector text = .error (.unknownFunction function selector) ↔
      selector = core text ∧ (¬ ∃ t, Selects (core text) t) ∧
        (core text = function ∧ '#' ∉ (core text).toList ∨
          ∃ m, NamesModule m ∧ core text = m ++ "#" ++ function) := by
  rw [ofSelector_eq]
  constructor
  · intro h
    -- What denotes a treatment would have been accepted.
    have hnone : ¬ ∃ t, Selects (core text) t := by
      intro ⟨t, ht⟩
      rw [ofCore_of_selects ht] at h
      exact absurd h (by simp)
    cases reading_of_eq h with
    | unknownFunction hsplit hkeep hno => exact ⟨rfl, hnone, hsplit⟩
  · rintro ⟨rfl, hnone, hsplit⟩
    rcases hsplit with ⟨rfl, hhash⟩ | ⟨m, hm, hsplit⟩
    · -- Without a hash sign the whole selector is looked up,
      have hkeep : core text ≠ keepWord := fun h => hnone ⟨.keep, h ▸ .keep⟩
      rw [ofCore_of_not_mem hhash hkeep]
      rcases ofFunction_cases (core text) (core text) with ⟨t, ht, -⟩ | ⟨-, heq⟩
      · exact absurd ⟨_, .function ht⟩ hnone
      · exact heq
    · -- and else what stands behind the module.
      rw [hsplit] at hnone ⊢
      rw [ofCore_append (hash_not_mem.2.2 hm), if_pos (mem_selectorModules_iff.mpr hm)]
      rcases ofFunction_cases function (m ++ "#" ++ function) with ⟨t, ht, -⟩ | ⟨-, heq⟩
      · exact absurd ⟨_, .ofModule hm ht⟩ hnone
      · exact heq

end Treatment

end QueryModule.Naming

namespace QueryModule.Config

open QueryModule.Naming

/-! ## Several selectors -/

/-- The first selector that is refused is so for one reason. -/
theorem FirstFault.unique {selectors : List String} {e e' : SelectorError} (h : FirstFault selectors e)
    (h' : FirstFault selectors e') : e = e' := by
  obtain ⟨before, text, after, rfl, hbefore, herror⟩ := h
  obtain ⟨before', text', after', heq, hbefore', herror'⟩ := h'
  -- Neither of the two refused selectors stands in front of the other.
  have hfront : ∀ {front rest : List String} {s : String}, before = front ++ s :: rest →
      Treatment.ofSelector s ≠ .error e' := by
    rintro front rest s rfl hs
    exact not_denotes hs (hbefore s (by simp))
  have hfront' : ∀ {front rest : List String} {s : String}, before' = front ++ s :: rest →
      Treatment.ofSelector s ≠ .error e := by
    rintro front rest s rfl hs
    exact not_denotes hs (hbefore' s (by simp))
  rcases List.append_eq_append_iff.mp heq with ⟨more, hmore, hrest⟩ | ⟨more, hmore, hrest⟩
  · cases more with
    | nil =>
      rw [List.nil_append, List.cons.injEq] at hrest
      rw [hrest.1, herror'] at herror
      exact (Except.error.inj herror).symm
    | cons s more =>
      rw [List.cons_append, List.cons.injEq] at hrest
      exact absurd (hrest.1 ▸ herror) (hfront' hmore)
  · cases more with
    | nil =>
      rw [List.nil_append, List.cons.injEq] at hrest
      rw [← hrest.1, herror'] at herror
      exact (Except.error.inj herror).symm
    | cons s more =>
      rw [List.cons_append, List.cons.injEq] at hrest
      exact absurd (hrest.1 ▸ herror') (hfront hmore)

/-- The selectors of a convention, in the order in which they are looked at. -/
def selectorsOf (convention : Option Convention) : List String :=
  Options.selectors { namingConvention := convention }

/-- A convention is resolved when all of its selectors denote something, and refused for the first that
does not. -/
theorem resolve_renamer_cases (convention : Option Convention) (flag : Option Bool) :
    (∃ r, Renamer.resolve convention flag = .ok r ∧ ∀ s ∈ selectorsOf convention, Denotes s) ∨
    (∃ e, Renamer.resolve convention flag = .error e ∧ FirstFault (selectorsOf convention) e) := by
  rcases resolve_cases { namingConvention := convention, transformUnderscore := flag } with
    ⟨s, hs, hall⟩ | ⟨e, he, hfault⟩
  · obtain ⟨r, hr, -⟩ := ok_of_bind_eq_ok hs
    exact .inl ⟨r, hr, hall⟩
  · refine .inr ⟨e, ?_, hfault⟩
    cases hr : Renamer.resolve convention flag with
    | ok r => simp [Settings.resolve, hr, bind, Except.bind, pure, Except.pure] at he
    | error e' => simpa [Settings.resolve, hr, bind, Except.bind] using he

/-- A convention is refused for the reason for which the first of its selectors is. -/
theorem resolve_eq_error_iff {convention : Option Convention} {flag : Option Bool} {e : SelectorError} :
    Renamer.resolve convention flag = .error e ↔ FirstFault (selectorsOf convention) e := by
  rcases resolve_renamer_cases convention flag with ⟨r, hr, hall⟩ | ⟨e', he', hfault⟩
  · rw [hr]
    refine ⟨fun h => absurd h (by simp), fun h => ?_⟩
    obtain ⟨s, hs, hnot⟩ := h.exists_not_denotes
    exact absurd (hall s hs) hnot
  · rw [he', Except.error.injEq]
    exact ⟨fun h => h ▸ hfault, fun h => hfault.unique h⟩

/-- A convention is accepted exactly when all of its selectors denote a treatment. -/
theorem exists_resolve_eq_ok_iff {convention : Option Convention} {flag : Option Bool} :
    (∃ r, Renamer.resolve convention flag = .ok r) ↔ ∀ s ∈ selectorsOf convention, Denotes s := by
  rcases resolve_renamer_cases convention flag with ⟨r, hr, hall⟩ | ⟨e, he, hfault⟩
  · exact ⟨fun _ => hall, fun _ => ⟨r, hr⟩⟩
  · obtain ⟨s, hs, hnot⟩ := hfault.exists_not_denotes
    refine ⟨fun ⟨r, hr⟩ => ?_, fun hall => absurd (hall s hs) hnot⟩
    rw [he] at hr
    exact absurd hr (by simp)

/-- **Selectors are read by their grammar.** A selector is accepted when, without the white space at its
ends, it denotes a treatment. It is refused because of the module when it has a hash sign with something
else than a known module in front of the first one, and because of the function in every other case. A
convention is refused exactly when one of its selectors is, for the reason of the first of them; that for
enumeration values comes first, although it reaches no generated name. -/
theorem selectors_exact :
    (∀ text : String, ∃ core : String, Text.IsCore text.toList core.toList ∧
      (∀ t, Treatment.ofSelector text = .ok t ↔ Selects core t) ∧
      (∀ m selector, Treatment.ofSelector text = .error (.unknownModule m selector) ↔
        selector = core ∧ ¬ NamesModule m ∧ '#' ∉ m.toList ∧ ∃ rest, core = m ++ "#" ++ rest) ∧
      ∀ function selector, Treatment.ofSelector text = .error (.unknownFunction function selector) ↔
        selector = core ∧ (¬ ∃ t, Selects core t) ∧
          (core = function ∧ '#' ∉ core.toList ∨
            ∃ m, NamesModule m ∧ core = m ++ "#" ++ function)) ∧
    (∀ convention flag,
      ((∃ r, Renamer.resolve convention flag = .ok r) ↔ ∀ s ∈ selectorsOf convention, Denotes s) ∧
      ∀ e, Renamer.resolve convention flag = .error e ↔ FirstFault (selectorsOf convention) e) ∧
    (∀ enumValues inner typeNames, selectorsOf (some (.perCategory enumValues inner typeNames)) =
      enumValues.toList ++ typeNames.toList) ∧
    ∀ (o : Options) (enumValues other typeNames : Option String) (inner : Option Bool) (s t : Settings),
      Settings.resolve
        { o with namingConvention := some (.perCategory enumValues inner typeNames) } = .ok s →
      Settings.resolve { o with namingConvention := some (.perCategory other inner typeNames) } = .ok t →
      ∀ name, s.fragmentConstantName name = t.fragmentConstantName name ∧
        s.operationConstantName name = t.operationConstantName name := by
  refine ⟨fun text => ⟨Treatment.core text, ?_, fun t => Treatment.ofSelector_eq_ok_iff,
      fun m selector => Treatment.unknownModule_iff, fun function selector =>
      Treatment.unknownFunction_iff⟩, fun convention flag => ⟨exists_resolve_eq_ok_iff, fun e =>
      resolve_eq_error_iff⟩, fun _ _ _ => rfl, fun o _ _ _ _ s t =>
      Generate.constantNames_of_enumValues⟩
  rw [Treatment.core, String.toList_ofList]
  exact Text.isCore_trim text.toList

end QueryModule.Config
