import QueryModule.Config.Settings

/-!
# Options and their selectors

The only thing that can be wrong with options that have been read is a selector. They are looked at
in a fixed order, that of enumeration values before that of type names, and the first one that denotes
nothing decides the error (`resolve_cases`).
-/

namespace QueryModule.Config

open QueryModule.Naming

/-- The selectors that are configured, in the order in which they are looked at. -/
def Options.selectors (o : Options) : List String :=
  match o.namingConvention with
  | none => []
  | some (.selector text) => [text]
  | some (.perCategory enumValues _ typeNames) => enumValues.toList ++ typeNames.toList

/-- The selector denotes a treatment of names. -/
def Denotes (selector : String) : Prop := ∃ t, Treatment.ofSelector selector = .ok t

/-- The first selector that denotes nothing does so for the reason `e`. -/
def FirstFault (selectors : List String) (e : SelectorError) : Prop :=
  ∃ before text after, selectors = before ++ text :: after ∧ (∀ t ∈ before, Denotes t) ∧
    Treatment.ofSelector text = .error e

theorem not_denotes {text : String} {e : SelectorError} (h : Treatment.ofSelector text = .error e) :
    ¬ Denotes text := by
  intro hdenotes
  obtain ⟨t, ht⟩ := hdenotes
  rw [h] at ht
  exact absurd ht (by simp)

theorem FirstFault.exists_not_denotes {selectors : List String} {e : SelectorError}
    (h : FirstFault selectors e) : ∃ t ∈ selectors, ¬ Denotes t := by
  obtain ⟨before, text, after, rfl, -, herror⟩ := h
  exact ⟨text, List.mem_append_right _ (List.mem_cons_self ..), not_denotes herror⟩

/-- Selectors in front that denote something do not change which one is the first that does not. -/
theorem FirstFault.append_left {front selectors : List String} {e : SelectorError}
    (hfront : ∀ t ∈ front, Denotes t) (h : FirstFault selectors e) :
    FirstFault (front ++ selectors) e := by
  obtain ⟨before, text, after, rfl, hbefore, herror⟩ := h
  refine ⟨front ++ before, text, after, (List.append_assoc ..).symm, ?_, herror⟩
  intro t ht
  rcases List.mem_append.mp ht with ht | ht
  · exact hfront t ht
  · exact hbefore t ht

/-- Nor do selectors behind it. -/
theorem FirstFault.append_right {selectors : List String} {e : SelectorError}
    (h : FirstFault selectors e) (back : List String) : FirstFault (selectors ++ back) e := by
  obtain ⟨before, text, after, rfl, hbefore, herror⟩ := h
  exact ⟨before, text, after ++ back, by rw [List.append_assoc, List.cons_append], hbefore, herror⟩

/-- What one optional selector comes to. -/
theorem ofSelector?_cases (selector : Option String) :
    (∃ t, Treatment.ofSelector? selector = .ok t ∧ ∀ s ∈ selector.toList, Denotes s) ∨
    (∃ e, Treatment.ofSelector? selector = .error e ∧ FirstFault selector.toList e) := by
  cases selector with
  | none => exact Or.inl ⟨none, rfl, fun s hs => absurd hs List.not_mem_nil⟩
  | some text =>
    cases h : Treatment.ofSelector text with
    | ok t =>
      refine Or.inl ⟨some t, by simp [Treatment.ofSelector?, h, Except.map], fun s hs => ?_⟩
      rw [Option.toList_some, List.mem_singleton] at hs
      exact ⟨t, by rw [hs, h]⟩
    | error e =>
      refine Or.inr ⟨e, by simp [Treatment.ofSelector?, h, Except.map], [], text, [], rfl, ?_, h⟩
      exact fun s hs => absurd hs List.not_mem_nil

/-- What the configured convention comes to. -/
theorem resolve_convention_cases (c : Convention) (o : Options) (h : o.namingConvention = some c) :
    (∃ n, NamingConvention.resolve c = .ok n ∧ ∀ s ∈ o.selectors, Denotes s) ∨
    (∃ e, NamingConvention.resolve c = .error e ∧ FirstFault o.selectors e) := by
  unfold Options.selectors
  rw [h]
  cases c with
  | selector text =>
    rcases ofSelector?_cases (some text) with ⟨t, -, hs⟩ | ⟨e, -, hfault⟩
    · obtain ⟨x, hx⟩ := hs text (by simp)
      exact Or.inl ⟨.ofTreatment x, by simp [NamingConvention.resolve, hx, Except.map], hs⟩
    · obtain ⟨before, s, after, hsplit, -, herror⟩ := id hfault
      have hs : s = text := by
        have hmem : s ∈ [text] := by
          show s ∈ (some text).toList
          rw [hsplit]
          exact List.mem_append_right _ (List.mem_cons_self ..)
        exact List.mem_singleton.mp hmem
      rw [hs] at herror
      exact Or.inr ⟨e, by simp [NamingConvention.resolve, herror, Except.map], hfault⟩
  | perCategory enumValues flag typeNames =>
    rcases ofSelector?_cases enumValues with ⟨t, ht, hs⟩ | ⟨e, he, hfault⟩
    · rcases ofSelector?_cases typeNames with ⟨u, hu, hs'⟩ | ⟨e, he, hfault⟩
      · refine Or.inl ⟨.perCategory t u, ?_, fun s hmem => ?_⟩
        · simp [NamingConvention.resolve, ht, hu, bind, Except.bind, pure, Except.pure]
        · rcases List.mem_append.mp hmem with hin | hin
          · exact hs s hin
          · exact hs' s hin
      · -- The selector of enumeration values is in order, and so that of type names decides.
        refine Or.inr ⟨e, ?_, hfault.append_left hs⟩
        simp [NamingConvention.resolve, ht, he, bind, Except.bind]
    · -- The selector of type names is not looked at any more.
      refine Or.inr ⟨e, ?_, hfault.append_right typeNames.toList⟩
      simp [NamingConvention.resolve, he, bind, Except.bind]

/-- Either all selectors denote something and there are settings, or the first one that does not
decides the error. -/
theorem resolve_cases (o : Options) :
    (∃ s, Settings.resolve o = .ok s ∧ ∀ t ∈ o.selectors, Denotes t) ∨
    (∃ e, Settings.resolve o = .error e ∧ FirstFault o.selectors e) := by
  unfold Settings.resolve Renamer.resolve
  cases hc : o.namingConvention with
  | none =>
    refine Or.inl ⟨_, rfl, fun t ht => ?_⟩
    unfold Options.selectors at ht
    rw [hc] at ht
    exact absurd ht List.not_mem_nil
  | some c =>
    rcases resolve_convention_cases c o hc with ⟨n, hn, hs⟩ | ⟨e, he, hfault⟩
    · exact Or.inl ⟨_, by simp only [hn]; rfl, hs⟩
    · exact Or.inr ⟨e, by simp only [he]; rfl, hfault⟩

end QueryModule.Config
