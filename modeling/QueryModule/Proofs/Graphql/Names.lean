import QueryModule.Graphql.Lexer

/-!
# Names

A name is a letter or an underscore followed by letters, digits and underscores. Only such texts become
name tokens (`isName_of_lexeme`).
-/

namespace QueryModule.Graphql

/-- A letter or an underscore, followed by letters, digits and underscores. -/
def IsName (text : List Char) : Prop :=
  ∃ c rest, text = c :: rest ∧ isNameStart c = true ∧ ∀ x ∈ rest, isNameChar x = true

theorem IsName.newline_not_mem {text : List Char} (h : IsName text) : '\n' ∉ text := by
  obtain ⟨c, rest, rfl, hc, hrest⟩ := h
  intro hmem
  rcases List.mem_cons.mp hmem with rfl | hmem
  · exact absurd hc (by decide)
  · exact absurd (hrest '\n' hmem) (by decide)

theorem numberKind_ne_name {text : List Char} {kind : TokenKind} (h : numberKind text = .ok kind) :
    kind ≠ .name := by
  unfold numberKind at h
  split at h
  · split at h
    · rw [← Except.ok.inj h]
      decide
    · exact absurd h (by simp)
  · split at h
    · rw [← Except.ok.inj h]
      decide
    · exact absurd h (by simp)

/-- Only what starts like a name is taken for one, as far as it goes on like one. -/
theorem isName_of_lexeme {c : Char} {rest : List Char} {n : Nat} (h : lexeme c rest = .ok (.name, n)) :
    IsName (c :: rest.take n) := by
  -- All other lexemes have other kinds.
  have hkind : ∀ {kind : TokenKind} {k : Nat},
      (Except.ok (kind, k) : Except LexicalError (TokenKind × Nat)) = .ok (.name, n) →
        kind = .name := fun heq => (Prod.mk.inj (Except.ok.inj heq)).1
  unfold lexeme at h
  split at h
  · exact absurd (hkind h) (by decide)
  split at h
  · split at h
    · exact absurd (hkind h) (by decide)
    · exact absurd h (by simp)
  split at h
  next hstart =>
    obtain ⟨-, rfl⟩ := Prod.mk.inj (Except.ok.inj h)
    refine ⟨c, rest.takeWhile isNameChar, ?_, hstart, List.all_eq_true.mp List.all_takeWhile⟩
    rw [← List.prefix_iff_eq_take.mp (List.takeWhile_prefix isNameChar)]
  split at h
  · cases hnumber : numberKind (c :: rest.takeWhile (!endsNumber ·)) with
    | error e =>
      change (numberKind (c :: rest.takeWhile (!endsNumber ·))).map _ = _ at h
      rw [hnumber] at h
      exact absurd h (by simp [Except.map])
    | ok kind =>
      change (numberKind (c :: rest.takeWhile (!endsNumber ·))).map _ = _ at h
      rw [hnumber] at h
      exact absurd (hkind h) (numberKind_ne_name hnumber)
  split at h
  · split at h
    · split at h
      · exact absurd (hkind h) (by decide)
      · exact absurd h (by simp)
    · split at h
      · exact absurd (hkind h) (by decide)
      · exact absurd h (by simp)
  · exact absurd h (by simp)

end QueryModule.Graphql
