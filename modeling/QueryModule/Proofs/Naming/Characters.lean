import QueryModule.Naming.Renamer
import QueryModule.Proofs.Text.Lines
import QueryModule.Proofs.Unicode.CaseMapping

/-!
# Which characters a restyled name consists of

Restyling a name brings in separators and changes the case of characters, and nothing else: a property
of characters that a change of case keeps (`CaseClosed`), and that the separators of the casing have,
holds of all characters of a restyled name when it holds of all those of the name
(`forall_mem_restyleChars`).

> `newline_not_mem_rename`: a name without line feeds is restyled to one without line feeds.
>
> `underscore_not_mem_restyleChars`: only the casings that join words with underscores bring underscores
> into a name.
-/

namespace QueryModule.Naming

open QueryModule.Unicode (lower upper finalSigma)

/-- The lower-case and upper-case forms of what has the property have it, too. -/
structure CaseClosed (P : Char → Prop) : Prop where
  lower : ∀ c, P c → ∀ d ∈ lower c, P d
  upper : ∀ c, P c → ∀ d ∈ upper c, P d
  sigma : P finalSigma

/-- The separators have the property as well. -/
structure KeptByCase (P : Char → Prop) : Prop extends CaseClosed P where
  separator : ∀ c ∈ ['_', '.', ' ', '-', '/'], P c

/-- What a casing puts between words. -/
def Casing.separators : Casing → List Char
  | .capital | .no | .sentence | .title => [' ']
  | .constant | .snake => ['_']
  | .dot => ['.']
  | .header | .param => ['-']
  | .path => ['/']
  | .camel | .pascal | .lower | .lowerFirst | .upper | .upperFirst => []

/-! ## Words -/

/-- A word that grows has the character in it, and nothing else that is new. -/
theorem subset_of_mem_growFirst {c : Char} {rest : List Char} {ws : List (List Char)}
    (h : ∀ w ∈ ws, w ⊆ rest) : ∀ w ∈ growFirst c ws, w ⊆ c :: rest := by
  intro w hw
  cases ws with
  | nil =>
    rw [List.mem_singleton.mp hw]
    exact List.cons_subset_cons _ (List.nil_subset _)
  | cons first others =>
    rcases List.mem_cons.mp hw with rfl | hw
    · exact List.cons_subset_cons c (h first (List.mem_cons_self ..))
    · exact List.subset_cons_of_subset c (h w (List.mem_cons_of_mem _ hw))

/-- The words of a scan consist of what is scanned. -/
theorem subset_of_mem_wordsFrom (s : Stretch) (text : List Char) :
    ∀ w ∈ wordsFrom s text, w ⊆ text := by
  fun_induction wordsFrom s text with
  | case1 => simp
  | case2 s c => simp
  | case3 s c d rest _ ih =>
    intro w hw
    rcases List.mem_cons.mp hw with rfl | hw
    · exact List.cons_subset_cons c (List.nil_subset _)
    · exact List.subset_cons_of_subset c (ih w hw)
  | case4 s c d rest _ _ ih =>
    intro w hw
    rcases List.mem_cons.mp hw with rfl | hw
    · exact List.nil_subset _
    · exact subset_of_mem_growFirst ih w hw
  | case5 s c d rest _ _ ih => exact subset_of_mem_growFirst ih

theorem subset_of_mem_runs : ∀ text : List Char, ∀ run ∈ runs text, run ⊆ text
  | [] => by simp [runs]
  | c :: rest => by
    rw [runs]
    split
    · exact subset_of_mem_growFirst (subset_of_mem_runs rest)
    · intro run hrun
      rcases List.mem_cons.mp hrun with rfl | hrun
      · exact List.nil_subset _
      · exact List.subset_cons_of_subset c (subset_of_mem_runs rest run hrun)

/-- The words of a text consist of its characters. -/
theorem subset_of_mem_words {text word : List Char} (h : word ∈ words text) : word ⊆ text := by
  obtain ⟨run, hrun, hword⟩ := List.mem_flatMap.mp h
  exact List.Subset.trans (subset_of_mem_wordsFrom .none run word hword)
    (subset_of_mem_runs text run hrun)

/-! ## Restyling -/

section

variable {P : Char → Prop}

/-- The first character is changed, the others stay. -/
theorem forall_mem_changeFirst {change : Char → List Char} (hchange : ∀ c, P c → ∀ d ∈ change c, P d)
    {text : List Char} (htext : ∀ c ∈ text, P c) : ∀ c ∈ Casing.changeFirst change text, P c := by
  cases text with
  | nil => simp [Casing.changeFirst]
  | cons c rest =>
    intro x hx
    rcases List.mem_append.mp hx with hx | hx
    · exact hchange c (htext c (List.mem_cons_self ..)) x hx
    · exact htext x (List.mem_cons_of_mem _ hx)

/-- Words that are joined have what the words and the separator have. -/
theorem forall_mem_intercalate {separator : List Char} (hseparator : ∀ c ∈ separator, P c) :
    ∀ {ws : List (List Char)}, (∀ w ∈ ws, ∀ c ∈ w, P c) → ∀ c ∈ separator.intercalate ws, P c
  | [], _ => by simp
  | [w], h => by simpa using h
  | w :: v :: ws, h => by
    intro x hx
    rw [List.intercalate_cons_cons] at hx
    rcases List.mem_append.mp hx with hx | hx
    · rcases List.mem_append.mp hx with hx | hx
      · exact h w (List.mem_cons_self ..) x hx
      · exact hseparator x hx
    · exact forall_mem_intercalate hseparator (fun u hu => h u (List.mem_cons_of_mem _ hu)) x hx

/-- Words that are changed one by one and joined. -/
theorem forall_mem_join {change : List Char → List Char}
    (hchange : ∀ {word : List Char}, (∀ c ∈ word, P c) → ∀ c ∈ change word, P c)
    {separator : List Char} (hseparator : ∀ c ∈ separator, P c) {text : List Char}
    (htext : ∀ c ∈ text, P c) : ∀ c ∈ Casing.join separator ((words text).map change), P c := by
  refine forall_mem_intercalate hseparator fun w hw => ?_
  obtain ⟨word, hword, rfl⟩ := List.mem_map.mp hw
  exact hchange fun c hc => htext c (subset_of_mem_words hword hc)

variable (h : CaseClosed P)

include h

/-- A word in lower case. The two forms of the sigma both come of a change of case. -/
theorem forall_mem_lowerWord : ∀ {word : List Char}, (∀ c ∈ word, P c) → ∀ c ∈ lowerWord word, P c
  | [], _ => by simp [lowerWord]
  | [c], hword => by
    rw [lowerWord]
    split
    · simpa using h.sigma
    · exact h.lower c (hword c (List.mem_cons_self ..))
  | c :: d :: rest, hword => by
    have hrest : ∀ y ∈ d :: rest, P y := fun y hy => hword y (List.mem_cons_of_mem _ hy)
    intro x hx
    rw [lowerWord.eq_3 c (d :: rest) (by simp)] at hx
    rcases List.mem_append.mp hx with hx | hx
    · exact h.lower c (hword c (List.mem_cons_self ..)) x hx
    · exact forall_mem_lowerWord hrest x hx

theorem forall_mem_flatMap_upper {text : List Char} (htext : ∀ c ∈ text, P c) :
    ∀ c ∈ text.flatMap upper, P c := by
  intro x hx
  obtain ⟨c, hc, hx⟩ := List.mem_flatMap.mp hx
  exact h.upper c (htext c hc) x hx

/-- A capitalised word. -/
theorem forall_mem_capitalized {word : List Char} (hword : ∀ c ∈ word, P c) :
    ∀ c ∈ capitalized word, P c := by
  cases word with
  | nil => simp [capitalized]
  | cons c rest =>
    intro x hx
    rcases List.mem_append.mp hx with hx | hx
    · exact h.upper c (hword c (List.mem_cons_self ..)) x hx
    · exact forall_mem_lowerWord h (fun y hy => hword y (List.mem_cons_of_mem _ hy)) x hx

/-- A text in lower case, whatever stands in front of it. -/
theorem forall_mem_lowerAfter : ∀ {text : List Char} (before : List Char), (∀ c ∈ text, P c) →
    ∀ c ∈ Unicode.lowerAfter before text, P c
  | [], _, _ => by simp [Unicode.lowerAfter]
  | c :: rest, before, htext => by
    have hlower : ∀ d ∈ lower c, P d := h.lower c (htext c (List.mem_cons_self ..))
    intro x hx
    rw [Unicode.lowerAfter] at hx
    rcases List.mem_append.mp hx with hx | hx
    · split at hx
      · split at hx
        · rw [List.mem_singleton.mp hx]
          exact h.sigma
        · exact hlower x hx
      · exact hlower x hx
    · exact forall_mem_lowerAfter _ (fun y hy => htext y (List.mem_cons_of_mem _ hy)) x hx

/-- The snake form has underscores in it, and nothing else that the words have not. -/
theorem mem_snakeText {text : List Char} (htext : ∀ c ∈ text, P c) :
    ∀ c ∈ Casing.snakeText text, P c ∨ c = '_' := by
  refine forall_mem_intercalate (fun c hc => .inr (List.mem_singleton.mp hc)) fun w hw => ?_
  obtain ⟨word, hword, rfl⟩ := List.mem_map.mp hw
  intro c hc
  exact .inl (forall_mem_lowerWord h (fun d hd => htext d (subset_of_mem_words hword hd)) c hc)

/-- Words in lower case with a separator between them. -/
theorem forall_mem_snakeWith {separator : Char} (hseparator : P separator) {text : List Char}
    (htext : ∀ c ∈ text, P c) : ∀ c ∈ Casing.snakeWith separator text, P c := by
  intro x hx
  obtain ⟨c, hc, rfl⟩ := List.mem_map.mp hx
  split
  next => exact hseparator
  next hne => exact (mem_snakeText h htext c hc).resolve_right hne

/-- Words that are joined by their capitals. -/
theorem forall_mem_camel {text : List Char} (htext : ∀ c ∈ text, P c) :
    ∀ c ∈ Casing.join [] (Casing.camelWords (words text)), P c := by
  have hwords : ∀ w ∈ words text, ∀ c ∈ w, P c := fun w hw c hc =>
    htext c (subset_of_mem_words hw hc)
  refine forall_mem_intercalate (by simp) fun w hw => ?_
  cases hcamel : words text with
  | nil => simp [hcamel, Casing.camelWords] at hw
  | cons first others =>
    rw [hcamel] at hwords hw
    rcases List.mem_cons.mp hw with rfl | hw
    · exact forall_mem_lowerWord h (hwords first (List.mem_cons_self ..))
    · obtain ⟨word, hword, rfl⟩ := List.mem_map.mp hw
      exact forall_mem_capitalized h (hwords word (List.mem_cons_of_mem _ hword))

/-- A property that the separators of a casing have and a change of case keeps holds throughout a
restyled name when it does throughout the name. -/
theorem forall_mem_restyleChars (t : Casing) (hseparators : ∀ c ∈ t.separators, P c)
    {text : List Char} (htext : ∀ c ∈ text, P c) : ∀ c ∈ t.restyleChars text, P c := by
  have hcapitalized := @forall_mem_capitalized P h
  have hlower := @forall_mem_lowerWord P h
  cases t with
  | camel => exact forall_mem_camel h htext
  | capital => exact forall_mem_join hcapitalized hseparators htext
  | constant => exact forall_mem_join (forall_mem_flatMap_upper h) hseparators htext
  | dot => exact forall_mem_snakeWith h (hseparators _ (List.mem_singleton_self _)) htext
  | header => exact forall_mem_join hcapitalized hseparators htext
  | no => exact forall_mem_snakeWith h (hseparators _ (List.mem_singleton_self _)) htext
  | param => exact forall_mem_join hlower hseparators htext
  | pascal => exact forall_mem_join hcapitalized hseparators htext
  | path => exact forall_mem_snakeWith h (hseparators _ (List.mem_singleton_self _)) htext
  | sentence =>
    exact forall_mem_changeFirst h.upper
      (forall_mem_snakeWith h (hseparators _ (List.mem_singleton_self _)) htext)
  | snake => exact forall_mem_join hlower hseparators htext
  | title => exact forall_mem_join hcapitalized hseparators htext
  | lower => exact forall_mem_lowerAfter h [] htext
  | lowerFirst => exact forall_mem_changeFirst h.lower htext
  | upper => exact forall_mem_flatMap_upper h htext
  | upperFirst => exact forall_mem_changeFirst h.upper htext

end

/-- What all separators have those of each casing have. -/
theorem KeptByCase.separators {P : Char → Prop} (h : KeptByCase P) (t : Casing) :
    ∀ c ∈ t.separators, P c := by
  have hsubset : t.separators ⊆ ['_', '.', ' ', '-', '/'] := by
    cases t <;> decide
  exact fun c hc => h.separator c (hsubset hc)

/-- The same, whether or not underscores are restyled, too. -/
theorem forall_mem_rename {P : Char → Prop} (h : KeptByCase P) (renamer : Renamer)
    (category : Category) {name : String} (hname : ∀ c ∈ name.toList, P c) :
    ∀ c ∈ (renamer.rename name category).toList, P c := by
  unfold Renamer.rename
  cases renamer.convention.treatment category with
  | keep => exact hname
  | transform t =>
    show ∀ c ∈ (renamer.recase t name).toList, P c
    have hrestyle := @forall_mem_restyleChars P h.toCaseClosed t (h.separators t)
    unfold Renamer.recase
    split
    · unfold Casing.restyle
      rw [String.toList_ofList]
      exact hrestyle hname
    · rw [String.toList_ofList]
      refine forall_mem_intercalate (h.separators .snake) fun w hw => ?_
      obtain ⟨piece, hpiece, rfl⟩ := List.mem_map.mp hw
      exact hrestyle fun c hc => hname c (Text.subset_of_mem_splitAt '_' _ piece hpiece hc)

/-! ## Characters that no change of case leads to -/

/-- A change of case does not bring about what no shift and no expansion leads to. -/
theorem caseClosed_ne {d : Char} (hd : d ≠ '\x00') (hsigma : d ≠ finalSigma)
    (hlower : Unicode.Unreached d Unicode.lowerShifts Unicode.lowerExpansions)
    (hupper : Unicode.Unreached d Unicode.upperShifts Unicode.upperExpansions) :
    CaseClosed (· ≠ d) where
  lower := by
    intro c hc x hx heq
    rw [heq] at hx
    exact hc (Unicode.eq_of_mem_mapCase hd hlower hx)
  upper := by
    intro c hc x hx heq
    rw [heq] at hx
    exact hc (Unicode.eq_of_mem_mapCase hd hupper hx)
  sigma := hsigma.symm

/-- A change of case brings about no line feed. -/
theorem keptByCase_ne_newline : KeptByCase (· ≠ '\n') where
  toCaseClosed := caseClosed_ne (by decide) (by decide) Unicode.unreached_newline_lower
    Unicode.unreached_newline_upper
  separator := by simp

/-- Restyling brings no line feed into a name. -/
theorem newline_not_mem_rename (renamer : Renamer) (category : Category) {name : String}
    (hname : '\n' ∉ name.toList) : '\n' ∉ (renamer.rename name category).toList := by
  have hne : ∀ c ∈ name.toList, c ≠ '\n' := fun c hc heq => hname (heq ▸ hc)
  have hkept := forall_mem_rename keptByCase_ne_newline renamer category hne
  exact fun hmem => hkept '\n' hmem rfl

/-- Nor does it bring about an underscore. -/
theorem caseClosed_ne_underscore : CaseClosed (· ≠ '_') :=
  caseClosed_ne (by decide) (by decide) Unicode.unreached_underscore_lower
    Unicode.unreached_underscore_upper

/-- Unless it joins words with underscores, a casing brings no underscore into a text. -/
theorem underscore_not_mem_restyleChars {t : Casing} (ht : '_' ∉ t.separators) {text : List Char}
    (htext : '_' ∉ text) : '_' ∉ t.restyleChars text := by
  have hseparators : ∀ c ∈ t.separators, c ≠ '_' := fun c hc heq => ht (heq ▸ hc)
  have hne : ∀ c ∈ text, c ≠ '_' := fun c hc heq => htext (heq ▸ hc)
  exact fun hmem => forall_mem_restyleChars caseClosed_ne_underscore t hseparators hne '_' hmem rfl

end QueryModule.Naming
