import QueryModule.Proofs.Naming.Words
import Mathlib.Data.List.DropRight

/-!
# Squeezing underscores

`squeeze` drops the underscores at the ends of a text and makes every other run of underscores a single
one. What there is between the underscores stays:

> `squeeze_eq`: a squeezed text is its non-empty segments with single underscores between them.

A text whose underscores stand one by one inside of it stays what it is (`squeeze_eq_self`).
-/

namespace QueryModule.Naming

/-- Of each run of underscores only the last one. -/
def collapse : List Char → List Char
  | [] => []
  | c :: rest => if c = '_' ∧ rest.head? = some '_' then collapse rest else c :: collapse rest

/-- A text without the underscores at its ends and with single ones inside. -/
def squeeze (text : List Char) : List Char :=
  collapse ((text.dropWhile (· = '_')).rdropWhile (· = '_'))

/-! ## Segments -/

/-- What there is between the underscores of a text. -/
def segments (text : List Char) : List (List Char) := (Text.splitAt '_' text).filter (· ≠ [])

/-- At an underscore the segments of both sides are put behind each other. -/
theorem segments_append (front back : List Char) :
    segments (front ++ '_' :: back) = segments front ++ segments back := by
  rw [segments, Text.splitAt_append, List.filter_append]
  rfl

theorem segments_underscore (rest : List Char) : segments ('_' :: rest) = segments rest :=
  segments_append [] rest

theorem segments_concat (front : List Char) : segments (front ++ ['_']) = segments front := by
  rw [segments_append]
  exact List.append_nil _

/-- A text without underscores is its only segment. -/
theorem segments_of_not_mem {text : List Char} (hne : text ≠ []) (h : '_' ∉ text) :
    segments text = [text] := by
  rw [segments, Text.splitAt_of_not_mem h]
  simp [hne]

theorem segments_singleton {c : Char} (hc : c ≠ '_') : segments [c] = [[c]] :=
  segments_of_not_mem (by simp) (by simpa using hc.symm)

/-- A character that is no underscore belongs to the segment of the one behind it. -/
theorem segments_cons {c d : Char} {rest : List Char} (hc : c ≠ '_') (hd : d ≠ '_') :
    segments (c :: d :: rest) = growFirst c (segments (d :: rest)) := by
  obtain ⟨piece, others, hpieces⟩ := List.exists_cons_of_ne_nil (Text.splitAt_ne_nil '_' rest)
  simp [segments, Text.splitAt, hc, hd, hpieces, growFirst]

/-- A text with anything else in it has a segment. -/
theorem segments_ne_nil {c : Char} {text : List Char} (hmem : c ∈ text) (hc : c ≠ '_') :
    segments text ≠ [] := by
  intro hnil
  have hempty : ∀ piece ∈ Text.splitAt '_' text, piece = [] := by
    intro piece hpiece
    by_contra hne
    exact List.filter_eq_nil_iff.mp hnil piece hpiece (by simpa using hne)
  have hall : ∀ c ∈ ['_'].intercalate (Text.splitAt '_' text), c = '_' :=
    forall_mem_intercalate (by simp) fun piece hpiece x hx => by simp [hempty piece hpiece] at hx
  rw [Text.intercalate_splitAt] at hall
  exact hc (hall c hmem)

/-- Underscores that are taken off the front take no segment away. -/
theorem segments_dropWhile (text : List Char) :
    segments (text.dropWhile (· = '_')) = segments text := by
  induction text with
  | nil => rfl
  | cons c rest ih =>
    by_cases hc : c = '_'
    · rw [List.dropWhile_cons_of_pos (by simpa using hc), ih, hc, segments_underscore]
    · rw [List.dropWhile_cons_of_neg (by simpa using hc)]

/-- Neither do those that are taken off the end. -/
theorem segments_rdropWhile (text : List Char) :
    segments (text.rdropWhile (· = '_')) = segments text := by
  induction text using List.reverseRecOn with
  | nil => rfl
  | append_singleton front c ih =>
    by_cases hc : c = '_'
    · rw [List.rdropWhile_concat_pos _ _ _ (by simpa using hc), ih, hc, segments_concat]
    · rw [List.rdropWhile_concat_neg _ _ _ (by simpa using hc)]

/-! ## What is left -/

/-- In a text that does not end with an underscore, single underscores are left between the segments,
and one in front of them if there were any. -/
theorem collapse_eq {text : List Char} (h : text.getLast? ≠ some '_') :
    collapse text =
      (if text.head? = some '_' then ['_'] else []) ++ ['_'].intercalate (segments text) := by
  induction text with
  | nil => rfl
  | cons c rest ih =>
    cases rest with
    | nil =>
      have hc : c ≠ '_' := by simpa using h
      simp [collapse, hc, segments_singleton hc]
    | cons d rest =>
      rw [List.getLast?_cons_cons] at h
      have hcollapse := ih h
      by_cases hc : c = '_'
      · rw [hc, segments_underscore]
        by_cases hd : d = '_'
        · rw [collapse, if_pos ⟨rfl, congrArg some hd⟩, hcollapse, hd]
          rfl
        · rw [collapse, if_neg (by simpa using hd), hcollapse]
          simp [hd]
      · rw [collapse, if_neg (by simp [hc]), hcollapse]
        by_cases hd : d = '_'
        · rw [hd] at h ⊢
          have hsegments : segments (c :: '_' :: rest) = [c] :: segments rest := by
            rw [← List.singleton_append, segments_append, segments_singleton hc]
            rfl
          -- The text goes on behind the underscore, as it does not end with it.
          obtain ⟨last, hlast⟩ : ∃ last, ('_' :: rest).getLast? = some last := ⟨_, List.getLast?_cons⟩
          have hne : last ≠ '_' := fun heq => h (heq ▸ hlast)
          have hmem : segments rest ≠ [] := by
            rw [← segments_underscore]
            exact segments_ne_nil (List.mem_of_getLast? hlast) hne
          rw [segments_underscore, hsegments, List.intercalate_cons_of_ne_nil hmem]
          simp [hc]
        · rw [segments_cons hc hd, intercalate_growFirst]
          simp [hc, hd]

/-- What is left of a text are its segments with single underscores between them. -/
theorem squeeze_eq (text : List Char) : squeeze text = ['_'].intercalate (segments text) := by
  have hlast : ((text.dropWhile (· = '_')).rdropWhile (· = '_')).getLast? ≠ some '_' := by
    intro hlast
    obtain ⟨front, heq⟩ := List.getLast?_eq_some_iff.mp hlast
    have hend := List.rdropWhile_last_not (· = '_') (text.dropWhile (· = '_')) (by simp [heq])
    simp [heq] at hend
  have hhead : ((text.dropWhile (· = '_')).rdropWhile (· = '_')).head? ≠ some '_' := by
    intro hhead
    obtain ⟨rest, heq⟩ := List.head?_eq_some_iff.mp hhead
    obtain ⟨more, hmore⟩ := heq ▸ List.rdropWhile_prefix (· = '_') (text.dropWhile (· = '_'))
    have hstart := List.head?_dropWhile_not (· = '_') text
    simp [← hmore] at hstart
  rw [squeeze, collapse_eq hlast, if_neg hhead, segments_rdropWhile, segments_dropWhile,
    List.nil_append]

/-- Nothing is squeezed out of a text that has something between any two underscores and at its ends. -/
theorem squeeze_eq_self {text : List Char} (h : [] ∉ Text.splitAt '_' text) : squeeze text = text := by
  have hall : ∀ piece ∈ Text.splitAt '_' text, decide (piece ≠ []) = true := by
    intro piece hpiece
    rw [decide_eq_true_eq]
    rintro rfl
    exact h hpiece
  rw [squeeze_eq, segments, List.filter_eq_self.mpr hall, Text.intercalate_splitAt]

/-- Underscores stand one by one, and neither at the front nor at the end. -/
structure IsTidy (text : List Char) : Prop where
  front : text.head? ≠ some '_'
  back : text.getLast? ≠ some '_'
  single : ¬ ['_', '_'] <:+: text

/-- No piece of a tidy text is empty. -/
theorem IsTidy.nil_not_mem_splitAt {text : List Char} (h : IsTidy text) (hne : text ≠ []) :
    [] ∉ Text.splitAt '_' text := by
  intro hmem
  obtain ⟨before, after, hpieces⟩ := List.append_of_mem hmem
  have htext := Text.intercalate_splitAt '_' text
  rw [hpieces] at htext
  rcases before with _ | ⟨first, before⟩ <;> rcases after with _ | ⟨next, after⟩
  · exact hne htext.symm
  · apply h.front
    rw [← htext]
    simp [List.intercalate_cons_cons]
  · apply h.back
    rw [← htext, Text.intercalate_append (by simp) (by simp)]
    simp
  · apply h.single
    rw [← htext, Text.intercalate_append (by simp) (by simp), List.intercalate_cons_cons]
    exact ⟨['_'].intercalate (first :: before), ['_'].intercalate (next :: after), by simp⟩

end QueryModule.Naming
