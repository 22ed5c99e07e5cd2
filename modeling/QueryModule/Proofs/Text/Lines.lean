import QueryModule.Text.Lines
import Mathlib.Data.List.Infix
import Mathlib.Data.List.Basic

/-!
# Lines and replacements

What the lines of a text and a replacement in a text have to do with the text itself. No line holds a
line feed (`newline_not_mem_lines`), and the first line is a prefix of the text. Replacing something by
a text that starts with a character `n` does not bring anything about at the front that is without `n`
(`isPrefix_of_isPrefix_replaceAll`).
-/

namespace QueryModule.Text

/-! ## Lines put together again -/

/-- Lines as one text, with a line feed behind each. -/
def unlines (ls : List (List Char)) : List Char := ls.flatMap (· ++ ['\n'])

@[simp]
theorem unlines_nil : unlines [] = [] := rfl

@[simp]
theorem unlines_cons (l : List Char) (ls : List (List Char)) :
    unlines (l :: ls) = l ++ '\n' :: unlines ls := by
  simp [unlines]

@[simp]
theorem unlines_append (ls ls' : List (List Char)) :
    unlines (ls ++ ls') = unlines ls ++ unlines ls' := by
  simp [unlines]

/-- Lines with a last one behind them, which has no line feed. -/
theorem unlines_append_last (last : List Char) :
    ∀ ls, unlines ls ++ last = ['\n'].intercalate (ls ++ [last])
  | [] => by simp
  | l :: ls => by
    rw [List.cons_append, List.intercalate_cons_of_ne_nil (by simp), ← unlines_append_last last ls]
    simp

/-- Lines are told apart by the line feeds between them. -/
theorem splitOn_unlines {ls : List (List Char)} {last : List Char}
    (hls : ∀ l ∈ ls, '\n' ∉ l) (hlast : '\n' ∉ last) :
    (unlines ls ++ last).splitOn '\n' = ls ++ [last] := by
  rw [unlines_append_last]
  refine List.splitOn_intercalate '\n' ?_ (by simp)
  intro l hl
  rcases List.mem_append.mp hl with hl | hl
  · exact hls l hl
  · rw [List.mem_singleton.mp hl]
    exact hlast

/-! ## The lines of a text -/

/-- Lines, the first of which gets one more character at its front. -/
def growLine (c : Char) : List (List Char) → List (List Char)
  | [] => [[c]]
  | line :: others => (c :: line) :: others

@[simp]
theorem lines_newline (rest : List Char) : lines ('\n' :: rest) = [] :: lines rest := rfl

/-- A carriage return in front of a line feed belongs to the end of the line. -/
@[simp]
theorem lines_return_newline (rest : List Char) :
    lines ('\r' :: '\n' :: rest) = [] :: lines rest := rfl

/-- A character that ends no line stands at the front of the first one. -/
theorem lines_cons {c : Char} {rest : List Char} (hc : c ≠ '\n')
    (hrest : c = '\r' → ¬ ['\n'] <+: rest) : lines (c :: rest) = growLine c (lines rest) := by
  rw [lines.eq_4 c rest hc]
  · rfl
  · intro others hc hothers
    exact hrest hc ⟨others, hothers.symm⟩

/-- Characters in front of no line are a line. -/
theorem foldr_growLine_nil {front : List Char} (h : front ≠ []) : front.foldr growLine [] = [front] := by
  induction front with
  | nil => exact absurd rfl h
  | cons c rest ih =>
    cases rest with
    | nil => rfl
    | cons d rest =>
      rw [List.foldr_cons, ih (by simp)]
      rfl

/-- Characters in front of some lines belong to the first one. -/
theorem foldr_growLine_cons (front line : List Char) (others : List (List Char)) :
    front.foldr growLine (line :: others) = (front ++ line) :: others := by
  induction front with
  | nil => rfl
  | cons c rest ih =>
    rw [List.foldr_cons, ih]
    rfl

/-- Characters that have nothing to do with the ends of lines stand at the front of the first one. -/
theorem lines_append {front : List Char} (h : ∀ c ∈ front, c ≠ '\n' ∧ c ≠ '\r') (rest : List Char) :
    lines (front ++ rest) = front.foldr growLine (lines rest) := by
  induction front with
  | nil => rfl
  | cons c front ih =>
    obtain ⟨hfeed, hreturn⟩ := h c (List.mem_cons_self ..)
    rw [List.cons_append, lines_cons hfeed fun hc => absurd hc hreturn,
      ih fun d hd => h d (List.mem_cons_of_mem _ hd)]
    rfl

/-- A line that grows does not break. -/
theorem newline_not_mem_growLine {c : Char} (hc : c ≠ '\n') {ls : List (List Char)}
    (hls : ∀ l ∈ ls, '\n' ∉ l) : ∀ l ∈ growLine c ls, '\n' ∉ l := by
  cases ls with
  | nil => simpa [growLine] using hc.symm
  | cons line others =>
    intro l hl
    rcases List.mem_cons.mp hl with rfl | hl
    · exact List.not_mem_cons_of_ne_of_not_mem hc.symm (hls line (List.mem_cons_self ..))
    · exact hls l (List.mem_cons_of_mem _ hl)

/-- No line holds a line feed. -/
theorem newline_not_mem_lines (text : List Char) : ∀ l ∈ lines text, '\n' ∉ l := by
  fun_induction lines text with
  | case1 => simp
  | case2 rest ih => simpa using ih
  | case3 rest ih => simpa using ih
  | case4 c rest hc _ hlines ih =>
    have := newline_not_mem_growLine hc ih
    rwa [hlines] at this
  | case5 c rest hc _ line others hlines ih =>
    have := newline_not_mem_growLine hc ih
    rwa [hlines] at this

/-- The first line is a prefix of the text. -/
theorem isPrefix_of_lines {text line : List Char} {others : List (List Char)}
    (h : lines text = line :: others) : line <+: text := by
  fun_induction lines text generalizing line others with
  | case1 => simp at h
  | case2 rest => exact (List.cons.inj h).1 ▸ List.nil_prefix
  | case3 rest => exact (List.cons.inj h).1 ▸ List.nil_prefix
  | case4 c rest =>
    rw [← (List.cons.inj h).1]
    exact List.prefix_cons_iff.mpr (.inr ⟨[], rfl, List.nil_prefix⟩)
  | case5 c rest _ _ line' others' hlines ih =>
    rw [← (List.cons.inj h).1]
    exact List.prefix_cons_inj c |>.mpr (ih hlines)

/-- The text up to a line feed is a line, unless a carriage return in front of it is cut off. -/
theorem lines_append_newline {l : List Char} (hfeed : '\n' ∉ l) (hreturn : l.getLast? ≠ some '\r')
    (rest : List Char) : lines (l ++ '\n' :: rest) = l :: lines rest := by
  induction l with
  | nil => rfl
  | cons c l ih =>
    obtain ⟨hc, hl⟩ := List.ne_and_not_mem_of_not_mem_cons hfeed
    cases l with
    | nil =>
      rw [List.singleton_append, lines_cons hc.symm fun h => absurd (congrArg some h) hreturn]
      rfl
    | cons d l =>
      have hd := (List.ne_and_not_mem_of_not_mem_cons hl).1
      rw [List.getLast?_cons_cons] at hreturn
      rw [List.cons_append, lines_cons hc.symm fun _ hleads => ?_, ih hl hreturn]
      · rfl
      · exact hd (List.cons_prefix_cons.mp hleads).1

/-- A text without a line feed is a line. -/
theorem lines_of_not_mem {l : List Char} (hne : l ≠ []) (hfeed : '\n' ∉ l) : lines l = [l] := by
  induction l with
  | nil => exact absurd rfl hne
  | cons c l ih =>
    obtain ⟨hc, hl⟩ := List.ne_and_not_mem_of_not_mem_cons hfeed
    rw [lines_cons hc.symm fun _ hleads => hl (hleads.subset (List.mem_singleton_self _))]
    cases l with
    | nil => rfl
    | cons d l =>
      rw [ih (by simp) hl]
      rfl

/-- Lines are found again, if none of them ends with a carriage return. -/
theorem lines_unlines_append {ls : List (List Char)} (h : ∀ l ∈ ls, '\n' ∉ l ∧ l.getLast? ≠ some '\r')
    (rest : List Char) : lines (unlines ls ++ rest) = ls ++ lines rest := by
  induction ls with
  | nil => rfl
  | cons l ls ih =>
    obtain ⟨hfeed, hreturn⟩ := h l (List.mem_cons_self ..)
    rw [unlines_cons, List.append_assoc, List.cons_append, lines_append_newline hfeed hreturn,
      ih fun k hk => h k (List.mem_cons_of_mem _ hk)]
    rfl

/-! ## Pieces -/

/-- There is always a piece. -/
theorem splitAt_ne_nil (separator : Char) (text : List Char) : splitAt separator text ≠ [] := by
  cases text with
  | nil => simp [splitAt]
  | cons c rest =>
    rw [splitAt]
    split
    · simp
    · split <;> simp

/-- The pieces, in the words of the standard library. -/
theorem splitAt_eq_splitOn (separator : Char) (text : List Char) :
    splitAt separator text = text.splitOn separator := by
  induction text with
  | nil => rfl
  | cons c rest ih =>
    obtain ⟨piece, others, hpieces⟩ := List.exists_cons_of_ne_nil (splitAt_ne_nil separator rest)
    rw [splitAt, List.splitOn_cons_eq_if_modifyHead, ← ih, hpieces]
    simp only [beq_iff_eq]
    rfl

/-- A text consists of its pieces with the separator between each two. -/
theorem intercalate_splitAt (separator : Char) (text : List Char) :
    [separator].intercalate (splitAt separator text) = text := by
  rw [splitAt_eq_splitOn, List.intercalate_splitOn]

theorem splitAt_append (separator : Char) (front back : List Char) :
    splitAt separator (front ++ separator :: back) =
      splitAt separator front ++ splitAt separator back := by
  simp only [splitAt_eq_splitOn, List.splitOn_append_cons_self]

theorem splitAt_of_not_mem {separator : Char} {text : List Char} (h : separator ∉ text) :
    splitAt separator text = [text] := by
  rw [splitAt_eq_splitOn, List.splitOn_eq_singleton h]

/-- There is one piece more than there are separators. -/
theorem length_splitAt (separator : Char) (text : List Char) :
    (splitAt separator text).length = text.count separator + 1 := by
  induction text with
  | nil => rfl
  | cons c rest ih =>
    obtain ⟨piece, others, hpieces⟩ := List.exists_cons_of_ne_nil (splitAt_ne_nil separator rest)
    rw [hpieces] at ih
    rw [splitAt, hpieces]
    split
    next hc => rw [hc, List.count_cons_self, List.length_cons, ih]
    next hc => rw [List.count_cons_of_ne hc, ← ih]; rfl

/-- No piece has the separator in it. -/
theorem not_mem_of_mem_splitAt (separator : Char) :
    ∀ text : List Char, ∀ piece ∈ splitAt separator text, separator ∉ piece
  | [] => by simp [splitAt]
  | c :: rest => by
    have ih := not_mem_of_mem_splitAt separator rest
    intro piece hpiece
    rw [splitAt] at hpiece
    split at hpiece
    · rcases List.mem_cons.mp hpiece with rfl | hpiece
      · simp
      · exact ih piece hpiece
    next hc =>
      obtain ⟨first, others, hpieces⟩ := List.exists_cons_of_ne_nil (splitAt_ne_nil separator rest)
      rw [hpieces] at hpiece ih
      rcases List.mem_cons.mp hpiece with rfl | hpiece
      · exact List.not_mem_cons_of_ne_of_not_mem (Ne.symm hc) (ih first (List.mem_cons_self ..))
      · exact ih piece (List.mem_cons_of_mem _ hpiece)

/-- The pieces of a text consist of its characters. -/
theorem subset_of_mem_splitAt (separator : Char) :
    ∀ text : List Char, ∀ piece ∈ splitAt separator text, piece ⊆ text
  | [] => by simp [splitAt]
  | c :: rest => by
    have ih := subset_of_mem_splitAt separator rest
    intro piece hpiece
    rw [splitAt] at hpiece
    split at hpiece
    · rcases List.mem_cons.mp hpiece with rfl | hpiece
      · exact List.nil_subset _
      · exact List.subset_cons_of_subset c (ih piece hpiece)
    · cases hrest : splitAt separator rest with
      | nil =>
        rw [hrest] at hpiece
        rw [List.mem_singleton.mp hpiece]
        exact List.cons_subset_cons c (List.nil_subset _)
      | cons first others =>
        rw [hrest] at hpiece ih
        rcases List.mem_cons.mp hpiece with rfl | hpiece
        · exact List.cons_subset_cons c (ih first (List.mem_cons_self ..))
        · exact List.subset_cons_of_subset c (ih piece (List.mem_cons_of_mem _ hpiece))

/-! ## Texts joined -/

/-- Texts are joined in two steps as in one. -/
theorem intercalate_append {separator : List Char} {front back : List (List Char)} (hfront : front ≠ [])
    (hback : back ≠ []) :
    separator.intercalate (front ++ back) =
      separator.intercalate front ++ separator ++ separator.intercalate back := by
  induction front with
  | nil => exact absurd rfl hfront
  | cons text others ih =>
    cases others with
    | nil => rw [List.singleton_append, List.intercalate_cons_of_ne_nil hback, List.intercalate_singleton]
    | cons other others =>
      rw [List.cons_append, List.intercalate_cons_of_ne_nil (by simp), ih (by simp),
        List.intercalate_cons_cons]
      simp only [List.append_assoc]

/-- What is made of a text from each side of a separator is made of joined texts from each of them. -/
theorem flatMap_of_intercalate {α : Type} {f : List Char → List α} {separator : Char}
    (hf : ∀ front back, f (front ++ separator :: back) = f front ++ f back) {texts : List (List Char)}
    (h : texts ≠ []) : f ([separator].intercalate texts) = texts.flatMap f := by
  induction texts with
  | nil => exact absurd rfl h
  | cons text others ih =>
    cases others with
    | nil => simp
    | cons other others =>
      rw [List.intercalate_cons_cons, List.append_assoc, List.singleton_append, hf, ih (by simp)]
      rfl

/-- Texts that are joined are cut where they have been joined and inside of each of them. -/
theorem splitAt_intercalate (separator : Char) {texts : List (List Char)} (h : texts ≠ []) :
    splitAt separator ([separator].intercalate texts) = texts.flatMap (splitAt separator) :=
  flatMap_of_intercalate (splitAt_append separator) h

/-- The last piece is what stands behind the last separator, or all of the text where there is none. -/
theorem getLast?_splitAt_eq_some_iff {separator : Char} {text piece : List Char} :
    (splitAt separator text).getLast? = some piece ↔
      separator ∉ piece ∧ (text = piece ∨ ∃ front, text = front ++ separator :: piece) := by
  constructor
  · intro h
    obtain ⟨front, hpieces⟩ := List.getLast?_eq_some_iff.mp h
    refine ⟨not_mem_of_mem_splitAt separator text piece (by simp [hpieces]), ?_⟩
    have htext := intercalate_splitAt separator text
    rw [hpieces] at htext
    by_cases hfront : front = []
    · left
      rw [← htext, hfront, List.nil_append, List.intercalate_singleton]
    · right
      refine ⟨[separator].intercalate front, ?_⟩
      rw [← htext, intercalate_append hfront (by simp), List.intercalate_singleton]
      simp
  · rintro ⟨hpiece, rfl | ⟨front, rfl⟩⟩
    · rw [splitAt_of_not_mem hpiece, List.getLast?_singleton]
    · rw [splitAt_append, splitAt_of_not_mem hpiece, List.getLast?_concat]

/-! ## Replacements -/

variable {old new : List Char}

@[simp]
theorem replaceAll_nil : replaceAll old new [] = [] := by
  rw [replaceAll]

/-- What is looked for is replaced. -/
theorem replaceAll_append (hold : old ≠ []) (rest : List Char) :
    replaceAll old new (old ++ rest) = new ++ replaceAll old new rest := by
  cases old with
  | nil => exact absurd rfl hold
  | cons o os =>
    rw [List.cons_append, replaceAll, if_pos (by simp [List.isPrefixOf_iff_prefix])]
    simp

/-- Everything else stays. -/
theorem replaceAll_cons {c : Char} {rest : List Char} (h : ¬ old <+: c :: rest) :
    replaceAll old new (c :: rest) = c :: replaceAll old new rest := by
  rw [replaceAll, if_neg (by rwa [List.isPrefixOf_iff_prefix])]

/-- What stands at the front after a replacement, and does not come from it, stood there before. -/
theorem isPrefix_of_isPrefix_replaceAll {n : Char} {news : List Char} :
    ∀ {pattern text : List Char}, n ∉ pattern →
      pattern <+: replaceAll old (n :: news) text → pattern <+: text
  | [], _, _, _ => List.nil_prefix
  | p :: ps, [], _, h => by simp at h
  | p :: ps, c :: rest, hn, h => by
    obtain ⟨hp, hps⟩ := List.ne_and_not_mem_of_not_mem_cons hn
    by_cases hold : old <+: c :: rest
    · -- The front is the replacement's, which starts with `n`, and no pattern does.
      rw [replaceAll, if_pos (by rwa [List.isPrefixOf_iff_prefix]), List.cons_append] at h
      exact absurd (List.cons_prefix_cons.mp h).1.symm hp
    · rw [replaceAll_cons hold] at h
      obtain ⟨rfl, hrest⟩ := List.cons_prefix_cons.mp h
      exact List.cons_prefix_cons.mpr ⟨rfl, isPrefix_of_isPrefix_replaceAll hps hrest⟩

/-- A text is taken apart in the way in which a replacement goes through it. -/
theorem replaceAll_induction {motive : List Char → Prop} (hold : old ≠ []) (nil : motive [])
    (found : ∀ rest, motive rest → motive (old ++ rest))
    (other : ∀ c rest, ¬ old <+: c :: rest → motive rest → motive (c :: rest)) :
    ∀ text, motive text := by
  intro text
  induction hn : text.length using Nat.strongRecOn generalizing text with
  | ind n ih =>
    by_cases hleads : old <+: text
    · obtain ⟨rest, rfl⟩ := hleads
      have hpos := List.length_pos_iff.mpr hold
      exact found rest (ih rest.length (by rw [← hn, List.length_append]; omega) rest rfl)
    · cases text with
      | nil => exact nil
      | cons c rest =>
        exact other c rest hleads (ih rest.length (by rw [← hn, List.length_cons]; omega) rest rfl)

/-- A replacement brings in no characters but its own. -/
theorem mem_replaceAll (hold : old ≠ []) {text : List Char} {c : Char}
    (h : c ∈ replaceAll old new text) : c ∈ new ∨ c ∈ text := by
  induction text using replaceAll_induction hold with
  | nil => simp at h
  | found rest ih =>
    rw [replaceAll_append hold, List.mem_append] at h
    rcases h with h | h
    · exact .inl h
    · exact (ih h).imp_right (List.mem_append_right _)
  | other d rest hd ih =>
    rw [replaceAll_cons hd] at h
    rcases List.mem_cons.mp h with rfl | h
    · exact .inr (List.mem_cons_self ..)
    · exact (ih h).imp_right (List.mem_cons_of_mem _)

end QueryModule.Text
