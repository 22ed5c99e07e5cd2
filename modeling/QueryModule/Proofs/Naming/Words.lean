import QueryModule.Naming.Casing
import QueryModule.Proofs.Naming.Characters
import QueryModule.Proofs.Unicode.Ascii

/-!
# The words of a text

Cutting a text into words drops the characters that are neither letters nor digits, and nothing else
(`flatten_words`); and no word is empty (`nil_not_mem_words`). At such a character the scan starts anew,
so that the words of a text are those of its pieces (`words_eq_flatMap`). The snake form of an ASCII text
is its words with underscores between them, in small letters (`snakeText_eq`).

The scan itself does list an empty word, namely when it is in capitals already and the first character
begins a word: the word before then ends where the scan started. At the start of a word this cannot
be.
-/

namespace QueryModule.Naming

open QueryModule.Unicode (IsAscii isAlphanumeric isLower isUpper capitalSigma)

/-! ## Nothing is lost -/

theorem flatten_growFirst (c : Char) (ws : List (List Char)) :
    (growFirst c ws).flatten = c :: ws.flatten := by
  cases ws <;> rfl

/-- The scan neither adds nor drops characters. -/
theorem flatten_wordsFrom (s : Stretch) (text : List Char) : (wordsFrom s text).flatten = text := by
  fun_induction wordsFrom s text with
  | case1 => rfl
  | case2 => rfl
  | case3 s c d rest _ ih => rw [List.flatten_cons, ih]; rfl
  | case4 s c d rest _ _ ih => rw [List.flatten_cons, flatten_growFirst, ih]; rfl
  | case5 s c d rest _ _ ih => rw [flatten_growFirst, ih]

/-- The scan of a text that is not empty has a first word. -/
theorem wordsFrom_ne_nil (s : Stretch) {text : List Char} (h : text ≠ []) : wordsFrom s text ≠ [] := by
  intro hnil
  have hflat := flatten_wordsFrom s text
  rw [hnil] at hflat
  exact h hflat.symm

/-- The runs of a text are its letters and digits. -/
theorem flatten_runs (text : List Char) : (runs text).flatten = text.filter isAlphanumeric := by
  induction text with
  | nil => rfl
  | cons c rest ih =>
    rw [runs]
    split
    next hc => rw [flatten_growFirst, ih, List.filter_cons_of_pos hc]
    next hc =>
      rw [List.flatten_cons, ih, List.filter_cons_of_neg hc]
      rfl

/-- A text of letters and digits only is one run. -/
theorem runs_eq_singleton {run : List Char} (h : ∀ c ∈ run, isAlphanumeric c = true) :
    runs run = [run] := by
  induction run with
  | nil => rfl
  | cons c rest ih =>
    obtain ⟨hc, hrest⟩ := List.forall_mem_cons.mp h
    rw [runs, if_pos hc, ih hrest]
    rfl

/-- The words of a text are its letters and digits, in their order. -/
theorem flatten_words (text : List Char) : (words text).flatten = text.filter isAlphanumeric := by
  have hflat : ∀ run ∈ runs text, (wordsFrom .none run).flatten = run := fun run _ =>
    flatten_wordsFrom .none run
  calc (words text).flatten
      = ((runs text).map fun run => (wordsFrom .none run).flatten).flatten := by
        rw [words, List.flatMap_def, List.flatten_flatten, List.map_map]
        rfl
    _ = (runs text).flatten := by rw [List.map_congr_left hflat, List.map_id']
    _ = text.filter isAlphanumeric := flatten_runs text

/-! ## No word is empty -/

theorem tail_growFirst (c : Char) (ws : List (List Char)) : (growFirst c ws).tail = ws.tail := by
  cases ws <;> rfl

theorem nil_not_mem_growFirst {c : Char} {ws : List (List Char)} (h : [] ∉ ws.tail) :
    [] ∉ growFirst c ws := by
  cases ws with
  | nil => simp [growFirst]
  | cons word others => exact List.not_mem_cons_of_ne_of_not_mem (by simp) h

/-- Only the first word of a scan can be empty, and none is when the scan starts a word. -/
theorem nil_not_mem_wordsFrom (s : Stretch) (text : List Char) :
    [] ∉ (wordsFrom s text).tail ∧ (s = .none → [] ∉ wordsFrom s text) := by
  fun_induction wordsFrom s text with
  | case1 => simp
  | case2 => simp
  | case3 s c d rest _ ih =>
    have hrest := ih.2 rfl
    exact ⟨hrest, fun _ => List.not_mem_cons_of_ne_of_not_mem (by simp) hrest⟩
  | case4 s c d rest _ hbreak ih =>
    refine ⟨nil_not_mem_growFirst ih.1, fun hnone => ?_⟩
    -- Such a word ends within capitals only.
    rw [hnone] at hbreak
    exact absurd hbreak (by simp)
  | case5 s c d rest _ _ ih =>
    refine ⟨?_, fun _ => nil_not_mem_growFirst ih.1⟩
    rw [tail_growFirst]
    exact ih.1

/-- No word is empty. -/
theorem nil_not_mem_words (text : List Char) : [] ∉ words text := by
  intro hmem
  obtain ⟨run, -, hrun⟩ := List.mem_flatMap.mp hmem
  exact (nil_not_mem_wordsFrom .none run).2 rfl hrun

/-! ## Words on both sides of a separator -/

theorem growFirst_append {c : Char} {ws : List (List Char)} (h : ws ≠ []) (more : List (List Char)) :
    growFirst c (ws ++ more) = growFirst c ws ++ more := by
  cases ws with
  | nil => exact absurd rfl h
  | cons => rfl

/-- There is always a run, although it may be empty. -/
theorem runs_ne_nil (text : List Char) : runs text ≠ [] := by
  cases text with
  | nil => simp [runs]
  | cons c rest =>
    rw [runs]
    split
    · cases runs rest <;> simp [growFirst]
    · simp

section

variable {separator : Char} (hseparator : isAlphanumeric separator = false)

include hseparator

/-- A separator ends a run. -/
theorem runs_append (front back : List Char) :
    runs (front ++ separator :: back) = runs front ++ runs back := by
  induction front with
  | nil => simp [runs, hseparator]
  | cons c front ih =>
    rw [List.cons_append, runs, runs, ih]
    split
    · rw [growFirst_append (runs_ne_nil front)]
    · rfl

/-- The scan for words starts anew behind a separator. -/
theorem words_append (front back : List Char) :
    words (front ++ separator :: back) = words front ++ words back := by
  rw [words, runs_append hseparator, List.flatMap_append]
  rfl

/-- Joined texts have the words of each of them. -/
theorem words_intercalate {texts : List (List Char)} (h : texts ≠ []) :
    words ([separator].intercalate texts) = texts.flatMap words :=
  Text.flatMap_of_intercalate (words_append hseparator) h

/-- The words of a text are those of its pieces. -/
theorem words_eq_flatMap (text : List Char) :
    words text = (Text.splitAt separator text).flatMap words := by
  rw [← words_intercalate hseparator (Text.splitAt_ne_nil separator text), Text.intercalate_splitAt]

end

/-- Words consist of letters and digits. -/
theorem isAlphanumeric_of_mem_words {text word : List Char} (hword : word ∈ words text) {c : Char}
    (hc : c ∈ word) : isAlphanumeric c = true := by
  have hflat : c ∈ (words text).flatten := List.mem_flatten.mpr ⟨word, hword, hc⟩
  rw [flatten_words] at hflat
  exact (List.mem_filter.mp hflat).2

/-! ## Words joined -/

/-- Changing each character of joined words changes each word and what joins them. -/
theorem map_intercalate (f : Char → Char) (separator : List Char) :
    ∀ ws : List (List Char),
      (separator.intercalate ws).map f = (separator.map f).intercalate (ws.map (·.map f))
  | [] => rfl
  | [w] => by simp
  | w :: v :: ws => by
    have ih := map_intercalate f separator (v :: ws)
    rw [List.map_cons] at ih
    rw [List.intercalate_cons_cons, List.map_append, List.map_append, ih]
    simp only [List.map_cons, List.intercalate_cons_cons]

/-- A character in front of the first word is in front of the joined words. -/
theorem intercalate_growFirst (separator : List Char) (c : Char) (ws : List (List Char)) :
    separator.intercalate (growFirst c ws) = c :: separator.intercalate ws := by
  cases ws with
  | nil => simp [growFirst]
  | cons word others => exact List.intercalate_cons_cons_left

/-- Where no word is empty, the first character is that of the first word. -/
theorem head?_intercalate {separator : List Char} :
    ∀ {ws : List (List Char)}, [] ∉ ws → (separator.intercalate ws).head? = ws.flatten.head?
  | [], _ => rfl
  | [w], _ => by simp
  | w :: v :: ws, h => by
    obtain ⟨c, rest, rfl⟩ : ∃ c rest, w = c :: rest :=
      List.exists_cons_of_ne_nil (List.ne_and_not_mem_of_not_mem_cons h).1.symm
    rw [List.intercalate_cons_cons_left]
    rfl

/-! ## Changed words -/

theorem lowerWord_ne_nil {word : List Char} (h : word ≠ []) : lowerWord word ≠ [] := by
  fun_cases lowerWord word <;> simp_all [Unicode.lower_ne_nil]

theorem upperWord_ne_nil {word : List Char} (h : word ≠ []) : upperWord word ≠ [] := by
  obtain ⟨c, rest, rfl⟩ := List.exists_cons_of_ne_nil h
  simp [upperWord, Unicode.upper_ne_nil]

/-! ## The snake form of an ASCII text -/

/-- The capital sigma is no ASCII character; so the end of a word is nothing special. -/
theorem lowerWord_eq : ∀ {word : List Char}, (∀ c ∈ word, IsAscii c) →
    lowerWord word = word.map Char.toLower
  | [], _ => rfl
  | [c], h => by
    have hc := h c (List.mem_cons_self ..)
    have hsigma : c ≠ capitalSigma := by
      rintro rfl
      exact absurd hc (by decide)
    rw [lowerWord, if_neg hsigma, hc.lower_eq]
    rfl
  | c :: d :: rest, h => by
    have ih := lowerWord_eq fun x hx => h x (List.mem_cons_of_mem c hx)
    rw [lowerWord.eq_3 c (d :: rest) (by simp), (h c (List.mem_cons_self ..)).lower_eq, ih]
    rfl

/-- For names of ASCII characters, the snake form is the words in lower case with underscores between
them. -/
theorem snakeText_eq {text : List Char} (h : ∀ c ∈ text, IsAscii c) :
    Casing.snakeText text = (['_'].intercalate (words text)).map Char.toLower := by
  have hwords : (words text).map lowerWord = (words text).map (·.map Char.toLower) := by
    apply List.map_congr_left
    intro word hword
    exact lowerWord_eq fun c hc => h c (subset_of_mem_words hword hc)
  unfold Casing.snakeText Casing.join
  rw [hwords, map_intercalate]
  rfl

end QueryModule.Naming
