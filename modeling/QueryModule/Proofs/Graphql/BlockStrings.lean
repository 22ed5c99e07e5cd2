import QueryModule.Graphql.Lexer
import QueryModule.Graphql.Printer
import QueryModule.Proofs.Text.Lines

/-!
# Block strings that have been written

In a block string every line of the text stands on a line of its own, indented, and with a backslash in
front of every three quotation marks. The lexer finds the closing marks where they have been written,
whatever the lines are (`blockLength?_content`). Reading takes away the indentation that all lines
share, the blank lines at both ends, the line feed at the end and every carriage return at the end of a
line, and so it gives only those texts back that have none of this to lose.

> `unindent_content`: the content of a block string denotes the text.
-/

namespace QueryModule.Graphql

open QueryModule.Text

/-- Nothing of the text is taken for the form of a block string: no line ends with a carriage return,
lines of white space are empty, the first and the last line are not, and some line starts at the
margin. -/
structure SurvivesBlock (text : List Char) : Prop where
  returns : ∀ l ∈ splitAt '\n' text, l.getLast? ≠ some '\r'
  blank : ∀ l ∈ splitAt '\n' text, isBlankLine l = true → l = []
  first : (splitAt '\n' text).head? ≠ some []
  last : (splitAt '\n' text).getLast? ≠ some []
  margin : ∃ l ∈ splitAt '\n' text, ∃ c ∈ l.head?, isBlank c = false

/-! ## Escaped lines -/

/-- The line with a backslash in front of every three quotation marks. -/
def escapeMarks (line : List Char) : List Char := replaceAll tripleMark ('\\' :: tripleMark) line

theorem tripleMark_ne_nil : tripleMark ≠ [] := by decide

@[simp]
theorem escapeMarks_nil : escapeMarks [] = [] := replaceAll_nil

theorem escapeMarks_append (rest : List Char) :
    escapeMarks (tripleMark ++ rest) = '\\' :: tripleMark ++ escapeMarks rest :=
  replaceAll_append tripleMark_ne_nil rest

theorem escapeMarks_cons {c : Char} {rest : List Char} (h : ¬ tripleMark <+: c :: rest) :
    escapeMarks (c :: rest) = c :: escapeMarks rest := replaceAll_cons h

/-- Three marks in a row are left only where there have been three. -/
theorem isPrefix_of_isPrefix_escapeMarks {line : List Char} (h : tripleMark <+: escapeMarks line) :
    tripleMark <+: line := isPrefix_of_isPrefix_replaceAll (by decide) h

/-- The backslashes are found again. -/
theorem replaceAll_escapeMarks (line : List Char) :
    replaceAll ('\\' :: tripleMark) tripleMark (escapeMarks line) = line := by
  induction line using replaceAll_induction tripleMark_ne_nil with
  | nil => rw [escapeMarks_nil, replaceAll_nil]
  | found rest ih => rw [escapeMarks_append, replaceAll_append (by simp), ih]
  | other c rest hc ih =>
    rw [escapeMarks_cons hc, replaceAll_cons, ih]
    -- A backslash of the line does not stand in front of three marks: these would have been escaped.
    intro hleads
    have hmarks := (List.cons_prefix_cons.mp hleads).2
    obtain ⟨more, rfl⟩ := isPrefix_of_isPrefix_escapeMarks hmarks
    rw [escapeMarks_append] at hmarks
    exact absurd (List.cons_prefix_cons.mp hmarks).1 (by decide)

/-- Escaping makes no new lines. -/
theorem newline_not_mem_escapeMarks {line : List Char} (h : '\n' ∉ line) : '\n' ∉ escapeMarks line := by
  intro hmem
  rcases mem_replaceAll tripleMark_ne_nil hmem with hnew | hold
  · exact absurd hnew (by decide)
  · exact h hold

/-- A line ends with the same character when it is escaped. -/
theorem getLast?_escapeMarks (line : List Char) : (escapeMarks line).getLast? = line.getLast? := by
  induction line using replaceAll_induction tripleMark_ne_nil with
  | nil => rw [escapeMarks_nil]
  | found rest ih =>
    rw [escapeMarks_append, List.getLast?_append, List.getLast?_append, ih]
    rfl
  | other c rest hc ih => rw [escapeMarks_cons hc, List.getLast?_cons, List.getLast?_cons, ih]

/-- Escaping leaves blank lines blank, and others not. -/
theorem isBlankLine_escapeMarks (line : List Char) : isBlankLine (escapeMarks line) = isBlankLine line := by
  induction line using replaceAll_induction tripleMark_ne_nil with
  | nil => rw [escapeMarks_nil]
  | found rest ih =>
    rw [escapeMarks_append]
    rfl
  | other c rest hc ih =>
    rw [escapeMarks_cons hc]
    unfold isBlankLine at ih ⊢
    rw [List.all_cons, List.all_cons, ih]

/-- An escaped line starts at the margin where the line does. -/
theorem margin_escapeMarks {line : List Char} {c : Char} (hc : c ∈ line.head?) (hblank : isBlank c = false) :
    ∃ d ∈ (escapeMarks line).head?, isBlank d = false := by
  by_cases h : tripleMark <+: line
  · obtain ⟨rest, rfl⟩ := h
    rw [escapeMarks_append]
    exact ⟨'\\', rfl, by decide⟩
  · cases line with
    | nil => exact absurd hc (by simp)
    | cons d rest =>
      rw [escapeMarks_cons h]
      exact ⟨c, hc, hblank⟩

/-! ## The closing marks -/

/-- A character that does not start three quotation marks belongs to the string. -/
theorem blockLength?_cons {c : Char} {rest : List Char} (h : ¬ tripleMark <+: c :: rest) (escaped : Bool) :
    blockLength? escaped (c :: rest) = (blockLength? (c == '\\') rest).map (· + 1) := by
  refine blockLength?.eq_2 escaped c rest fun more hc hrest => h ?_
  rw [hc, hrest]
  exact List.prefix_append tripleMark more

/-- A line feed always does, and no escape reaches over it. -/
theorem blockLength?_newline (escaped : Bool) (rest : List Char) :
    blockLength? escaped ('\n' :: rest) = (blockLength? false rest).map (· + 1) := by
  have hnot : ¬ tripleMark <+: '\n' :: rest := fun h => absurd (List.cons_prefix_cons.mp h).1 (by decide)
  rw [blockLength?_cons hnot]
  rfl

/-- So do spaces. -/
theorem blockLength?_spaces (n : Nat) (rest : List Char) :
    blockLength? false (List.replicate n ' ' ++ rest) = (blockLength? false rest).map (· + n) := by
  induction n with
  | zero => simp
  | succ n ih =>
    have hnot : ¬ tripleMark <+: ' ' :: (List.replicate n ' ' ++ rest) :=
      fun h => absurd (List.cons_prefix_cons.mp h).1 (by decide)
    rw [List.replicate_succ, List.cons_append, blockLength?_cons hnot]
    show (blockLength? false _).map _ = _
    rw [ih, Option.map_map]
    rfl

/-- What ends in front of some character of another kind does not go on behind it. -/
theorem isPrefix_of_isPrefix_append_cons {pattern front rest : List Char} {c : Char} (hc : c ∉ pattern)
    (h : pattern <+: front ++ c :: rest) : pattern <+: front := by
  rcases Nat.lt_or_ge front.length pattern.length with hlt | hge
  · have hfront : front ++ [c] <+: pattern := by
      refine List.prefix_of_prefix_length_le ?_ h (by rw [List.length_append]; exact hlt)
      exact ⟨rest, List.append_assoc ..⟩
    exact absurd (hfront.subset (by simp)) hc
  · exact List.prefix_of_prefix_length_le h (List.prefix_append _ _) hge

/-- The lexer goes over a line to its end. -/
theorem blockLength?_escapeMarks (line rest : List Char) (escaped : Bool) :
    blockLength? escaped (escapeMarks line ++ '\n' :: rest)
      = (blockLength? false rest).map (· + ((escapeMarks line).length + 1)) := by
  induction line using replaceAll_induction tripleMark_ne_nil generalizing escaped with
  | nil =>
    rw [escapeMarks_nil]
    exact blockLength?_newline escaped rest
  | found more ih =>
    have hnot : ¬ tripleMark <+: '\\' :: (tripleMark ++ (escapeMarks more ++ '\n' :: rest)) :=
      fun h => absurd (List.cons_prefix_cons.mp h).1 (by decide)
    rw [escapeMarks_append, List.cons_append, List.cons_append, List.append_assoc,
      blockLength?_cons hnot]
    show (blockLength? true ('"' :: '"' :: '"' :: (escapeMarks more ++ '\n' :: rest))).map _ = _
    rw [blockLength?.eq_1, if_pos rfl, ih, Option.map_map, Option.map_map]
    congr 1
  | other c more hc ih =>
    have hnot : ¬ tripleMark <+: c :: (escapeMarks more ++ '\n' :: rest) := by
      intro h
      have h : tripleMark <+: escapeMarks (c :: more) ++ '\n' :: rest := by
        rwa [escapeMarks_cons hc]
      exact hc (isPrefix_of_isPrefix_escapeMarks (isPrefix_of_isPrefix_append_cons (by decide) h))
    rw [escapeMarks_cons hc, List.cons_append, blockLength?_cons hnot, ih, Option.map_map]
    rfl

/-- A line of a block string without its line feed. -/
def printedLine (indent : Nat) (line : List Char) : List Char :=
  if isBlankLine line then [] else List.replicate (indent + indentStep) ' ' ++ escapeMarks line

/-- What stands between the marks of a block string. -/
def blockContent (indent : Nat) (text : List Char) : List Char :=
  '\n' :: (unlines ((lines text).map (printedLine indent)) ++ List.replicate indent ' ')

theorem toList_spaces (n : Nat) : (spaces n).toList = List.replicate n ' ' := String.toList_ofList

/-- A line of a block string with its line feed. -/
theorem toList_blockStringLine (indent : Nat) (line : List Char) :
    (blockStringLine indent line).toList = printedLine indent line ++ ['\n'] := by
  unfold blockStringLine printedLine
  split
  · rfl
  · rw [String.toList_append, String.toList_append, toList_spaces, String.toList_ofList]
    rfl

/-- A block string is its content between the marks. -/
theorem toList_blockString (indent : Nat) (text : String) :
    (blockString indent text).toList = tripleMark ++ (blockContent indent text.toList ++ tripleMark) := by
  have hlines : (String.join ((lines text.toList).map (blockStringLine indent))).toList
      = unlines ((lines text.toList).map (printedLine indent)) := by
    rw [String.toList_join, unlines, List.flatMap_map, List.flatMap_map]
    exact congrArg (List.flatMap · _) (funext (toList_blockStringLine indent))
  unfold blockString blockContent
  rw [String.toList_append, String.toList_append, String.toList_append, hlines, toList_spaces,
    List.append_assoc, List.append_assoc, List.cons_append, List.append_assoc]
  rfl

/-- The lexer goes over a printed line and its line feed. -/
theorem blockLength?_printedLine (indent : Nat) (line rest : List Char) :
    blockLength? false (printedLine indent line ++ '\n' :: rest)
      = (blockLength? false rest).map (· + ((printedLine indent line).length + 1)) := by
  unfold printedLine
  split
  · exact blockLength?_newline false rest
  · rw [List.append_assoc, blockLength?_spaces, blockLength?_escapeMarks, Option.map_map,
      List.length_append, List.length_replicate]
    congr 1
    funext n
    show n + _ + _ = _
    omega

/-- The lexer finds the marks that close the string. -/
theorem blockLength?_content (indent : Nat) (text rest : List Char) :
    blockLength? false (blockContent indent text ++ (tripleMark ++ rest))
      = some ((blockContent indent text).length + 3) := by
  -- The marks that close the string stand behind an indentation of their own.
  have hend : blockLength? false (List.replicate indent ' ' ++ (tripleMark ++ rest)) = some (indent + 3) := by
    rw [blockLength?_spaces]
    show (blockLength? false ('"' :: '"' :: '"' :: rest)).map _ = _
    rw [blockLength?.eq_1, if_neg (by simp), Option.map_some]
    congr 1
    omega
  -- In front of it the lines are gone over one by one.
  have hlines : ∀ ls : List (List Char), blockLength? false (unlines (ls.map (printedLine indent))
      ++ (List.replicate indent ' ' ++ (tripleMark ++ rest)))
        = some ((unlines (ls.map (printedLine indent))).length + (indent + 3)) := by
    intro ls
    induction ls with
    | nil => simpa using hend
    | cons l ls ih =>
      rw [List.map_cons, unlines_cons, List.append_assoc, List.cons_append, blockLength?_printedLine, ih,
        Option.map_some, List.length_append, List.length_cons]
      congr 1
      omega
  unfold blockContent
  rw [List.cons_append, List.append_assoc, blockLength?_newline, hlines, Option.map_some,
    List.length_cons, List.length_append, List.length_replicate]
  congr 1

/-! ## The text -/

/-- The lines of a text that survives are the pieces between its line feeds. -/
theorem SurvivesBlock.lines_eq {text : List Char} (h : SurvivesBlock text) :
    lines text = splitAt '\n' text := by
  have hne := splitAt_ne_nil '\n' text
  have hfeed := not_mem_of_mem_splitAt '\n' text
  have htext := intercalate_splitAt '\n' text
  have hreturns := h.returns
  have hlast := h.last
  generalize splitAt '\n' text = ls at *
  obtain ⟨front, last, rfl⟩ : ∃ front last, ls = front ++ [last] :=
    ⟨_, _, (List.dropLast_append_getLast hne).symm⟩
  have hlast : last ≠ [] := by
    rintro rfl
    exact hlast (by simp)
  rw [← htext, ← unlines_append_last, lines_unlines_append, lines_of_not_mem hlast (hfeed last (by simp))]
  exact fun l hl => ⟨hfeed l (List.mem_append_left _ hl), hreturns l (List.mem_append_left _ hl)⟩

/-- A bound of all numbers is one of the least. -/
theorem le_least {l : List Nat} {m : Nat} (hne : l ≠ []) (hle : ∀ n ∈ l, m ≤ n) : m ≤ least l := by
  fun_induction least l with
  | case1 => exact absurd rfl hne
  | case2 n => exact hle n (List.mem_singleton_self n)
  | case3 n rest hrest ih =>
    exact Nat.le_min.mpr ⟨hle n (List.mem_cons_self ..),
      ih (by simpa using hrest) fun k hk => hle k (List.mem_cons_of_mem _ hk)⟩

/-- The least of some numbers is at most each of them. -/
theorem least_le {l : List Nat} : ∀ n ∈ l, least l ≤ n := by
  fun_induction least l with
  | case1 => simp
  | case2 n => simp
  | case3 n rest hrest ih =>
    intro k hk
    rcases List.mem_cons.mp hk with rfl | hk
    · exact Nat.min_le_left _ _
    · exact (Nat.min_le_right _ _).trans (ih k hk)

/-- Sizes add up. -/
theorem byteSize_append (a b : List Char) : Utf8.byteSize (a ++ b) = Utf8.byteSize a + Utf8.byteSize b := by
  induction a with
  | nil => exact (Nat.zero_add _).symm
  | cons c a ih =>
    show c.utf8Size + Utf8.byteSize (a ++ b) = c.utf8Size + Utf8.byteSize a + Utf8.byteSize b
    rw [ih, Nat.add_assoc]

/-- A space is one byte. -/
theorem byteSize_spaces (n : Nat) : Utf8.byteSize (List.replicate n ' ') = n := by
  induction n with
  | zero => rfl
  | succ n ih =>
    show ' '.utf8Size + Utf8.byteSize (List.replicate n ' ') = n + 1
    rw [ih, Nat.add_comm]
    rfl

/-- Spaces in front add to the indentation. -/
theorem indentation_spaces_append (n : Nat) (line : List Char) :
    indentation (List.replicate n ' ' ++ line) = n + indentation line := by
  unfold indentation
  rw [List.takeWhile_append_of_pos, byteSize_append, byteSize_spaces]
  intro c hc
  rw [List.eq_of_mem_replicate hc]
  decide

/-- They are what is dropped when so much indentation is. -/
theorem dropIndentation_spaces_append (n : Nat) (line : List Char) :
    dropIndentation n (List.replicate n ' ' ++ line) = line := by
  induction n with
  | zero => cases line <;> rfl
  | succ n ih => exact ih

theorem printedLine_of_blank {line : List Char} (h : isBlankLine line = true) (indent : Nat) :
    printedLine indent line = [] := if_pos h

theorem printedLine_of_not_blank {line : List Char} (h : isBlankLine line = false) (indent : Nat) :
    printedLine indent line = List.replicate (indent + indentStep) ' ' ++ escapeMarks line :=
  if_neg (by simp [h])

/-- Printing leaves blank lines blank, and others not. -/
theorem isBlankLine_printedLine (indent : Nat) (line : List Char) :
    isBlankLine (printedLine indent line) = isBlankLine line := by
  cases h : isBlankLine line with
  | true => rw [printedLine_of_blank h]; rfl
  | false =>
    rw [printedLine_of_not_blank h]
    unfold isBlankLine
    rw [List.all_append]
    change (_ && isBlankLine (escapeMarks line)) = false
    rw [isBlankLine_escapeMarks, h, Bool.and_false]

/-- A line that starts at the margin has no indentation. -/
theorem indentation_of_margin {line : List Char} {c : Char} (hc : c ∈ line.head?)
    (hblank : isBlank c = false) : indentation line = 0 := by
  cases line with
  | nil => rfl
  | cons d rest =>
    obtain rfl : d = c := Option.some.inj hc
    unfold indentation
    rw [List.takeWhile_cons_of_neg (by simp [hblank])]
    rfl

/-- And it is not blank. -/
theorem isBlankLine_of_margin {line : List Char} {c : Char} (hc : c ∈ line.head?)
    (hblank : isBlank c = false) : isBlankLine line = false := by
  cases line with
  | nil => exact absurd hc (by simp)
  | cons d rest =>
    obtain rfl : d = c := Option.some.inj hc
    unfold isBlankLine
    rw [List.all_cons, hblank, Bool.false_and]

/-- Where some line starts at the margin, the indentation that has been written is what all lines
share. -/
theorem shared_printed {indent : Nat} {ls closing : List (List Char)}
    (hmargin : ∃ l ∈ ls, ∃ c ∈ l.head?, isBlank c = false)
    (hclosing : ∀ l ∈ closing, isBlankLine l = true) :
    least (((ls.map (printedLine indent) ++ closing).filter (!isBlankLine ·)).map indentation)
      = indent + indentStep := by
  -- The line that starts at the margin is printed with this indentation,
  have hmem : indent + indentStep
      ∈ ((ls.map (printedLine indent) ++ closing).filter (!isBlankLine ·)).map indentation := by
    obtain ⟨l, hl, c, hc, hblank⟩ := hmargin
    have hnot := isBlankLine_of_margin hc hblank
    obtain ⟨d, hd, hdblank⟩ := margin_escapeMarks hc hblank
    refine List.mem_map.mpr ⟨printedLine indent l, List.mem_filter.mpr ⟨?_, ?_⟩, ?_⟩
    · exact List.mem_append_left _ (List.mem_map_of_mem hl)
    · rw [isBlankLine_printedLine, hnot]
      rfl
    · rw [printedLine_of_not_blank hnot, indentation_spaces_append, indentation_of_margin hd hdblank,
        Nat.add_zero]
  -- and no line that counts has less.
  refine Nat.le_antisymm (least_le _ hmem) (le_least (List.ne_nil_of_mem hmem) fun n hn => ?_)
  obtain ⟨l', hl', rfl⟩ := List.mem_map.mp hn
  obtain ⟨hmem, hnot⟩ := List.mem_filter.mp hl'
  rcases List.mem_append.mp hmem with hmem | hmem
  · obtain ⟨l, -, rfl⟩ := List.mem_map.mp hmem
    rw [isBlankLine_printedLine] at hnot
    rw [printedLine_of_not_blank (by simpa using hnot), indentation_spaces_append]
    exact Nat.le_add_right _ _
  · rw [hclosing l' hmem] at hnot
    exact absurd hnot (by simp)

/-- Taking the shared indentation away leaves the escaped lines between the two of the marks. -/
theorem dedentLines_printed {indent : Nat} {ls closing : List (List Char)}
    (hblank : ∀ l ∈ ls, isBlankLine l = true → l = [])
    (hmargin : ∃ l ∈ ls, ∃ c ∈ l.head?, isBlank c = false)
    (hclosing : ∀ l ∈ closing, isBlankLine l = true ∧ Utf8.byteSize l ≤ indent) :
    dedentLines ([] :: (ls.map (printedLine indent) ++ closing)) = [] :: (ls.map escapeMarks ++ closing) := by
  have hshared : least (((ls.map (printedLine indent) ++ closing).filter (!isBlankLine ·)).map indentation)
      = indent + indentStep := shared_printed hmargin fun l hl => (hclosing l hl).1
  have hstep : indent < indent + indentStep := Nat.lt_add_of_pos_right (by decide)
  unfold dedentLines
  dsimp only
  rw [hshared, List.map_append, List.map_map]
  congr 2
  · refine List.map_congr_left fun l hl => ?_
    show (if _ ≤ Utf8.byteSize (printedLine indent l) then _ else _) = _
    cases h : isBlankLine l with
    | true =>
      rw [printedLine_of_blank h, hblank l hl h, escapeMarks_nil]
      split <;> rfl
    | false =>
      rw [printedLine_of_not_blank h, dropIndentation_spaces_append, if_pos]
      rw [byteSize_append, byteSize_spaces]
      exact Nat.le_add_right _ _
  · -- The white space in front of the closing marks is shorter than what the lines share.
    refine (List.map_congr_left fun l hl => ?_).trans (List.map_id _)
    have hle := (hclosing l hl).2
    exact if_neg (by omega)

/-- Trimming takes away what is blank at both ends, and the text starts and ends with something that is
not. -/
theorem trimEnds_eq {α : Type} {p : α → Bool} {opening : α} {kept closing : List α}
    (hopening : p opening = true) (hne : kept ≠ []) (hfirst : ∀ a ∈ kept.head?, p a = false)
    (hlast : ∀ a ∈ kept.getLast?, p a = false) (hclosing : ∀ a ∈ closing, p a = true) :
    trimEnds p (opening :: (kept ++ closing)) = kept := by
  have hfront : (opening :: (kept ++ closing)).dropWhile p = kept ++ closing := by
    obtain ⟨a, rest, rfl⟩ := List.exists_cons_of_ne_nil hne
    rw [List.dropWhile_cons_of_pos hopening, List.cons_append,
      List.dropWhile_cons_of_neg (by simp [hfirst a rfl])]
  have hback : (kept ++ closing).reverse.dropWhile p = kept.reverse := by
    obtain ⟨front, a, rfl⟩ : ∃ front a, kept = front ++ [a] :=
      ⟨_, _, (List.dropLast_append_getLast hne).symm⟩
    have ha : p a = false := hlast a (by simp)
    rw [List.reverse_append, List.dropWhile_append_of_pos, List.reverse_append, List.reverse_singleton,
      List.singleton_append, List.dropWhile_cons_of_neg (by simp [ha])]
    exact fun x hx => hclosing x (List.mem_reverse.mp hx)
  unfold trimEnds
  rw [hfront, hback, List.reverse_reverse]

/-- The indentation in front of the closing marks is a blank line, no longer than it. -/
theorem lines_spaces (n : Nat) :
    ∀ l ∈ lines (List.replicate n ' '), isBlankLine l = true ∧ Utf8.byteSize l ≤ n := by
  cases n with
  | zero => simp [lines]
  | succ n =>
    have hfeed : '\n' ∉ List.replicate (n + 1) ' ' :=
      fun h => absurd (List.eq_of_mem_replicate h) (by decide)
    rw [lines_of_not_mem (by simp) hfeed]
    intro l hl
    rw [List.mem_singleton.mp hl, byteSize_spaces]
    refine ⟨List.all_eq_true.mpr fun c hc => ?_, Nat.le_refl _⟩
    rw [List.eq_of_mem_replicate hc]
    decide

/-- The lines of what has been printed are the printed lines. -/
theorem lines_printed {indent : Nat} {ls : List (List Char)}
    (h : ∀ l ∈ ls, '\n' ∉ l ∧ l.getLast? ≠ some '\r') (rest : List Char) :
    lines (unlines (ls.map (printedLine indent)) ++ rest) = ls.map (printedLine indent) ++ lines rest := by
  refine lines_unlines_append (fun l' hl' => ?_) rest
  obtain ⟨l, hl, rfl⟩ := List.mem_map.mp hl'
  obtain ⟨hfeed, hreturn⟩ := h l hl
  cases hblank : isBlankLine l with
  | true =>
    rw [printedLine_of_blank hblank]
    simp
  | false =>
    have hne : escapeMarks l ≠ [] := by
      intro hnil
      have := isBlankLine_escapeMarks l
      rw [hnil, hblank] at this
      exact absurd this (by decide)
    rw [printedLine_of_not_blank hblank]
    refine ⟨fun hmem => ?_, ?_⟩
    · rcases List.mem_append.mp hmem with hmem | hmem
      · exact absurd (List.eq_of_mem_replicate hmem) (by decide)
      · exact newline_not_mem_escapeMarks hfeed hmem
    · rw [List.getLast?_append_of_ne_nil _ hne, getLast?_escapeMarks]
      exact hreturn

/-- The content of a block string denotes the text. -/
theorem unindent_content {text : List Char} (h : SurvivesBlock text) (indent : Nat) :
    unindent (blockContent indent text) = text := by
  have hlines := h.lines_eq
  have htext := intercalate_splitAt '\n' text
  have hfeed := not_mem_of_mem_splitAt '\n' text
  obtain ⟨hreturns, hblank, hfirst, hlast, hmargin⟩ := h
  have hne := splitAt_ne_nil '\n' text
  generalize splitAt '\n' text = ls at *
  have hcontent : lines (blockContent indent text)
      = [] :: (ls.map (printedLine indent) ++ lines (List.replicate indent ' ')) := by
    unfold blockContent
    rw [lines_newline, hlines, lines_printed fun l hl => ⟨hfeed l hl, hreturns l hl⟩]
  -- The first and the last line are not blank, and so nothing of the text is trimmed.
  have hends : ∀ l ∈ ls, l ≠ [] → isBlankLine (escapeMarks l) = false := by
    intro l hl hlne
    rw [isBlankLine_escapeMarks]
    by_contra hl'
    exact hlne (hblank l hl (by simpa using hl'))
  have htrim : trimEnds isBlankLine ([] :: (ls.map escapeMarks ++ lines (List.replicate indent ' ')))
      = ls.map escapeMarks := by
    refine trimEnds_eq rfl (by simpa using hne) ?_ ?_ fun l hl => (lines_spaces indent l hl).1
    · intro a ha
      rw [List.head?_map] at ha
      obtain ⟨l, hl, rfl⟩ := Option.map_eq_some_iff.mp ha
      exact hends l (List.mem_of_mem_head? hl) fun hnil => hfirst (by rw [hl, hnil])
    · intro a ha
      rw [List.getLast?_map] at ha
      obtain ⟨l, hl, rfl⟩ := Option.map_eq_some_iff.mp ha
      exact hends l (List.mem_of_getLast? hl) fun hnil => hlast (by rw [hl, hnil])
  unfold unindent
  dsimp only
  rw [hcontent, dedentLines_printed hblank hmargin (lines_spaces indent), htrim, List.map_map]
  have hback : (ls.map (replaceAll ('\\' :: tripleMark) tripleMark ∘ escapeMarks)) = ls :=
    (List.map_congr_left fun l _ => replaceAll_escapeMarks l).trans (List.map_id _)
  rw [hback, htext]

end QueryModule.Graphql
