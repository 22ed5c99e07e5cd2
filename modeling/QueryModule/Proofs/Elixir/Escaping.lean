import QueryModule.Elixir.Module
import QueryModule.Proofs.Text.Lines

/-!
# What a heredoc's body says

`heredocBody` escapes a text in three passes. They come to the same as one pass from left to right
(`heredocBody_eq_escape`), and everything else about the body is seen from that pass: it denotes the
text, line by line (`unescape_unlines_escape`), its lines are the escaped lines of the text
(`lines_escape`), and no line of it starts like a delimiter, whatever stands in front of it to the left
(`not_startsDelimiter_escape`).

What a body denotes is read off it by `unescape`, which knows the three escapes that are written, and
fails at every other one and at the start of an interpolation.
-/

namespace QueryModule.Elixir

open QueryModule.Text

/-! ## Reading a body -/

/-- The characters that an escape can stand for. -/
def isEscapable (c : Char) : Bool := c = '\\' || c = '"' || c = '#'

/-- The text that a body denotes: a backslash and the character behind it denote that character. There
is no text when something else is escaped or when an interpolation starts. -/
def unescape : List Char → Option (List Char)
  | [] => some []
  | '\\' :: c :: rest => if isEscapable c then (unescape rest).map (c :: ·) else none
  | ['\\'] => none
  | '#' :: '\x7b' :: _ => none
  | c :: rest => (unescape rest).map (c :: ·)

/-- Is the character one of those that may stand in front of a delimiter? -/
def isIndent (c : Char) : Bool := c = ' ' || c = '\t'

/-- Is a delimiter the first thing on the line? -/
def startsDelimiter (line : List Char) : Bool := delimiter.isPrefixOf (line.dropWhile isIndent)

/-! ## Escaping in one pass -/

/-- The text with everything escaped that would not mean itself. -/
def escape : List Char → List Char
  | [] => []
  | '\\' :: rest => '\\' :: '\\' :: escape rest
  | '#' :: '\x7b' :: rest => '\\' :: '#' :: '\x7b' :: escape rest
  | '"' :: '"' :: '"' :: rest => '\\' :: '"' :: '\\' :: '"' :: '\\' :: '"' :: escape rest
  | c :: rest => c :: escape rest

/-- The character means itself in front of some others. -/
structure MeansItself (c : Char) (rest : List Char) : Prop where
  noBackslash : c ≠ '\\'
  noInterpolation : c = '#' → ¬ ['\x7b'] <+: rest
  noDelimiter : c = '"' → ¬ ['"', '"'] <+: rest

theorem escape_cons {c : Char} {rest : List Char} (h : MeansItself c rest) :
    escape (c :: rest) = c :: escape rest := by
  rw [escape.eq_5 c rest h.noBackslash]
  · intro others hc hrest
    exact h.noInterpolation hc ⟨others, hrest.symm⟩
  · intro others hc hrest
    exact h.noDelimiter hc ⟨others, hrest.symm⟩

/-- A text is empty, or starts with something that is escaped or with a character that means
itself. -/
theorem escape_induction {P : List Char → Prop} (nil : P [])
    (backslash : ∀ rest, P rest → P ('\\' :: rest))
    (interpolation : ∀ rest, P rest → P ('#' :: '\x7b' :: rest))
    (delimiter : ∀ rest, P rest → P ('"' :: '"' :: '"' :: rest))
    (itself : ∀ c rest, MeansItself c rest → P rest → P (c :: rest)) (text : List Char) :
    P text := by
  induction text using escape.induct with
  | case1 => exact nil
  | case2 rest ih => exact backslash rest ih
  | case3 rest ih => exact interpolation rest ih
  | case4 rest ih => exact delimiter rest ih
  | case5 c rest hbackslash hinterpolation hdelimiter ih =>
    refine itself c rest ⟨hbackslash, ?_, ?_⟩ ih
    · intro hc ⟨others, hrest⟩
      exact hinterpolation others hc hrest.symm
    · intro hc ⟨others, hrest⟩
      exact hdelimiter others hc hrest.symm

/-! ## The three passes -/

/-- A character at the front that neither is looked for nor starts what is looked for. -/
private theorem replaceAll_skip {o c : Char} {os new rest : List Char} (h : o ≠ c) :
    replaceAll (o :: os) new (c :: rest) = c :: replaceAll (o :: os) new rest :=
  replaceAll_cons fun hfront => h (List.cons_prefix_cons.mp hfront).1

/-- One pass does what the three passes do. -/
theorem heredocBody_eq_escape (text : List Char) : heredocBody text = escape text := by
  induction text using escape_induction with
  | nil => simp [heredocBody, escape]
  | backslash rest ih =>
    have hdouble : replaceAll ['\\'] ['\\', '\\'] ('\\' :: rest)
        = '\\' :: '\\' :: replaceAll ['\\'] ['\\', '\\'] rest :=
      replaceAll_append (by simp) rest
    unfold heredocBody at ih ⊢
    rw [hdouble]
    unfold interpolation delimiter at ih ⊢
    rw [replaceAll_skip (by decide), replaceAll_skip (by decide), replaceAll_skip (by decide),
      replaceAll_skip (by decide), ih]
    rfl
  | interpolation rest ih =>
    unfold heredocBody at ih ⊢
    rw [replaceAll_skip (by decide), replaceAll_skip (by decide)]
    have hmark : ∀ others, replaceAll interpolation ('\\' :: interpolation) ('#' :: '\x7b' :: others)
        = '\\' :: '#' :: '\x7b' :: replaceAll interpolation ('\\' :: interpolation) others :=
      replaceAll_append (by decide)
    rw [hmark]
    unfold delimiter at ih ⊢
    rw [replaceAll_skip (by decide), replaceAll_skip (by decide), replaceAll_skip (by decide), ih]
    rfl
  | delimiter rest ih =>
    unfold heredocBody at ih ⊢
    rw [replaceAll_skip (by decide), replaceAll_skip (by decide), replaceAll_skip (by decide)]
    unfold interpolation at ih ⊢
    rw [replaceAll_skip (by decide), replaceAll_skip (by decide), replaceAll_skip (by decide)]
    have hmark : ∀ others, replaceAll delimiter ['\\', '"', '\\', '"', '\\', '"']
          ('"' :: '"' :: '"' :: others)
        = '\\' :: '"' :: '\\' :: '"' :: '\\' :: '"'
          :: replaceAll delimiter ['\\', '"', '\\', '"', '\\', '"'] others :=
      replaceAll_append (by decide)
    rw [hmark, ih]
    rfl
  | itself c rest hitself ih =>
    -- Neither pass finds at the front what the pass before it has brought about there.
    have hinterpolation : ¬ interpolation <+: c :: replaceAll ['\\'] ['\\', '\\'] rest := by
      intro h
      obtain ⟨hc, hrest⟩ := List.cons_prefix_cons.mp h
      exact hitself.noInterpolation hc.symm (isPrefix_of_isPrefix_replaceAll (by decide) hrest)
    have hdelimiter : ¬ delimiter <+: c :: replaceAll interpolation ('\\' :: interpolation)
        (replaceAll ['\\'] ['\\', '\\'] rest) := by
      intro h
      obtain ⟨hc, hrest⟩ := List.cons_prefix_cons.mp h
      exact hitself.noDelimiter hc.symm (isPrefix_of_isPrefix_replaceAll (by decide)
        (isPrefix_of_isPrefix_replaceAll (by decide) hrest))
    unfold heredocBody at ih ⊢
    rw [replaceAll_skip hitself.noBackslash.symm, replaceAll_cons hinterpolation,
      replaceAll_cons hdelimiter, ih, escape_cons hitself]

/-- What stands at the front of an escaped text and is no backslash, stood there before. -/
theorem isPrefix_of_isPrefix_escape {pattern text : List Char} (hpattern : '\\' ∉ pattern)
    (h : pattern <+: escape text) : pattern <+: text := by
  rw [← heredocBody_eq_escape] at h
  exact isPrefix_of_isPrefix_replaceAll hpattern (isPrefix_of_isPrefix_replaceAll hpattern
    (isPrefix_of_isPrefix_replaceAll hpattern h))

/-! ## What the body denotes -/

theorem unescape_escaped {c : Char} (hc : isEscapable c = true) (rest : List Char) :
    unescape ('\\' :: c :: rest) = (unescape rest).map (c :: ·) := by
  rw [unescape, if_pos hc]

theorem unescape_cons {c : Char} {rest : List Char} (hbackslash : c ≠ '\\')
    (hinterpolation : c = '#' → ¬ ['\x7b'] <+: rest) :
    unescape (c :: rest) = (unescape rest).map (c :: ·) := by
  rw [unescape.eq_5 c rest]
  · exact fun d others h => absurd h hbackslash
  · exact fun h => absurd h hbackslash
  · intro others hc hrest
    exact hinterpolation hc ⟨others, hrest.symm⟩

/-- A line of the body with its line feed denotes the line of the text with its line feed. -/
theorem unescape_escape_newline (text rest : List Char) :
    unescape (escape text ++ '\n' :: rest) = (unescape rest).map fun value => text ++ '\n' :: value := by
  induction text using escape_induction with
  | nil =>
    show unescape ('\n' :: rest) = _
    rw [unescape_cons (by simp) (by simp)]
    rfl
  | backslash text ih =>
    show unescape ('\\' :: '\\' :: (escape text ++ '\n' :: rest)) = _
    rw [unescape_escaped (by decide), ih, Option.map_map]
    rfl
  | interpolation text ih =>
    show unescape ('\\' :: '#' :: '\x7b' :: (escape text ++ '\n' :: rest)) = _
    rw [unescape_escaped (by decide), unescape_cons (by simp) (by simp), ih, Option.map_map,
      Option.map_map]
    rfl
  | delimiter text ih =>
    show unescape ('\\' :: '"' :: '\\' :: '"' :: '\\' :: '"' :: (escape text ++ '\n' :: rest)) = _
    rw [unescape_escaped (by decide), unescape_escaped (by decide), unescape_escaped (by decide), ih,
      Option.map_map, Option.map_map, Option.map_map]
    rfl
  | itself c text hitself ih =>
    -- The line feed is no brace, and escaping brings no brace about.
    have hinterpolation : c = '#' → ¬ ['\x7b'] <+: escape text ++ '\n' :: rest := by
      intro hc h
      refine hitself.noInterpolation hc (isPrefix_of_isPrefix_escape (by decide) ?_)
      cases hescape : escape text with
      | nil => simp [hescape] at h
      | cons d others =>
        rw [hescape] at h
        exact List.cons_prefix_cons.mpr ⟨(List.cons_prefix_cons.mp h).1, List.nil_prefix⟩
    rw [escape_cons hitself, List.cons_append, unescape_cons hitself.noBackslash hinterpolation, ih,
      Option.map_map]
    rfl

/-- The lines of a body denote the lines of the text. -/
theorem unescape_unlines_escape :
    ∀ ls : List (List Char), unescape (unlines (ls.map escape)) = some (unlines ls)
  | [] => rfl
  | l :: ls => by
    rw [List.map_cons, unlines_cons, unescape_escape_newline, unescape_unlines_escape ls, unlines_cons]
    rfl

/-! ## Lines of the body -/

/-- A character that means itself in a text means itself in the line that it is in. -/
theorem MeansItself.of_isPrefix {c : Char} {line rest : List Char} (h : MeansItself c rest)
    (hline : line <+: rest) : MeansItself c line :=
  ⟨h.noBackslash, fun hc hfront => h.noInterpolation hc (hfront.trans hline),
    fun hc hfront => h.noDelimiter hc (hfront.trans hline)⟩

theorem map_escape_growLine {c : Char} {rest : List Char} (h : MeansItself c rest) :
    (growLine c (lines rest)).map escape = growLine c ((lines rest).map escape) := by
  cases hlines : lines rest with
  | nil =>
    show [escape [c]] = [[c]]
    rw [escape_cons (h.of_isPrefix List.nil_prefix)]
    rfl
  | cons line others =>
    show escape (c :: line) :: others.map escape = (c :: escape line) :: others.map escape
    rw [escape_cons (h.of_isPrefix (isPrefix_of_lines hlines))]

/-- Where a piece is escaped without regard to what follows, it is so in the line that it is in, too. -/
theorem lines_escape_append {piece escaped : List Char} (hpiece : piece ≠ []) (hescaped : escaped ≠ [])
    (hplain : ∀ c ∈ piece ++ escaped, c ≠ '\n' ∧ c ≠ '\r')
    (hescape : ∀ rest, escape (piece ++ rest) = escaped ++ escape rest) {rest : List Char}
    (ih : lines (escape rest) = (lines rest).map escape) :
    lines (escape (piece ++ rest)) = (lines (piece ++ rest)).map escape := by
  rw [hescape, lines_append fun c hc => hplain c (List.mem_append_right _ hc),
    lines_append fun c hc => hplain c (List.mem_append_left _ hc), ih]
  cases lines rest with
  | nil =>
    -- The piece is the whole of the only line.
    have halone : escape piece = escaped := by
      have h := hescape []
      rwa [List.append_nil, escape, List.append_nil] at h
    rw [List.map_nil, foldr_growLine_nil hpiece, foldr_growLine_nil hescaped, ← halone]
    rfl
  | cons line others =>
    rw [List.map_cons, foldr_growLine_cons, foldr_growLine_cons, List.map_cons, hescape]

/-- Escaping goes on line by line. -/
theorem lines_escape (text : List Char) : lines (escape text) = (lines text).map escape := by
  induction text using escape_induction with
  | nil => rfl
  | backslash rest ih =>
    have hescape : ∀ rest, escape (['\\'] ++ rest) = ['\\', '\\'] ++ escape rest := fun _ => rfl
    exact lines_escape_append (by simp) (by simp) (by simp) hescape ih
  | interpolation rest ih =>
    have hescape : ∀ rest, escape (interpolation ++ rest) = '\\' :: interpolation ++ escape rest :=
      fun _ => rfl
    exact lines_escape_append (by decide) (by decide) (by simp [interpolation]) hescape ih
  | delimiter rest ih =>
    have hescape : ∀ rest, escape (delimiter ++ rest)
        = ['\\', '"', '\\', '"', '\\', '"'] ++ escape rest := fun _ => rfl
    exact lines_escape_append (by decide) (by decide) (by simp [delimiter]) hescape ih
  | itself c rest hitself ih =>
    rw [escape_cons hitself]
    by_cases hfeed : c = '\n'
    · subst hfeed
      rw [lines_newline, lines_newline, ih]
      rfl
    by_cases hreturn : c = '\r' ∧ ['\n'] <+: rest
    · -- The line ends with two characters, both of which mean themselves.
      obtain ⟨rfl, others, rfl⟩ := hreturn
      have hescape : escape ('\n' :: others) = '\n' :: escape others :=
        escape_cons ⟨by decide, by simp, by simp⟩
      rw [List.singleton_append, hescape, lines_newline, lines_newline] at ih
      rw [List.singleton_append, hescape, lines_return_newline, lines_return_newline]
      exact ih
    · have hrest : c = '\r' → ¬ ['\n'] <+: rest := fun hc h => hreturn ⟨hc, h⟩
      rw [lines_cons hfeed hrest, map_escape_growLine hitself, ← ih, lines_cons hfeed]
      exact fun hc h => hrest hc (isPrefix_of_isPrefix_escape (by decide) h)

/-- No line of the body starts like a delimiter, whatever it is indented by. -/
theorem not_startsDelimiter_escape (text : List Char) : startsDelimiter (escape text) = false := by
  induction text using escape_induction with
  | nil => rfl
  | backslash rest ih => rfl
  | interpolation rest ih => rfl
  | delimiter rest ih => rfl
  | itself c rest hitself ih =>
    rw [escape_cons hitself]
    unfold startsDelimiter at ih ⊢
    -- A character of the indentation is passed over; any other one comes first on the line.
    by_cases hc : isIndent c = true
    · rw [List.dropWhile_cons_of_pos hc]
      exact ih
    · rw [List.dropWhile_cons_of_neg hc, Bool.eq_false_iff, ne_eq, List.isPrefixOf_iff_prefix]
      intro h
      obtain ⟨hquote, hrest⟩ := List.cons_prefix_cons.mp h
      exact hitself.noDelimiter hquote.symm (isPrefix_of_isPrefix_escape (by decide) hrest)

end QueryModule.Elixir
