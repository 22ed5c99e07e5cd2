import QueryModule.Proofs.Graphql.Placement
import QueryModule.Proofs.Graphql.PrintedDirectives

/-!
# Selections that have been written

Each selection is written on lines of its own, and a parser sees from the first character of the next
one that the last one is over: neither a name nor three dots go on with arguments, with a directive,
with a selection set or with a name for a key. That is what has to follow a selection (`Ends`), and
every selection and every closing brace begins like that.

> `reads_selectionSet`: a selection set whose values survive is read back from what is written, up to
> the positions of its spreads.
-/

namespace QueryModule.Graphql

open QueryModule.Graphql.Parser

section

variable {room n : Nat}

/-- The values in the selection survive. -/
inductive Selection.Survives : Selection → Prop
  | field {key : Option String} {name : String} {arguments : Arguments} {directives : List Directive}
      {selections : List Selection} (harguments : ArgumentsSurvive arguments)
      (hdirectives : DirectivesSurvive directives) (hselections : ∀ s ∈ selections, Survives s) :
      Survives (.field key name arguments directives selections)
  | spread {position : Position} {name : String} {directives : List Directive}
      (hdirectives : DirectivesSurvive directives) : Survives (.spread position name directives)
  | inline {onType : Option String} {directives : List Directive} {selections : List Selection}
      (hdirectives : DirectivesSurvive directives) (hselections : ∀ s ∈ selections, Survives s) :
      Survives (.inline onType directives selections)

/-- The text does not go on with a selection. -/
abbrev Ends : List Char → Prop := Follows [':', '(', '@', '\x7b']

/-! ## Texts -/

theorem isSkipped_of_mem_replicate (indent : Nat) : ∀ c ∈ List.replicate indent ' ', isSkipped c = true := by
  intro c hc
  rw [List.eq_of_mem_replicate hc]
  rfl

/-- Selections are written one behind the other. -/
theorem toList_printSelections (indent : Nat) (selections : List Selection) :
    (printSelections indent selections).toList = selections.flatMap fun s => (s.print indent).toList := by
  induction selections with
  | nil => rfl
  | cons s rest ih => rw [printSelections, String.toList_append, ih, List.flatMap_cons]

/-- A selection set as it is written on a line with some indentation, up to its closing brace. -/
def bodyText (indent : Nat) (selections : List Selection) : List Char :=
  ['\x7b'] ++ (['\n'] ++ ((selections.flatMap fun s => (s.print (indent + indentStep)).toList)
    ++ (List.replicate indent ' ' ++ ['\x7d'])))

/-- A selection set in braces ends its line. -/
theorem toList_braced (indent : Nat) (selections : List Selection) :
    (braced indent (printSelections (indent + indentStep) selections)).toList
      = bodyText indent selections ++ ['\n'] := by
  unfold braced bodyText
  simp only [String.toList_append, toList_spaces, toList_printSelections, List.append_assoc]
  rfl

/-- What a field ends with: its selection set, if it has one. -/
def nestedText (indent : Nat) (selections : List Selection) : List Char :=
  if selections.isEmpty then [] else [' '] ++ bodyText indent selections

/-- The key of a field that has one. -/
def keyText : Option String → List Char
  | some key => key.toList ++ ([':'] ++ [' '])
  | none => []

/-- The type of an inline fragment that has one. -/
def onText : Option String → List Char
  | some type => [' '] ++ ("on".toList ++ ([' '] ++ type.toList))
  | none => []

/-- A field as it is written: its key, name, arguments, directives and selection set on an indented
line. -/
theorem toList_field (indent : Nat) (key : Option String) (name : String) (args : Arguments)
    (dirs : List Directive) (selections : List Selection) :
    ((Selection.field key name args dirs selections).print indent).toList
      = List.replicate indent ' ' ++ (keyText key ++ (name.toList ++ ((printArguments indent args).toList
          ++ ((printDirectives indent dirs).toList ++ nestedText indent selections)))) ++ ['\n'] := by
  have hnested : (if selections.isEmpty then "\n"
      else " " ++ braced indent (printSelections (indent + indentStep) selections)).toList
      = nestedText indent selections ++ ['\n'] := by
    unfold nestedText
    split
    · rfl
    · rw [String.toList_append, toList_braced, List.append_assoc]
      rfl
  cases key with
  | some key =>
    rw [Selection.print]
    simp only [String.toList_append, toList_spaces, hnested, keyText, List.append_assoc]
    rfl
  | none =>
    rw [Selection.print]
    simp only [String.toList_append, toList_spaces, hnested, keyText, List.append_assoc]
    rfl

theorem toList_spread (indent : Nat) (position : Position) (name : String) (dirs : List Directive) :
    ((Selection.spread position name dirs).print indent).toList
      = List.replicate indent ' '
          ++ (['.', '.', '.'] ++ (name.toList ++ (printDirectives indent dirs).toList)) ++ ['\n'] := by
  rw [Selection.print]
  simp only [String.toList_append, toList_spaces, List.append_assoc]
  rfl

/-- An inline fragment as it is written. -/
theorem toList_inline (indent : Nat) (onType : Option String) (dirs : List Directive)
    (selections : List Selection) :
    ((Selection.inline onType dirs selections).print indent).toList
      = List.replicate indent ' ' ++ (['.', '.', '.'] ++ (onText onType
          ++ ((printDirectives indent dirs).toList ++ ([' '] ++ bodyText indent selections)))) ++ ['\n'] := by
  cases onType with
  | some type =>
    rw [Selection.print]
    simp only [String.toList_append, toList_spaces, toList_braced, onText, List.append_assoc]
    rfl
  | none =>
    rw [Selection.print]
    simp only [String.toList_append, toList_spaces, toList_braced, onText, List.append_assoc]
    rfl

/-! ## What follows what -/

/-- A closing brace ends a selection. -/
theorem ends_of_closesWith {rest : List Char} (h : ClosesWith '\x7d' rest) : Ends rest := by
  refine ⟨h.ends, fun c hc => ?_⟩
  obtain rfl : '\x7d' = c := Option.some.inj (h.front.symm.trans hc)
  decide

/-- A line feed does not change what the text avoids. -/
theorem follows_lineFeed {avoided rest : List Char} (h : Follows avoided rest) :
    Follows avoided (['\n'] ++ rest) := follows_blank (by decide) (by decide) h.avoids

/-- A selection set, or the end of the field, does not go on with what a field can have in front of one. -/
theorem follows_nested {rest : List Char} (h : Ends rest) (indent : Nat) (selections : List Selection) :
    Follows [':', '(', '@'] (nestedText indent selections ++ rest) := by
  unfold nestedText
  split
  · exact h.mono (by simp)
  · refine follows_space fun x hx => ?_
    obtain rfl : '\x7b' = x := Option.some.inj hx
    decide

/-- A field starts with a name, with or without a key. -/
theorem front_field {key : Option String} {name : String} (hkey : ∀ k ∈ key, IsName k.toList)
    (hname : IsName name.toList) (more : List Char) :
    ∃ x, front (keyText key ++ (name.toList ++ more)) = some x ∧ x ≠ '#' ∧ isPunctuator x = false ∧ x ≠ '.' := by
  cases key with
  | some key =>
    obtain ⟨x, hx, hplain⟩ := front_of_isName (hkey key rfl)
    exact ⟨x, front_append (front_append hx _) _, hplain⟩
  | none =>
    obtain ⟨x, hx, hplain⟩ := front_of_isName hname
    exact ⟨x, front_append hx _, hplain⟩

/-- A selection starts with white space, and then with a name or with three dots. -/
theorem print_of_fits {s : Selection} (h : s.Fits room) (indent : Nat) :
    ∃ text x, (s.print indent).toList = List.replicate indent ' ' ++ text ++ ['\n'] ∧ front text = some x ∧
      x ∉ ['#', ':', '(', '@', '\x7b', '\x7d'] := by
  have hmarks : ∀ b ∈ [':', '(', '@', '\x7b', '\x7d'], isPunctuator b = true := forall_mem_of_all (by decide)
  cases h with
  | leaf hkey hname =>
    obtain ⟨x, hx, hcomment, hplain, -⟩ := front_field hkey hname _
    exact ⟨_, x, toList_field .., hx, not_mem_of_not_isPunctuator hmarks hcomment hplain⟩
  | field hkey hname =>
    obtain ⟨x, hx, hcomment, hplain, -⟩ := front_field hkey hname _
    exact ⟨_, x, toList_field .., hx, not_mem_of_not_isPunctuator hmarks hcomment hplain⟩
  | spread => exact ⟨_, '.', toList_spread .., rfl, by decide⟩
  | inline => exact ⟨_, '.', toList_inline .., rfl, by decide⟩

/-- A selection starts visibly, and with nothing that would belong to what stands in front of it. -/
theorem front_selection {s : Selection} (h : s.Fits room) (indent : Nat) :
    ∃ x, front (s.print indent).toList = some x ∧ x ∉ ['#', ':', '(', '@', '\x7b', '\x7d'] := by
  obtain ⟨text, x, htext, hx, hmem⟩ := print_of_fits h indent
  refine ⟨x, ?_, hmem⟩
  rw [htext, List.append_assoc, front_blank_append (isSkipped_of_mem_replicate indent), front_append hx]

/-- So a selection is no white space. -/
theorem front_selection_ne_none {s : Selection} (h : s.Fits room) (indent : Nat) :
    front (s.print indent).toList ≠ none := by
  obtain ⟨x, hx, -⟩ := front_selection h indent
  simp [hx]

/-- A selection does not begin like what ends a selection set. -/
theorem not_startsWith_brace {s : Selection} (h : s.Fits room) (indent n : Nat) (position : Position)
    (rest : List Char) :
    (tokensFrom position n ((s.print indent).toList ++ rest)).startsWith "\x7d" = false := by
  obtain ⟨x, hx, hmem⟩ := front_selection h indent
  refine not_startsWith (p := '\x7d') rfl (fun y hy => ?_) position n
  rw [front_append hx] at hy
  obtain rfl := Option.mem_some.mp hy
  exact ⟨fun h => hmem (by simp [h]), fun h => hmem (by simp [h])⟩

/-- An indented selection ends the one in front of it. -/
theorem ends_selection {s : Selection} (h : s.Fits room) {indent : Nat} (hindent : 0 < indent)
    (rest : List Char) : Ends ((s.print indent).toList ++ rest) := by
  obtain ⟨text, x, htext, hx, hmem⟩ := print_of_fits h indent
  obtain ⟨indent, rfl⟩ : ∃ k, indent = k + 1 := ⟨indent - 1, by omega⟩
  rw [htext, List.replicate_succ, List.append_assoc, List.append_assoc, List.cons_append]
  refine follows_space fun y hy => ?_
  rw [front_blank_append (isSkipped_of_mem_replicate indent), front_append hx] at hy
  rw [← Option.mem_some.mp hy]
  exact fun hx => hmem (List.mem_of_mem_dropLast hx)

/-- The closing brace of a selection set. -/
theorem closesWith_brace (indent : Nat) (rest : List Char) :
    ClosesWith '\x7d' (List.replicate indent ' ' ++ ['\x7d'] ++ rest) := by
  refine ⟨?_, ?_⟩
  · cases indent with
    | zero => exact endsToken_cons (by decide) _
    | succ indent => exact endsToken_space _
  · rw [List.append_assoc, front_blank_append (isSkipped_of_mem_replicate indent)]
    exact front_cons (by decide) _

/-- The selections behind one end it, and so does the closing brace when there is none. -/
theorem ends_selections {selections : List Selection} (h : ∀ s ∈ selections, s.Fits room) {indent : Nat}
    (hindent : 0 < indent) {rest : List Char} (hrest : ClosesWith '\x7d' rest) :
    Ends ((selections.flatMap fun s => (s.print indent).toList) ++ rest) := by
  cases selections with
  | nil => exact ends_of_closesWith hrest
  | cons s others =>
    rw [List.flatMap_cons, List.append_assoc]
    exact ends_selection (h s (List.mem_cons_self ..)) hindent _

/-! ## Selection sets -/

theorem unplacedSelections_eq_map (selections : List Selection) :
    unplacedSelections selections = selections.map Selection.unplaced := by
  induction selections with
  | nil => rfl
  | cons s rest ih => rw [unplacedSelections, ih, List.map_cons]

/-- Selections that are read one by one are read up to the closing brace of their set. -/
theorem reads_selections {nested : Parser (List Selection)} {indent : Nat} {selections : List Selection}
    (hindent : 0 < indent) (hfits : ∀ s ∈ selections, s.Fits room)
    (h : ∀ s ∈ selections, (selection nested).Reads (s.print indent).toList n n Ends
      fun t => t.unplaced = s.unplaced) :
    Parser.Reads (selections.flatMap fun s => (s.print indent).toList) n n (ClosesWith '\x7d')
      (fun ts => ts.map Selection.unplaced = selections.map Selection.unplaced)
      (repeatUntil (·.startsWith "\x7d") (selection nested)) := by
  refine reads_repeatUntil h (fun s hs => front_selection_ne_none (hfits s hs) indent)
    (fun s hs position rest t more htokens => ?_)
    (fun s hs rest => ends_selection (hfits s hs) hindent rest)
    (fun rest hrest => ends_of_closesWith hrest)
    fun position rest hrest => Brackets.curly.startsWith_closer hrest position
  rw [← htokens]
  exact not_startsWith_brace (hfits s hs) indent n position rest

/-- A selection set is read from its text, if its selections are. -/
theorem reads_body {levels indent : Nat} {selections : List Selection} (hne : selections ≠ [])
    (hn : n < maxNesting) (hfits : ∀ s ∈ selections, s.Fits room)
    (h : ∀ s ∈ selections, (selection (selectionSet levels)).Reads (s.print (indent + indentStep)).toList
      (n + 1) (n + 1) Ends fun t => t.unplaced = s.unplaced) {F : List Char → Prop} :
    (selectionSet (levels + 1)).Reads (bodyText indent selections) n n F
      fun ts => ts.map Selection.unplaced = selections.map Selection.unplaced := by
  -- The selections stand on indented lines, so that each ends the one in front of it.
  have hindent : 0 < indent + indentStep := by
    unfold indentStep
    omega
  obtain ⟨s, others, rfl⟩ := List.exists_cons_of_ne_nil hne
  obtain ⟨hs, hothers⟩ := List.forall_mem_cons.mp h
  obtain ⟨hfit, hfitothers⟩ := List.forall_mem_cons.mp hfits
  -- The first selection is required, the others are a repetition.
  have htext : bodyText indent (s :: others) = ['\x7b'] ++ ((['\n'] ++ (s.print (indent + indentStep)).toList)
      ++ ((others.flatMap fun s => (s.print (indent + indentStep)).toList)
        ++ (List.replicate indent ' ' ++ ['\x7d']))) := by
    unfold bodyText
    rw [List.flatMap_cons]
    simp only [List.append_assoc]
  rw [htext, selectionSet]
  refine Reads.required ?_ (by rw [List.singleton_append, front_cons (by decide)]; simp)
  refine (Brackets.curly.reads_opener (F := fun _ => True) hn).bind (fun _ _ => trivial) fun _ _ => ?_
  have hfirst := (hs.required (front_selection_ne_none hfit _)).blank isSkipped_lineFeed
  refine hfirst.bind (fun rest _ => ?_) fun t ht => ?_
  · rw [List.append_assoc]
    exact ends_selections hfitothers hindent (closesWith_brace indent _)
  refine (reads_selections hindent hfitothers hothers).bind (fun rest _ => closesWith_brace indent rest)
    fun ts hts => ?_
  refine Reads.bind_pure (Q := fun _ => True) ?_ fun _ _ => by rw [List.map_cons, List.map_cons, ht, hts]
  exact Brackets.curly.reads_closer.blank (isSkipped_of_mem_replicate indent)

/-- A selection set is seen by its brace. -/
theorem startsWith_body (hroom : n < maxNesting) (indent : Nat) (selections : List Selection)
    (position : Position) (rest : List Char) :
    (tokensFrom position n ([' '] ++ bodyText indent selections ++ rest)).startsWith "\x7b" = true := by
  obtain ⟨after, hafter⟩ := tokensFrom_blank isSkipped_space position n (bodyText indent selections ++ rest)
  rw [List.append_assoc, hafter]
  exact Brackets.curly.startsWith_opener hroom after _

/-- A brace does not belong to the arguments or the directives in front of it. -/
theorem follows_body (indent : Nat) (selections : List Selection) (rest : List Char) :
    Follows ['(', '@'] ([' '] ++ bodyText indent selections ++ rest) := by
  refine follows_space fun x hx => ?_
  obtain rfl : '\x7b' = x := Option.some.inj hx
  decide

/-- A selection set starts with a punctuator, and so do the directives in front of it. -/
theorem front_directives_body (indent : Nat) (dirs : List Directive) (selections : List Selection) :
    ∃ c, front ((printDirectives indent dirs).toList ++ ([' '] ++ bodyText indent selections)) = some c ∧
      c ≠ '#' ∧ isPunctuator c = true := by
  rw [toList_printDirectives]
  cases dirs with
  | nil => exact ⟨'\x7b', rfl, by decide, by decide⟩
  | cons d dirs =>
    rw [List.flatMap_cons, toList_directive]
    exact ⟨'@', rfl, by decide, by decide⟩

/-- The indentation in front of a selection and the line feed behind it. -/
theorem reads_line {p : Parser Selection} {text : List Char} {Q : Selection → Prop}
    (h : p.Reads text n n Ends Q) (indent : Nat) :
    p.Reads (List.replicate indent ' ' ++ text ++ ['\n']) n n Ends Q := by
  refine Reads.trailing isSkipped_lineFeed (fun _ hrest => follows_lineFeed hrest) ?_
  exact h.blank (isSkipped_of_mem_replicate indent)

/-! ## Fields -/

section

variable {nested : Parser (List Selection)} {indent : Nat} {selections : List Selection} {args : Arguments}
  {dirs : List Directive}

/-- What a field has behind its name. -/
theorem reads_fieldRest (key : Option String) (name : String) (hargs : ArgumentsFit room args)
    (hargsSurvive : ArgumentsSurvive args) (hdirs : DirectivesFit room dirs)
    (hdirsSurvive : DirectivesSurvive dirs) (hn : n + room ≤ maxNesting)
    (hnested : selections ≠ [] → n < maxNesting ∧
      nested.Reads (bodyText indent selections) n n Ends
        fun ts => ts.map Selection.unplaced = selections.map Selection.unplaced) :
    Parser.Reads ((printArguments indent args).toList ++ ((printDirectives indent dirs).toList
        ++ nestedText indent selections)) n n Ends
      (fun t => t.unplaced = (Selection.field key name args dirs selections).unplaced) do
        let args ← arguments
        let dirs ← directives
        let inner ← do
          if ← looking (·.startsWith "\x7b") then nested else pure []
        return Selection.field key name args dirs inner := by
  refine (reads_arguments hargs hargsSurvive hn indent).bind (fun rest hrest => ?_) fun as has => ?_
  · -- Arguments that are left out do not take the brackets of anything else.
    have hfollows : Follows ['('] (nestedText indent selections ++ rest) :=
      (follows_nested hrest indent selections).mono (by simp)
    rw [List.append_assoc]
    exact follows_directives hfollows (by simp) indent dirs
  refine (reads_directives hdirs hdirsSurvive hn indent).bind (fun rest hrest => ?_) fun ds hds => ?_
  · exact (follows_nested hrest indent selections).mono (by simp)
  rw [has, hds]
  unfold nestedText
  cases hselections : selections.isEmpty with
  | true =>
    -- Without a selection set, none may seem to begin.
    obtain rfl := List.isEmpty_iff.mp hselections
    refine reads_looking false (fun position rest hrest => ?_) ?_
    · refine not_startsWith (p := '\x7b') rfl ?_ position n
      exact not_mem_of_avoids hrest (by simp)
    · exact reads_pure rfl
  | false =>
    -- With one, it is seen by its brace and read on the level below.
    obtain ⟨hroom, hread⟩ := hnested fun hnil => absurd hselections (by simp [hnil])
    refine reads_looking true (fun position rest hrest => ?_) ?_
    · rw [if_neg (by decide)]
      exact startsWith_body hroom indent selections position rest
    · refine Reads.space (hread.bind_pure fun ts hts => ?_)
      rw [Selection.unplaced, Selection.unplaced, unplacedSelections_eq_map, unplacedSelections_eq_map, hts]

/-- A field is read back when what it selects is. -/
theorem reads_field {key : Option String} {name : String} (hkey : ∀ k ∈ key, IsName k.toList)
    (hname : IsName name.toList) (hargs : ArgumentsFit room args)
    (hargsSurvive : ArgumentsSurvive args) (hdirs : DirectivesFit room dirs)
    (hdirsSurvive : DirectivesSurvive dirs) (hn : n + room ≤ maxNesting)
    (hnested : selections ≠ [] → n < maxNesting ∧
      nested.Reads (bodyText indent selections) n n Ends
        fun ts => ts.map Selection.unplaced = selections.map Selection.unplaced) :
    (selection nested).Reads ((Selection.field key name args dirs selections).print indent).toList n n Ends
      fun t => t.unplaced = (Selection.field key name args dirs selections).unplaced := by
  have hrest := fun key => reads_fieldRest key name hargs hargsSurvive hdirs hdirsSurvive hn hnested
  -- What comes behind the name is no colon, which would make the name a key.
  have hfollows : ∀ rest, Ends rest → Follows [':'] ((printArguments indent args).toList
      ++ ((printDirectives indent dirs).toList ++ nestedText indent selections) ++ rest) := by
    intro rest hrest
    have hfollows : Follows [':'] (nestedText indent selections ++ rest) :=
      (follows_nested hrest indent selections).mono (by simp)
    rw [List.append_assoc, List.append_assoc]
    exact follows_arguments (follows_directives hfollows (by decide) indent dirs) (by decide) indent args
  rw [toList_field]
  refine reads_line ?_ indent
  unfold selection
  refine reads_withoutPunctuator (p := '.') rfl (fun rest _ c hc => ?_) ?_
  · -- A field does not start with three dots.
    obtain ⟨x, hx, hcomment, -, hdot⟩ := front_field hkey hname _
    rw [front_append hx] at hc
    obtain rfl := Option.mem_some.mp hc
    exact ⟨hdot, hcomment⟩
  unfold field keyText
  cases key with
  | none =>
    refine (reads_name hname).bind (fun rest hrest => (hfollows rest hrest).ends) fun first hfirst => ?_
    rw [hfirst]
    refine Sign.colon.reads_without (fun rest hends => ?_) (hrest none)
    exact not_mem_of_avoids (hfollows rest hends) (by simp)
  | some key =>
    rw [List.append_assoc, List.append_assoc]
    refine (reads_name (hkey key rfl)).bind (fun rest _ => endsToken_cons (by decide) _) fun first hfirst => ?_
    rw [hfirst]
    refine Sign.colon.reads_optional (Reads.space ?_)
    refine (reads_name hname).bind (fun rest hrest => (hfollows rest hrest).ends) fun second hsecond => ?_
    rw [hsecond]
    exact hrest (some key)

/-! ## Spreads and inline fragments -/

theorem isName_on : IsName "on".toList := ⟨'o', _, rfl, by decide, forall_mem_of_all (by decide)⟩

/-- In front of a name its token comes next. -/
theorem tokensFrom_name {name : String} (h : IsName name.toList) {rest : List Char} (hrest : EndsToken rest)
    (position : Position) (n : Nat) :
    ∃ more, tokensFrom position n (name.toList ++ rest) = .next ⟨.name, name, position⟩ more := by
  obtain ⟨c, more, heq, htext, hlexeme, hc⟩ := exists_lexeme_of_isName h
  obtain ⟨hopener, -⟩ := nestingAfter_of_not_isPunctuator hc n
  rw [heq, List.cons_append, tokensFrom_lexeme hlexeme (fun ho => absurd ho (by simp [hopener])) hrest, htext]
  exact ⟨_, rfl⟩

/-- So one sees whether it is a given word. -/
theorem startsWithName_of_isName {name : String} (h : IsName name.toList) {rest : List Char}
    (hrest : EndsToken rest) (position : Position) (n : Nat) (word : String) :
    (tokensFrom position n (name.toList ++ rest)).startsWithName word = decide (name = word) := by
  obtain ⟨more, hmore⟩ := tokensFrom_name h hrest position n
  rw [hmore]
  simp [Tokens.startsWithName]

/-- Where a punctuator comes next, no name does. -/
theorem not_startsWithName {source : List Char} {c : Char} (hfront : front source = some c)
    (hcomment : c ≠ '#') (hc : isPunctuator c = true) (position : Position) (n : Nat) (word : String) :
    (tokensFrom position n source).startsWithName word = false := by
  cases htokens : tokensFrom position n source with
  | finished => rfl
  | broken => rfl
  | next t rest =>
    obtain ⟨-, hkind⟩ := token_of_front hfront hcomment htokens
    simp [Tokens.startsWithName, hkind hc]

/-- A spread is read back; a fragment named `on` would be taken for a type condition. -/
theorem reads_spread {name : String} (position : Position) (hname : IsName name.toList) (hon : name ≠ "on")
    (hdirs : DirectivesFit room dirs) (hdirsSurvive : DirectivesSurvive dirs) (hn : n + room ≤ maxNesting) :
    (selection nested).Reads ((Selection.spread position name dirs).print indent).toList n n Ends
      fun t => t.unplaced = (Selection.spread position name dirs).unplaced := by
  obtain ⟨c, hc, hcomment, hplain, -⟩ := front_of_isName hname
  have hends : ∀ rest, Ends rest → EndsToken ((printDirectives indent dirs).toList ++ rest) := by
    intro rest hrest
    have hfollows : Follows [] rest := hrest.mono (by simp)
    exact (follows_directives hfollows (by simp) indent dirs).ends
  rw [toList_spread]
  refine reads_line ?_ indent
  unfold selection
  refine reads_optionalPunctuator isLexeme_dots rfl (fun ho => absurd ho (by decide)) rfl ?_
  show (afterDots nested).Reads _ n n Ends _
  unfold afterDots
  refine Reads.required ?_ (by simp [front_append hc])
  -- The three dots are followed by a name other than `on`, so this is no inline fragment.
  refine reads_looking false (fun position rest hrest => ?_) ?_
  · have hfront := front_append (front_append hc (printDirectives indent dirs).toList) rest
    rw [not_startsWith_of_plain hfront hcomment hplain (p := '@') rfl Sign.atSign.punctuates,
      not_startsWith_of_plain hfront hcomment hplain Brackets.curly.head_opener Brackets.curly.opener_punctuates,
      List.append_assoc, startsWithName_of_isName hname (hends rest hrest)]
    simp [hon]
  refine (reads_nameToken hname).bind hends fun t ht => ?_
  have hread := (reads_directives hdirs hdirsSurvive hn indent).before (G := Ends) fun rest hrest =>
    hrest.mono (by simp)
  refine hread.bind_pure fun ds hds => ?_
  rw [hds, ht.2]
  rfl

/-- The directives and the selection set of an inline fragment. -/
theorem reads_inlineRest (onType : Option String) (hdirs : DirectivesFit room dirs)
    (hdirsSurvive : DirectivesSurvive dirs) (hn : n + room ≤ maxNesting)
    (hnested : nested.Reads (bodyText indent selections) n n Ends
      fun ts => ts.map Selection.unplaced = selections.map Selection.unplaced) :
    Parser.Reads ((printDirectives indent dirs).toList ++ ([' '] ++ bodyText indent selections)) n n Ends
      (fun t => t.unplaced = (Selection.inline onType dirs selections).unplaced) do
        return Selection.inline onType (← directives) (← nested) := by
  refine (reads_directives hdirs hdirsSurvive hn indent).bind (fun rest _ => follows_body indent selections rest)
    fun ds hds => ?_
  refine Reads.space (hnested.bind_pure fun ts hts => ?_)
  rw [hds, Selection.unplaced, Selection.unplaced, unplacedSelections_eq_map, unplacedSelections_eq_map, hts]

/-- Without a type, an inline fragment goes on with a directive or with its selection set. -/
theorem reads_untyped (hdirs : DirectivesFit room dirs) (hdirsSurvive : DirectivesSurvive dirs)
    (hn : n + room ≤ maxNesting) (hroom : n < maxNesting)
    (hnested : nested.Reads (bodyText indent selections) n n Ends
      fun ts => ts.map Selection.unplaced = selections.map Selection.unplaced) :
    (afterDots nested).Reads ((printDirectives indent dirs).toList ++ ([' '] ++ bodyText indent selections))
      n n Ends fun t => t.unplaced = (Selection.inline none dirs selections).unplaced := by
  -- The next token is a punctuator, and it is one of the two.
  have hstarts : ∀ position rest, ((tokensFrom position n ((printDirectives indent dirs).toList
      ++ ([' '] ++ bodyText indent selections) ++ rest)).startsWith "@"
      || (tokensFrom position n ((printDirectives indent dirs).toList
        ++ ([' '] ++ bodyText indent selections) ++ rest)).startsWith "\x7b") = true := by
    intro position rest
    rw [toList_printDirectives]
    cases dirs with
    | nil =>
      rw [List.flatMap_nil, List.nil_append, startsWith_body hroom, Bool.or_true]
    | cons d dirs =>
      rw [List.flatMap_cons, List.append_assoc, List.append_assoc, startsWith_at, Bool.true_or]
  obtain ⟨c, hc, hcomment, hpunctuator⟩ := front_directives_body indent dirs selections
  have hname : ∀ position rest, (tokensFrom position n ((printDirectives indent dirs).toList
      ++ ([' '] ++ bodyText indent selections) ++ rest)).startsWithName "on" = false :=
    fun position rest => not_startsWithName (front_append hc rest) hcomment hpunctuator position n "on"
  unfold afterDots
  refine Reads.required ?_ (by rw [hc]; simp)
  refine reads_looking true (fun position rest _ => ?_) ?_
  · rw [hname, Bool.false_or, hstarts]
  refine reads_looking false (fun position rest _ => hname position rest) ?_
  exact reads_inlineRest none hdirs hdirsSurvive hn hnested

/-- An inline fragment with a type goes on with `on` and the name of the type. -/
theorem reads_typed {type : String} (htype : IsName type.toList) (hdirs : DirectivesFit room dirs)
    (hdirsSurvive : DirectivesSurvive dirs) (hn : n + room ≤ maxNesting)
    (hnested : nested.Reads (bodyText indent selections) n n Ends
      fun ts => ts.map Selection.unplaced = selections.map Selection.unplaced) :
    (afterDots nested).Reads (onText (some type) ++ ((printDirectives indent dirs).toList
        ++ ([' '] ++ bodyText indent selections))) n n Ends
      fun t => t.unplaced = (Selection.inline (some type) dirs selections).unplaced := by
  unfold onText
  rw [List.append_assoc, List.append_assoc, List.append_assoc]
  refine Reads.space ?_
  -- The word `on` comes next. It is looked for twice: here there is an inline fragment, and it has a type.
  have hon : ∀ position rest, (tokensFrom position n ("on".toList ++ ([' '] ++ (type.toList
      ++ ((printDirectives indent dirs).toList ++ ([' '] ++ bodyText indent selections)))) ++ rest)).startsWithName
      "on" = true := by
    intro position rest
    rw [List.append_assoc]
    exact startsWithName_of_isName isName_on (endsToken_space _) position n "on"
  unfold afterDots
  refine Reads.required ?_ (by rw [front_append (show front "on".toList = some 'o' from rfl)]; simp)
  refine reads_looking true (fun position rest _ => ?_) ?_
  · rw [hon, Bool.true_or, Bool.true_or]
  refine reads_looking true (fun position rest _ => hon position rest) ?_
  refine (reads_keyword isName_on).bind (fun rest _ => endsToken_space _) fun _ _ => ?_
  refine Reads.space ?_
  refine (reads_name htype).bind (fun rest _ => ?_) fun name hname => ?_
  · have hfollows : Follows [] ([' '] ++ bodyText indent selections ++ rest) :=
      (follows_body indent selections rest).mono (by simp)
    rw [List.append_assoc]
    exact (follows_directives hfollows (by simp) indent dirs).ends
  rw [hname]
  exact reads_inlineRest (some type) hdirs hdirsSurvive hn hnested

/-- An inline fragment is read back when what it selects is. -/
theorem reads_inline {onType : Option String} (htype : ∀ t ∈ onType, IsName t.toList)
    (hdirs : DirectivesFit room dirs) (hdirsSurvive : DirectivesSurvive dirs) (hn : n + room ≤ maxNesting)
    (hroom : n < maxNesting)
    (hnested : nested.Reads (bodyText indent selections) n n Ends
      fun ts => ts.map Selection.unplaced = selections.map Selection.unplaced) :
    (selection nested).Reads ((Selection.inline onType dirs selections).print indent).toList n n Ends
      fun t => t.unplaced = (Selection.inline onType dirs selections).unplaced := by
  rw [toList_inline]
  refine reads_line ?_ indent
  unfold selection
  refine reads_optionalPunctuator isLexeme_dots rfl (fun ho => absurd ho (by decide)) rfl ?_
  cases onType with
  | some type => exact reads_typed (htype type rfl) hdirs hdirsSurvive hn hnested
  | none => exact reads_untyped hdirs hdirsSurvive hn hroom hnested

end

/-! ## Whole selections -/

/-- A selection that survives is read back from its text. -/
theorem reads_selection {s : Selection} (h : s.Fits room) (hs : s.Survives) {levels indent : Nat}
    (hn : n + room ≤ maxNesting) (hlevels : room ≤ levels) :
    (selection (selectionSet levels)).Reads (s.print indent).toList n n Ends
      fun t => t.unplaced = s.unplaced := by
  -- By induction on the room: what is selected is on the next level and has one bracket less to open.
  induction h generalizing n levels indent with
  | leaf hkey hname hargs hdirs =>
    cases hs with
    | field hargsSurvive hdirsSurvive =>
      exact reads_field hkey hname hargs hargsSurvive hdirs hdirsSurvive hn fun hne => absurd rfl hne
  | @field room key name args dirs selections hkey hname hargs hdirs hne hselections ih =>
    cases hs with
    | field hargsSurvive hdirsSurvive hsurvive =>
      obtain ⟨levels, rfl⟩ : ∃ l, levels = l + 1 := ⟨levels - 1, by omega⟩
      refine reads_field hkey hname hargs hargsSurvive hdirs hdirsSurvive hn fun hne => ⟨by omega, ?_⟩
      exact reads_body hne (by omega) hselections fun s hs => ih s hs (hsurvive s hs) (by omega) (by omega)
  | spread hname hon hdirs =>
    cases hs with
    | spread hdirsSurvive => exact reads_spread _ hname hon hdirs hdirsSurvive hn
  | @inline room onType dirs selections htype hdirs hne hselections ih =>
    cases hs with
    | inline hdirsSurvive hsurvive =>
      obtain ⟨levels, rfl⟩ : ∃ l, levels = l + 1 := ⟨levels - 1, by omega⟩
      refine reads_inline htype hdirs hdirsSurvive hn (by omega) ?_
      exact reads_body hne (by omega) hselections fun s hs => ih s hs (hsurvive s hs) (by omega) (by omega)

/-- A selection set whose selections survive is read back from its text. -/
theorem reads_selectionSet {selections : List Selection} (h : BodyFits room selections)
    (hs : ∀ s ∈ selections, s.Survives) {levels : Nat} (hn : n + room ≤ maxNesting) (hlevels : room ≤ levels)
    (indent : Nat) {F : List Char → Prop} :
    (selectionSet levels).Reads (bodyText indent selections) n n F
      fun ts => ts.map Selection.unplaced = selections.map Selection.unplaced := by
  obtain ⟨hne, r, rfl, hselections⟩ := h
  obtain ⟨levels, rfl⟩ : ∃ l, levels = l + 1 := ⟨levels - 1, by omega⟩
  exact reads_body hne (by omega) hselections fun s hmem =>
    reads_selection (hselections s hmem) (hs s hmem) (by omega) (by omega)

end

end QueryModule.Graphql
