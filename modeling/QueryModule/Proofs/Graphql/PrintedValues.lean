import QueryModule.Proofs.Graphql.Fitting
import QueryModule.Proofs.Graphql.Reading

/-!
# Values and types that have been written

A value is written in the notation that it is read from, and most values are read back as what they
were. Two kinds may not be: a text, when the form of string literal that is chosen for it loses
something of it, and a float, which is written without a point when it is whole. A value survives when
none of this is in it.

What follows a value is no matter, as long as it does not continue the last token and is no comment.
Brackets nest in the written value as deep as in the syntax tree, so that a tree that has been read
once has room for being read again.

> `reads_value`: a value that survives is read back from what is written.
>
> `reads_typeExpr`: so is every type.
-/

namespace QueryModule.Graphql

open QueryModule.Graphql.Parser

/-- The text is one that the form it is written in keeps. -/
def TextSurvives (text : String) : Prop :=
  if needsBlock text then SurvivesBlock text.toList else ∀ c ∈ text.toList, SurvivesQuotes c

/-- All texts and floats in the value are kept by the forms they are written in. -/
inductive Value.Survives : Value → Prop
  | variableRef {name : String} : Survives (.variableRef name)
  | int {n : Int} : Survives (.int n)
  | float {x : Decimal.Binary64} (hx : IsFraction x) : Survives (.float x)
  | string {text : String} (htext : TextSurvives text) : Survives (.string text)
  | boolean {b : Bool} : Survives (.boolean b)
  | null : Survives .null
  | enumerator {name : String} : Survives (.enumerator name)
  | list {items : List Value} (hitems : ∀ v ∈ items, Survives v) : Survives (.list items)
  | object {fields : List (String × Value)} (hfields : ∀ f ∈ fields, Survives f.2) :
      Survives (.object fields)

/-! ## Single values -/

section

variable {n : Nat} {constant : Bool}

/-- The value that a token is read as by itself. -/
def valueOfToken (t : Token) : Parser Value :=
  match t.kind with
  | .name => return .ofName t.text
  | .intValue => return .int (← intValue t)
  | .floatValue => return .float (← floatValue t)
  | _ => return .string (← stringValue t)

/-- What the first token does not decide is read from that token. -/
theorem reads_leaf {levels : Nat} {c : Char} {more : List Char} {kind : TokenKind} {v : Value}
    (h : IsLexeme c more kind EndsToken) (hc : isPunctuator c = false) (hkind : kind ≠ .punctuator)
    (hv : ∀ t : Token, t.kind = kind → t.text.toList = c :: more → valueOfToken t = pure v) :
    (value constant (levels + 1)).Reads (c :: more) n n (Follows []) fun w => w = v := by
  have hfront : front (c :: more) = some c := front_cons h.visible more
  -- No list, no object and no variable starts here.
  have hnot : ∀ {text : String} {p : Char}, text.toList.head? = some p → isPunctuator p = true →
      ∀ position rest, (tokensFrom position n (c :: more ++ rest)).startsWith text = false :=
    fun htext hp position rest =>
      not_startsWith_of_plain (front_append hfront rest) h.comment hc htext hp position n
  rw [value]
  refine Reads.required ?_ (by simp [hfront])
  refine reads_looking false (fun position rest _ =>
    hnot Brackets.square.head_opener Brackets.square.opener_punctuates position rest) ?_
  refine reads_looking false (fun position rest _ =>
    hnot Brackets.curly.head_opener Brackets.curly.opener_punctuates position rest) ?_
  refine reads_looking false (fun position rest _ => ?_) ?_
  · rw [hnot rfl Sign.dollar.punctuates position rest, Bool.and_false]
  rw [← List.append_nil (c :: more)]
  refine (reads_plainToken h hc fun _ => by simpa using hkind).bind (fun rest hrest => hrest.ends) fun t ht => ?_
  show (valueOfToken t).Reads [] n n (Follows []) fun w => w = v
  rw [hv t ht.1 (by rw [ht.2, String.toList_ofList])]
  exact reads_pure rfl

/-- A name is read as what it stands for. -/
theorem reads_nameLeaf {levels : Nat} {name : String} (h : IsName name.toList) :
    (value constant (levels + 1)).Reads name.toList n n (Follows []) fun w => w = .ofName name := by
  obtain ⟨c, more, heq, -, hlexeme, hc⟩ := exists_lexeme_of_isName h
  rw [heq]
  refine reads_leaf hlexeme hc (by decide) fun t hkind htext => ?_
  unfold valueOfToken
  rw [hkind, String.toList_inj.mp (htext.trans heq.symm)]

/-- A number is a token by itself. -/
theorem reads_number {levels : Nat} {text : List Char} {kind : TokenKind} {v : Value}
    (h : IsNumberText text kind) (hkind : kind ≠ .punctuator)
    (hv : ∀ t : Token, t.kind = kind → t.text.toList = text → valueOfToken t = pure v) :
    (value constant (levels + 1)).Reads text n n (Follows []) fun w => w = v := by
  obtain ⟨c, more, rfl, hstart⟩ := h.start
  exact reads_leaf (isLexeme_number h) (plain_of_isNumberChar hstart).2.2.1 hkind hv

/-- An integer of 64 bits is read back. -/
theorem reads_int {levels : Nat} {i : Int} (hlower : -2 ^ 63 ≤ i) (hupper : i < 2 ^ 63) :
    (value constant (levels + 1)).Reads (toString i).toList n n (Follows []) fun w => w = .int i := by
  refine reads_number (isNumberText_toString i) (by decide) fun t hkind htext => ?_
  have hrun : intValue t = pure i := by
    unfold intValue
    rw [htext, intOfText_toString hlower hupper]
  unfold valueOfToken
  rw [hkind]
  dsimp only
  rw [hrun]
  rfl

/-- So is a finite float that is not whole. -/
theorem reads_float {levels : Nat} {x : Decimal.Binary64} (hx : IsFloat x) (hfraction : IsFraction x) :
    (value constant (levels + 1)).Reads x.text.toList n n (Follows []) fun w => w = .float x := by
  refine reads_number (isNumberText_text hx hfraction) (by decide) fun t hkind htext => ?_
  have hrun : floatValue t = pure x := by
    unfold floatValue
    rw [htext, floatOfText_text hx hfraction]
  unfold valueOfToken
  rw [hkind]
  dsimp only
  rw [hrun]
  rfl

/-- A token of a block string is the text that its content denotes. -/
theorem stringValue_of_block {t : Token} {content : List Char} (hkind : t.kind = .blockString)
    (htext : t.text.toList = tripleMark ++ (content ++ tripleMark)) :
    stringValue t = pure (String.ofList (unindent content)) := by
  have hcontent : (t.text.toList.drop 3).take (t.text.toList.length - 2 * 3) = content := by
    rw [htext]
    show (content ++ tripleMark).take _ = content
    refine List.take_left' ?_
    simp only [List.length_append, tripleMark, List.length_cons, List.length_nil]
    omega
  unfold stringValue
  rw [if_pos hkind]
  dsimp only
  rw [hcontent]

/-- A token of a quoted string is its content without escapes. -/
theorem stringValue_of_quoted {t : Token} {content text : List Char} (hkind : t.kind = .stringValue)
    (htext : t.text.toList = '"' :: (content ++ ['"'])) (hcontent : unescape content = .ok text) :
    stringValue t = pure (String.ofList text) := by
  have hinner : (t.text.toList.drop 1).take (t.text.toList.length - 2 * 1) = content := by
    rw [htext]
    show (content ++ ['"']).take _ = content
    refine List.take_left' ?_
    simp only [List.length_append, List.length_cons, List.length_nil]
    omega
  unfold stringValue
  rw [if_neg (by rw [hkind]; decide)]
  dsimp only
  rw [hinner, hcontent]

/-- The value of a token of either kind is the string. -/
theorem valueOfToken_of_string {t : Token} {text : String}
    (hkind : t.kind = .blockString ∨ t.kind = .stringValue) (hrun : stringValue t = pure text) :
    valueOfToken t = pure (.string text) := by
  unfold valueOfToken
  rcases hkind with hkind | hkind
  all_goals
    rw [hkind]
    dsimp only
    rw [hrun]
    rfl

/-- A text that survives its form is read back. -/
theorem reads_string {levels : Nat} {text : String} (h : TextSurvives text) (indent : Nat) :
    (value constant (levels + 1)).Reads (stringLiteral indent text).toList n n (Follows [])
      fun w => w = .string text := by
  unfold TextSurvives at h
  unfold stringLiteral
  split at h
  next hblock =>
    rw [if_pos hblock, toList_blockString]
    have hlexeme := isLexeme_blockString indent text.toList
    refine reads_leaf ⟨hlexeme.visible, hlexeme.comment, fun rest _ => hlexeme.lexeme rest trivial⟩
      (by decide) (by decide) fun t hkind htext => valueOfToken_of_string (.inl hkind) ?_
    rw [stringValue_of_block hkind htext, unindent_content h, String.ofList_toList]
  next hblock =>
    rw [if_neg hblock, toList_quotedString, List.cons_append]
    refine reads_leaf (isLexeme_quotedString text.toList) (by decide) (by decide) fun t hkind htext =>
      valueOfToken_of_string (.inr hkind) ?_
    rw [stringValue_of_quoted hkind htext (unescape_content h), String.ofList_toList]

/-! ## Lists and objects -/

theorem printItems_eq (indent : Nat) (items : List Value) :
    printItems indent items = items.map (·.print indent) := by
  induction items with
  | nil => rfl
  | cons v items ih => rw [printItems, ih, List.map_cons]

theorem printFields_eq (indent : Nat) (fields : List (String × Value)) :
    printFields indent fields = fields.map fun f => f.1 ++ ": " ++ f.2.print indent := by
  induction fields with
  | nil => rfl
  | cons f fields ih => rw [printFields, ih, List.map_cons]

/-- A field or an argument as it is written. -/
def fieldText (indent : Nat) (f : String × Value) : List Char :=
  f.1.toList ++ ([':'] ++ ([' '] ++ (f.2.print indent).toList))

/-- Items are written with commas between them. -/
theorem toList_printItems (indent : Nat) (items : List Value) :
    (", ".intercalate (printItems indent items)).toList
      = [',', ' '].intercalate (items.map fun v => (v.print indent).toList) := by
  rw [String.toList_intercalate, printItems_eq, List.map_map]
  rfl

theorem toList_printFields (indent : Nat) (fields : List (String × Value)) :
    (", ".intercalate (printFields indent fields)).toList
      = [',', ' '].intercalate (fields.map (fieldText indent)) := by
  rw [String.toList_intercalate, printFields_eq, List.map_map]
  congr 1
  refine List.map_congr_left fun f _ => ?_
  simp [fieldText]

/-- A name starts like no comment and like no punctuator. -/
theorem front_of_isName {text : List Char} (h : IsName text) :
    ∃ c, front text = some c ∧ c ≠ '#' ∧ isPunctuator c = false ∧ c ≠ '.' := by
  obtain ⟨c, more, rfl, hstart, -⟩ := h
  obtain ⟨hvisible, hcomment, hpunctuator, hdot, -⟩ := plain_of_isNameChar (isNameChar_of_isNameStart hstart)
  exact ⟨c, front_cons hvisible more, hcomment, hpunctuator, hdot⟩

/-- A name does not start like a bracket. -/
theorem front_ne_of_isName {text : List Char} (h : IsName text) {b : Char} (hb : isPunctuator b = true) :
    ∃ x, front text = some x ∧ x ≠ b ∧ x ≠ '#' := by
  obtain ⟨x, hx, hcomment, hplain, -⟩ := front_of_isName h
  refine ⟨x, hx, ?_, hcomment⟩
  rintro rfl
  exact absurd hb (by simp [hplain])

/-- A field is read back if its value is. -/
theorem reads_labelled {item : Parser Value} {label : String} {v : Value} {indent : Nat}
    (hlabel : IsName label.toList)
    (h : item.Reads (v.print indent).toList n n (Follows []) fun w => w = v) :
    (labelled item).Reads (fieldText indent (label, v)) n n (Follows []) fun f => f = (label, v) := by
  unfold labelled fieldText
  refine (reads_name hlabel).bind (fun rest _ => endsToken_cons (by decide) _) fun l hl => ?_
  refine Sign.colon.reads_then (h.space.bind_pure fun w hw => ?_)
  rw [hl, hw]

/-- A field behind all others in order goes to the end. -/
theorem insertField_of_last {name : String} {v : Value} {object : List (String × Value)}
    (h : ∀ f ∈ object, f.1 < name) : insertField name v object = object ++ [(name, v)] := by
  induction object with
  | nil => rfl
  | cons f object ih =>
    have hf := h f (List.mem_cons_self ..)
    rw [insertField, if_neg (String.lt_asymm hf), if_neg (String.ne_of_lt hf).symm,
      ih fun g hg => h g (List.mem_cons_of_mem _ hg)]
    rfl

/-- Fields that are in order are put behind each other. -/
theorem objectOf_of_sorted {fields : List (String × Value)} (h : fields.Pairwise fun f g => f.1 < g.1) :
    objectOf fields = .object fields := by
  have hall : ∀ fields object : List (String × Value),
      (object ++ fields).Pairwise (fun f g => f.1 < g.1) →
      fields.foldl (fun object f => insertField f.1 f.2 object) object = object ++ fields := by
    intro fields
    induction fields with
    | nil => exact fun object _ => (List.append_nil object).symm
    | cons f fields ih =>
      intro object hsorted
      have hlast : ∀ g ∈ object, g.1 < f.1 := fun g hg =>
        (List.pairwise_append.mp hsorted).2.2 g hg f (List.mem_cons_self ..)
      rw [List.foldl_cons, insertField_of_last hlast, ih, List.append_assoc, List.singleton_append]
      rwa [List.append_assoc, List.singleton_append]
  exact congrArg Value.object (hall fields [] h)

/-- A number starts neither like a comment nor like a punctuator. -/
theorem front_of_isNumberText {text : List Char} {kind : TokenKind} (h : IsNumberText text kind) :
    ∃ c, front text = some c ∧ c ≠ '#' ∧ isPunctuator c = false := by
  obtain ⟨c, more, rfl, hc⟩ := h.start
  obtain ⟨hvisible, hcomment, hpunctuator, -⟩ := plain_of_isNumberChar hc
  exact ⟨c, front_cons hvisible more, hcomment, hpunctuator⟩

/-- What is no punctuator is none of some punctuators. -/
theorem not_mem_of_not_isPunctuator {c : Char} {marks : List Char}
    (hmarks : ∀ b ∈ marks, isPunctuator b = true) (hcomment : c ≠ '#') (hc : isPunctuator c = false) :
    c ∉ '#' :: marks := by
  intro hmem
  rcases List.mem_cons.mp hmem with rfl | hmem
  · exact hcomment rfl
  · rw [hmarks c hmem] at hc
    exact absurd hc (by decide)

/-- A value starts like the end of no list, and not like a comment. -/
theorem front_print {room : Nat} {v : Value} (h : v.Fits constant room) (hs : v.Survives) (indent : Nat) :
    ∃ x, front (v.print indent).toList = some x ∧ x ∉ ['#', ')', ']', '\x7d'] := by
  -- Closing brackets are punctuators, with which no name and no number starts.
  have hplain : ∀ {text : List Char}, (∃ c, front text = some c ∧ c ≠ '#' ∧ isPunctuator c = false) →
      ∃ x, front text = some x ∧ x ∉ ['#', ')', ']', '\x7d'] := by
    rintro text ⟨c, hc, hcomment, hpunctuator⟩
    exact ⟨c, hc, not_mem_of_not_isPunctuator (forall_mem_of_all (by decide)) hcomment hpunctuator⟩
  cases h with
  | variableRef _ hname => exact ⟨'$', by rw [Value.print, String.toList_append]; rfl, by decide⟩
  | int => exact hplain (front_of_isNumberText (isNumberText_toString _))
  | float hx =>
    cases hs with
    | float hfraction => exact hplain (front_of_isNumberText (isNumberText_text hx hfraction))
  | string =>
    refine ⟨'"', ?_, by decide⟩
    rw [Value.print, stringLiteral]
    split
    · rw [toList_blockString]
      rfl
    · rw [toList_quotedString]
      rfl
  | @boolean _ value =>
    cases value with
    | false => exact ⟨'f', by rw [Value.print]; rfl, by decide⟩
    | true => exact ⟨'t', by rw [Value.print]; rfl, by decide⟩
  | null => exact ⟨'n', by rw [Value.print]; rfl, by decide⟩
  | enumerator hname =>
    obtain ⟨c, hc, hcomment, hpunctuator, -⟩ := front_of_isName hname
    exact hplain ⟨c, hc, hcomment, hpunctuator⟩
  | list => exact ⟨'[', by rw [Value.print, String.toList_append, String.toList_append]; rfl, by decide⟩
  | object => exact ⟨'\x7b', by rw [Value.print, String.toList_append, String.toList_append]; rfl, by decide⟩

/-- A variable is read back where no constant is wanted. -/
theorem reads_variableRef {levels : Nat} {name : String} (hname : IsName name.toList) :
    (value false (levels + 1)).Reads ('$' :: name.toList) n n (Follows []) fun w =>
      w = .variableRef name := by
  have hnot : ∀ {text : String} {p : Char}, text.toList.head? = some p → '$' ≠ p →
      ∀ position rest, (tokensFrom position n ('$' :: name.toList ++ rest)).startsWith text = false := by
    intro text p htext hp position rest
    refine not_startsWith htext (fun x hx => ?_) position n
    obtain rfl : '$' = x := Option.some.inj hx
    exact ⟨hp, by decide⟩
  rw [value]
  refine Reads.required ?_ (by rw [front_cons (by decide)]; simp)
  refine reads_looking false (fun position rest _ => hnot Brackets.square.head_opener (by decide) position rest) ?_
  refine reads_looking false (fun position rest _ => hnot Brackets.curly.head_opener (by decide) position rest) ?_
  refine reads_looking true (fun position rest _ => ?_) ?_
  · rw [List.cons_append, Sign.dollar.startsWith]
    rfl
  refine Sign.dollar.reads_then ?_
  refine ((reads_name hname).before fun rest hrest => hrest.ends).bind_pure fun w hw => ?_
  rw [hw]

/-- A list is read back if its items are, on the level below. -/
theorem reads_list {levels : Nat} {items : List Value} {indent : Nat} (hn : n < maxNesting)
    (hitems : ∀ v ∈ items, (value constant levels).Reads (v.print indent).toList (n + 1) (n + 1) (Follows [])
      fun w => w = v)
    (hfront : ∀ v ∈ items, ∃ x, front (v.print indent).toList = some x ∧ x ∉ ['#', ')', ']', '\x7d']) :
    (value constant (levels + 1)).Reads ((Value.list items).print indent).toList n n (Follows [])
      fun w => w = .list items := by
  have hpieces : ReadsPieces (value constant levels) id items (fun v => (v.print indent).toList) [',', ' ']
      ']' (n + 1) (Follows []) := by
    refine readsPieces_comma (fun v hv => hitems v hv) (fun v hv => ?_) (by decide)
    obtain ⟨x, hx, hmem⟩ := hfront v hv
    exact ⟨x, hx, fun h => hmem (by simp [h]), fun h => hmem (by simp [h])⟩
  have htext : ((Value.list items).print indent).toList
      = ['['] ++ ([',', ' '].intercalate (items.map fun v => (v.print indent).toList) ++ [']']) := by
    rw [Value.print, String.toList_append, String.toList_append, toList_printItems, List.append_assoc]
    rfl
  rw [htext, value]
  refine Reads.required ?_ (by rw [List.singleton_append, front_cons (by decide)]; simp)
  refine reads_looking true (fun position rest _ => Brackets.square.startsWith_opener hn position _) ?_
  refine (Brackets.square.reads_between hn hpieces).bind_pure fun bs hbs => ?_
  rw [List.map_id, List.map_id] at hbs
  rw [hbs]

/-- An object is read back if its values are and its fields are in order. -/
theorem reads_object {levels : Nat} {fields : List (String × Value)} {indent : Nat} (hn : n < maxNesting)
    (hsorted : fields.Pairwise fun f g => f.1 < g.1) (hnames : ∀ f ∈ fields, IsName f.1.toList)
    (hvalues : ∀ f ∈ fields, (value constant levels).Reads (f.2.print indent).toList (n + 1) (n + 1)
      (Follows []) fun w => w = f.2) :
    (value constant (levels + 1)).Reads ((Value.object fields).print indent).toList n n (Follows [])
      fun w => w = .object fields := by
  -- The fields are pieces in braces, each of which starts with its name.
  have hpieces : ReadsPieces (labelled (value constant levels)) id fields (fieldText indent) [',', ' ']
      '\x7d' (n + 1) (Follows []) := by
    refine readsPieces_comma (fun f hf => reads_labelled (hnames f hf) (hvalues f hf)) (fun f hf => ?_)
      (by decide)
    obtain ⟨x, hx, hne⟩ := front_ne_of_isName (hnames f hf) Brackets.curly.closer_punctuates
    exact ⟨x, front_append hx _, hne⟩
  have htext : ((Value.object fields).print indent).toList
      = ['\x7b'] ++ ([',', ' '].intercalate (fields.map (fieldText indent)) ++ ['\x7d']) := by
    rw [Value.print, String.toList_append, String.toList_append, toList_printFields, List.append_assoc]
    rfl
  rw [htext, value]
  refine Reads.required ?_ (by rw [List.singleton_append, front_cons (by decide)]; simp)
  -- A brace is no bracket of a list.
  refine reads_looking false (fun position rest _ => ?_) ?_
  · refine not_startsWith (p := '[') rfl (fun x hx => ?_) position n
    rw [List.singleton_append, List.cons_append, front_cons (by decide)] at hx
    obtain rfl := Option.mem_some.mp hx
    decide
  refine reads_looking true (fun position rest _ => Brackets.curly.startsWith_opener hn position _) ?_
  refine (Brackets.curly.reads_between hn hpieces).bind_pure fun bs hbs => ?_
  rw [List.map_id, List.map_id] at hbs
  rw [hbs, objectOf_of_sorted hsorted]

/-- A value that survives is read back from its text. -/
theorem reads_value {room : Nat} {v : Value} (h : v.Fits constant room) (hs : v.Survives)
    {levels : Nat} (hn : n + room ≤ maxNesting) (hlevels : room < levels) (indent : Nat) :
    (value constant levels).Reads (v.print indent).toList n n (Follows []) fun w => w = v := by
  -- There is room for the value, so there is a level for it. Each bracket takes one of both.
  obtain ⟨levels, rfl⟩ : ∃ l, levels = l + 1 := ⟨levels - 1, by omega⟩
  induction h generalizing n levels with
  | variableRef hconstant hname =>
    subst hconstant
    rw [Value.print, String.toList_append]
    exact reads_variableRef hname
  | int hlower hupper => exact reads_int hlower hupper
  | float hx =>
    cases hs with
    | float hfraction => exact reads_float hx hfraction
  | string =>
    cases hs with
    | string htext => exact reads_string htext indent
  | @boolean _ value =>
    cases value with
    | false =>
      have hname : IsName "false".toList := ⟨'f', _, rfl, by decide, forall_mem_of_all (by decide)⟩
      exact reads_nameLeaf hname
    | true =>
      have hname : IsName "true".toList := ⟨'t', _, rfl, by decide, forall_mem_of_all (by decide)⟩
      exact reads_nameLeaf hname
  | null =>
    have hname : IsName "null".toList := ⟨'n', _, rfl, by decide, forall_mem_of_all (by decide)⟩
    exact reads_nameLeaf hname
  | enumerator hname hword =>
    rw [Value.print, ← hword]
    exact reads_nameLeaf hname
  | @list room items hitems ih =>
    cases hs with
    | list hsurvive =>
      refine reads_list (by omega) (fun v hv => ?_) fun v hv => front_print (hitems v hv) (hsurvive v hv) indent
      obtain ⟨l, rfl⟩ : ∃ l, levels = l + 1 := ⟨levels - 1, by omega⟩
      exact ih v hv (hsurvive v hv) (by omega) l (by omega)
  | @object room fields hsorted hnames hvalues ih =>
    cases hs with
    | object hsurvive =>
      refine reads_object (by omega) hsorted hnames fun f hf => ?_
      obtain ⟨l, rfl⟩ : ∃ l, levels = l + 1 := ⟨levels - 1, by omega⟩
      exact ih f hf (hsurvive f hf) (by omega) l (by omega)

end

/-! ## Types -/

/-- An exclamation mark, if there is to be one. -/
def markText (marked : Bool) : List Char := if marked then ['!'] else []

/-- The type with an exclamation mark, if it is to have one. -/
def TypeExpr.withMark (marked : Bool) (t : TypeExpr) : TypeExpr := if marked then .nonNull t else t

section

variable {n : Nat}

/-- The exclamation mark behind a type, if there is one. -/
theorem reads_mark (marked : Bool) (base : TypeExpr) :
    Parser.Reads (markText marked) n n (Follows ['!']) (fun t => t = base.withMark marked) do
      if ← optionalPunctuator "!" then return TypeExpr.nonNull base else return base := by
  cases marked with
  | true =>
    show Parser.Reads (['!'] ++ []) n n _ _ _
    exact Sign.exclamation.reads_optional (reads_pure rfl)
  | false =>
    refine Sign.exclamation.reads_without (fun rest hrest c hc => ?_) (reads_pure rfl)
    have havoids := hrest.avoids c hc
    exact ⟨fun h => havoids (by simp [h]), fun h => havoids (by simp [h])⟩

/-- With or without a mark, what follows a type ends its name. -/
theorem follows_mark (marked : Bool) {rest : List Char} (h : Follows ['!'] rest) :
    EndsToken (markText marked ++ rest) := by
  cases marked with
  | true => exact endsToken_cons (by decide) rest
  | false => exact h.ends

/-- A type that is named. -/
theorem reads_namedType {levels : Nat} {name : String} (hname : IsName name.toList) (marked : Bool) :
    (typeExpr (levels + 1)).Reads (name.toList ++ markText marked) n n (Follows ['!'])
      fun t => t = (TypeExpr.named name).withMark marked := by
  obtain ⟨c, hc, hne⟩ := front_ne_of_isName hname Brackets.square.opener_punctuates
  rw [typeExpr]
  refine Reads.required ?_ (by simp [front_append hc])
  refine reads_withoutPunctuator Brackets.square.head_opener (fun rest _ x hx => ?_) ?_
  · rw [List.append_assoc, front_append hc] at hx
    rwa [← Option.mem_some.mp hx]
  refine (reads_name hname).bind (fun rest hrest => follows_mark marked hrest) fun w hw => ?_
  rw [hw]
  exact reads_mark marked (.named name)

/-- A type of lists, if that of the items is read. -/
theorem reads_listType {levels : Nat} {item : TypeExpr} (hn : n < maxNesting)
    (hitem : (typeExpr levels).Reads item.print.toList (n + 1) (n + 1) (Follows ['!']) fun t => t = item)
    (marked : Bool) :
    (typeExpr (levels + 1)).Reads (['['] ++ (item.print.toList ++ ([']'] ++ markText marked))) n n
      (Follows ['!']) fun t => t = (TypeExpr.list item).withMark marked := by
  rw [typeExpr]
  refine Reads.required ?_ (by rw [List.singleton_append, front_cons (by decide)]; simp)
  refine reads_optionalPunctuator Brackets.square.isLexeme_opener rfl (fun _ => hn) rfl ?_
  refine hitem.bind (fun rest _ => follows_cons (by decide) (by decide) (by decide) _) fun t ht => ?_
  refine Reads.bind (F := fun _ => True) Brackets.square.reads_closer (fun _ _ => trivial) fun _ _ => ?_
  rw [ht]
  exact reads_mark marked (.list item)

/-- A type is read back from its text, with an exclamation mark if it may have one. -/
theorem reads_markedType {room : Nat} {t : TypeExpr} (h : t.Fits room) {levels : Nat}
    (hn : n + room ≤ maxNesting) (hlevels : room < levels) (marked : Bool)
    (hmarked : marked = true → ∀ u, t ≠ .nonNull u) :
    (typeExpr levels).Reads (t.print.toList ++ markText marked) n n (Follows ['!'])
      fun u => u = t.withMark marked := by
  obtain ⟨levels, rfl⟩ : ∃ l, levels = l + 1 := ⟨levels - 1, by omega⟩
  induction h generalizing n levels marked with
  | named hname => exact reads_namedType hname marked
  | @list room item hitem ih =>
    obtain ⟨l, rfl⟩ : ∃ l, levels = l + 1 := ⟨levels - 1, by omega⟩
    -- The type of the items is read without a mark of its own: if it has one, this is part of it.
    have hread := ih (n := n + 1) (by omega) false (by simp) l (by omega)
    rw [show markText false = [] from rfl, List.append_nil] at hread
    have htext : (TypeExpr.list item).print.toList ++ markText marked
        = ['['] ++ (item.print.toList ++ ([']'] ++ markText marked)) := by
      rw [TypeExpr.print, String.toList_append, String.toList_append, List.append_assoc, List.append_assoc]
      rfl
    rw [htext]
    exact reads_listType (by omega) hread marked
  | @nonNull room type htype hmark ih =>
    cases marked with
    | true => exact absurd rfl (hmarked rfl type)
    | false =>
      -- The mark of the type is that of the one inside.
      have htext : (TypeExpr.nonNull type).print.toList ++ markText false
          = type.print.toList ++ markText true := by
        rw [TypeExpr.print, String.toList_append]
        exact List.append_nil _
      rw [htext]
      exact ih hn true (fun _ => hmark) levels hlevels

/-- A type is read back from its text. -/
theorem reads_typeExpr {room : Nat} {t : TypeExpr} (h : t.Fits room) {levels : Nat}
    (hn : n + room ≤ maxNesting) (hlevels : room < levels) :
    (typeExpr levels).Reads t.print.toList n n (Follows ['!']) fun u => u = t := by
  have hread := reads_markedType h hn hlevels false (by simp)
  rwa [show markText false = [] from rfl, List.append_nil] at hread

end

end QueryModule.Graphql
