import QueryModule.Graphql.Grammar
import QueryModule.Proofs.Graphql.Names
import QueryModule.Proofs.Graphql.Numbers
import QueryModule.Proofs.Graphql.Parsing

/-!
# What parsed definitions are like

Not every syntax tree comes from a source. In one that does, names are names, integers and floats are
values of their formats, the fields of an object are in order, a selection set selects something, and
brackets nest at most fifty deep. `Definition.Fits` says all of this. The nesting is counted by the
room that is left: the number of brackets that may still be opened.

> `fits_of_parseDocument`: every definition of a parsed document fits.
>
> `isName_of_parseDocument`: if it has a name, it is named as names are.
-/

namespace QueryModule.Graphql

open QueryModule.Graphql.Parser

/-! ## Syntax trees with room -/

/-- A value as it may stand where so many brackets may be opened, in a constant or elsewhere. -/
inductive Value.Fits (constant : Bool) : Nat → Value → Prop
  | variableRef {room : Nat} {name : String} (hconstant : constant = false)
      (hname : IsName name.toList) : Fits constant room (.variableRef name)
  | int {room : Nat} {n : Int} (hlower : -2 ^ 63 ≤ n) (hupper : n < 2 ^ 63) : Fits constant room (.int n)
  | float {room : Nat} {x : Decimal.Binary64} (hx : IsFloat x) : Fits constant room (.float x)
  | string {room : Nat} {text : String} : Fits constant room (.string text)
  | boolean {room : Nat} {value : Bool} : Fits constant room (.boolean value)
  | null {room : Nat} : Fits constant room .null
  | enumerator {room : Nat} {name : String} (hname : IsName name.toList)
      (hword : Value.ofName name = .enumerator name) : Fits constant room (.enumerator name)
  | list {room : Nat} {items : List Value} (hitems : ∀ v ∈ items, Fits constant room v) :
      Fits constant (room + 1) (.list items)
  | object {room : Nat} {fields : List (String × Value)} (hsorted : fields.Pairwise fun f g => f.1 < g.1)
      (hnames : ∀ f ∈ fields, IsName f.1.toList) (hvalues : ∀ f ∈ fields, Fits constant room f.2) :
      Fits constant (room + 1) (.object fields)

/-- A type where so many brackets may be opened. No type has two exclamation marks in a row. -/
inductive TypeExpr.Fits : Nat → TypeExpr → Prop
  | named {room : Nat} {name : String} (hname : IsName name.toList) : Fits room (.named name)
  | list {room : Nat} {item : TypeExpr} (hitem : Fits room item) : Fits (room + 1) (.list item)
  | nonNull {room : Nat} {type : TypeExpr} (htype : Fits room type) (hmark : ∀ t, type ≠ .nonNull t) :
      Fits room (.nonNull type)

/-- The arguments are names and values in parentheses, if there are any. -/
def ArgumentsFit (room : Nat) (arguments : Arguments) : Prop :=
  ∀ a ∈ arguments, IsName a.1.toList ∧ ∃ r, room = r + 1 ∧ a.2.Fits false r

/-- Directives and their arguments. -/
def DirectivesFit (room : Nat) (directives : List Directive) : Prop :=
  ∀ d ∈ directives, IsName d.name.toList ∧ ArgumentsFit room d.arguments

/-- A selection where so many brackets may be opened. -/
inductive Selection.Fits : Nat → Selection → Prop
  | leaf {room : Nat} {key : Option String} {name : String} {arguments : Arguments}
      {directives : List Directive} (hkey : ∀ k ∈ key, IsName k.toList) (hname : IsName name.toList)
      (harguments : ArgumentsFit room arguments) (hdirectives : DirectivesFit room directives) :
      Fits room (.field key name arguments directives [])
  | field {room : Nat} {key : Option String} {name : String} {arguments : Arguments}
      {directives : List Directive} {selections : List Selection} (hkey : ∀ k ∈ key, IsName k.toList)
      (hname : IsName name.toList) (harguments : ArgumentsFit (room + 1) arguments)
      (hdirectives : DirectivesFit (room + 1) directives) (hne : selections ≠ [])
      (hselections : ∀ s ∈ selections, Fits room s) :
      Fits (room + 1) (.field key name arguments directives selections)
  | spread {room : Nat} {position : Position} {name : String} {directives : List Directive}
      (hname : IsName name.toList) (hon : name ≠ "on") (hdirectives : DirectivesFit room directives) :
      Fits room (.spread position name directives)
  | inline {room : Nat} {onType : Option String} {directives : List Directive}
      {selections : List Selection} (htype : ∀ t ∈ onType, IsName t.toList)
      (hdirectives : DirectivesFit (room + 1) directives) (hne : selections ≠ [])
      (hselections : ∀ s ∈ selections, Fits room s) : Fits (room + 1) (.inline onType directives selections)

/-- A selection set in braces. -/
def BodyFits (room : Nat) (selections : List Selection) : Prop :=
  selections ≠ [] ∧ ∃ r, room = r + 1 ∧ ∀ s ∈ selections, s.Fits r

/-- A variable of an operation. -/
structure VariableDefinition.Fits (room : Nat) (v : VariableDefinition) : Prop where
  name : IsName v.name.toList
  type : v.type.Fits room
  defaultValue : ∀ d ∈ v.defaultValue, d.Fits true room

/-- An operation outside of all brackets. -/
inductive Operation.Fits : Operation → Prop
  | shorthand {position : Position} {selections : List Selection} (hbody : BodyFits maxNesting selections) :
      Fits (.shorthand position selections)
  | explicit {kind : OperationKind} {position : Position} {name : Option String}
      {parameters : List VariableDefinition} {directives : List Directive} {selections : List Selection}
      (hname : ∀ n ∈ name, IsName n.toList)
      (hparameters : ∀ v ∈ parameters, ∃ r, maxNesting = r + 1 ∧ v.Fits r)
      (hdirectives : DirectivesFit maxNesting directives) (hbody : BodyFits maxNesting selections) :
      Fits (.explicit kind position name parameters directives selections)

/-- A fragment outside of all brackets. -/
structure FragmentDefinition.Fits (f : FragmentDefinition) : Prop where
  name : IsName f.name.toList
  onType : IsName f.onType.toList
  directives : DirectivesFit maxNesting f.directives
  body : BodyFits maxNesting f.selections

/-- A definition as a source can have it. -/
def Definition.Fits : Definition → Prop
  | .operation o => o.Fits
  | .fragment f => f.Fits

/-- A definition that fits is named as names are. -/
theorem Definition.Fits.name {d : Definition} (h : d.Fits) : ∀ n ∈ d.name?, IsName n.toList := by
  cases d with
  | fragment f =>
    intro n hn
    rw [← Option.mem_some.mp hn]
    exact FragmentDefinition.Fits.name h
  | operation o =>
    cases h with
    | shorthand => exact fun n hn => absurd hn (by simp [Definition.name?, Operation.name?])
    | explicit hname => exact hname

/-! ## Tokens with room -/

/-- The brackets that open. -/
def Token.Opens (t : Token) : Prop := t.kind = .punctuator ∧ ["(", "[", "\x7b"].contains t.text = true

/-- The brackets that close. -/
def Token.Closes (t : Token) : Prop := t.kind = .punctuator ∧ [")", "]", "\x7d"].contains t.text = true

instance (t : Token) : Decidable t.Opens := inferInstanceAs (Decidable (_ ∧ _))

instance (t : Token) : Decidable t.Closes := inferInstanceAs (Decidable (_ ∧ _))

/-- Name tokens are names, and no more brackets are opened than there is room for. -/
def Tokens.Within : Tokens → Nat → Prop
  | .next t rest, room =>
    (t.kind = .name → IsName t.text.toList) ∧
      if t.Opens then ∃ r, room = r + 1 ∧ rest.Within r
      else if t.Closes then rest.Within (room + 1)
      else rest.Within room
  | _, _ => True

/-- Tokens that get by with some room get by with more. -/
theorem Tokens.Within.succ {ts : Tokens} {room : Nat} (h : ts.Within room) : ts.Within (room + 1) := by
  induction ts generalizing room with
  | finished => trivial
  | broken => trivial
  | next t rest ih =>
    refine ⟨h.1, ?_⟩
    have hrest := h.2
    split
    next hopens =>
      rw [if_pos hopens] at hrest
      obtain ⟨r, rfl, hr⟩ := hrest
      exact ⟨r + 1, rfl, ih hr⟩
    next hopens =>
      rw [if_neg hopens] at hrest
      split
      next hcloses =>
        rw [if_pos hcloses] at hrest
        exact ih hrest
      next hcloses =>
        rw [if_neg hcloses] at hrest
        exact ih hrest

theorem lexeme_of_isPunctuator {c : Char} (h : isPunctuator c = true) (rest : List Char) :
    lexeme c rest = .ok (.punctuator, 0) := if_pos h

/-- A bracket is recognised by its first character. -/
theorem bracket_iff (brackets : List Char) (hbrackets : ∀ b ∈ brackets, isPunctuator b = true)
    {c : Char} {rest : List Char} {kind : TokenKind} {n : Nat} (hlexeme : lexeme c rest = .ok (kind, n)) :
    (kind = .punctuator ∧ (brackets.map String.singleton).contains (String.ofList (c :: rest.take n)) = true)
      ↔ c ∈ brackets := by
  constructor
  · rintro ⟨-, htext⟩
    obtain ⟨b, hb, heq⟩ := List.mem_map.mp (List.contains_iff_mem.mp htext)
    have hlist := congrArg String.toList heq
    rw [String.toList_ofList, String.toList_singleton] at hlist
    rw [← (List.cons.inj hlist).1]
    exact hb
  · intro hc
    rw [lexeme_of_isPunctuator (hbrackets c hc)] at hlexeme
    obtain ⟨rfl, rfl⟩ := Prod.mk.inj (Except.ok.inj hlexeme)
    refine ⟨rfl, List.contains_iff_mem.mpr ?_⟩
    exact List.mem_map_of_mem hc

/-- The lexer opens no more brackets than the limit on nesting leaves, and its name tokens are names. -/
theorem within_tokensFrom (position : Position) (nesting : Nat) (source : List Char)
    (h : nesting ≤ maxNesting) : (tokensFrom position nesting source).Within (maxNesting - nesting) := by
  fun_induction tokensFrom position nesting source with
  | case1 => trivial
  | case2 _ _ _ _ _ ih => exact ih h
  | case3 _ _ _ _ _ ih => exact ih h
  | case4 => trivial
  | case5 => trivial
  | case6 position nesting c rest _ _ hdeep kind n hlexeme text ih =>
    refine ⟨fun hname => ?_, ?_⟩
    · obtain rfl : kind = .name := hname
      show IsName (String.ofList text).toList
      rw [String.toList_ofList]
      exact isName_of_lexeme hlexeme
    · have hopens : Token.Opens ⟨kind, String.ofList text, position⟩ ↔ isOpener c = true := by
        refine (bracket_iff ['(', '[', '\x7b'] (forall_mem_of_all (by decide)) hlexeme).trans ?_
        simp [isOpener, or_assoc]
      have hcloses : Token.Closes ⟨kind, String.ofList text, position⟩ ↔ isCloser c = true := by
        refine (bracket_iff [')', ']', '\x7d'] (forall_mem_of_all (by decide)) hlexeme).trans ?_
        simp [isCloser, or_assoc]
      by_cases ho : isOpener c = true
      · have hlt : nesting < maxNesting := by
          simpa [ho] using hdeep
        have hn : nestingAfter nesting c = nesting + 1 := if_pos ho
        rw [hn] at ih ⊢
        rw [if_pos (hopens.mpr ho)]
        exact ⟨maxNesting - (nesting + 1), by omega, ih hlt⟩
      · rw [if_neg (mt hopens.mp ho)]
        by_cases hc : isCloser c = true
        · have hn : nestingAfter nesting c = nesting - 1 := (if_neg ho).trans (if_pos hc)
          rw [hn] at ih ⊢
          rw [if_pos (hcloses.mpr hc)]
          -- A bracket that closes nothing leaves the nesting at zero.
          rcases Nat.eq_zero_or_pos nesting with rfl | hpos
          · exact (ih (Nat.zero_le _)).succ
          · have := ih (by omega)
            rwa [show maxNesting - (nesting - 1) = maxNesting - nesting + 1 by omega] at this
        · have hn : nestingAfter nesting c = nesting := (if_neg ho).trans (if_neg hc)
          rw [hn] at ih ⊢
          rw [if_neg (mt hcloses.mp hc)]
          exact ih h

/-! ## Single tokens -/

section

variable {α β : Type} {room : Nat}

/-- No more than so many brackets are opened. -/
abbrev Roomy (room : Nat) : Tokens → Prop := fun ts => ts.Within room

/-- Behind a token that is no bracket there is as much room as before. -/
theorem Tokens.Within.rest {t : Token} {rest : Tokens} (h : (Tokens.next t rest).Within room)
    (hopens : ¬ t.Opens) (hcloses : ¬ t.Closes) : rest.Within room := by
  have hrest := h.2
  rwa [if_neg hopens, if_neg hcloses] at hrest

/-- A token that is no punctuator leaves the room as it is. -/
theorem yields_plainToken {p : Token → Bool} {Q : Token → Prop}
    (h : ∀ t, p t = true → t.kind ≠ .punctuator ∧ ((t.kind = .name → IsName t.text.toList) → Q t)) :
    (tokenThat p).Yields (Roomy room) (Roomy room) Q := by
  refine yields_tokenThat fun t rest ht hp => ?_
  obtain ⟨hkind, hQ⟩ := h t hp
  exact ⟨hQ ht.1, Tokens.Within.rest ht (fun ho => hkind ho.1) fun hc => hkind hc.1⟩

/-- A name token is a name. -/
theorem yields_nameToken :
    nameToken.Yields (Roomy room) (Roomy room) fun t => IsName t.text.toList := by
  refine yields_plainToken fun t hp => ?_
  have hkind : t.kind = .name := by simpa using hp
  exact ⟨by rw [hkind]; decide, fun h => h hkind⟩

theorem yields_name : name.Yields (Roomy room) (Roomy room) fun n => IsName n.toList := by
  unfold name
  exact yields_nameToken.bind fun t ht => yields_pure ht

/-- A keyword is no bracket. -/
theorem yields_keyword {text : String} :
    (keyword text).Yields (Roomy room) (Roomy room) fun _ => True := by
  refine yields_plainToken fun t hp => ⟨?_, fun _ => trivial⟩
  obtain ⟨hkind, -⟩ : t.kind = .name ∧ t.text = text := by simpa using hp
  rw [hkind]
  decide

/-- A punctuator that is no bracket. -/
theorem yields_punctuator {text : String}
    (h : ["(", "[", "\x7b", ")", "]", "\x7d"].contains text = false) :
    (punctuator text).Yields (Roomy room) (Roomy room) fun _ => True := by
  refine yields_tokenThat fun t rest ht hp => ⟨trivial, ?_⟩
  obtain ⟨-, rfl⟩ : t.kind = .punctuator ∧ t.text = text := by simpa using hp
  refine Tokens.Within.rest ht (fun ho => ?_) fun hc => ?_
  · have := ho.2
    simp_all
  · have := hc.2
    simp_all

/-- An opening bracket takes some of the room, so there has been some. -/
theorem yields_opener {text : String} (h : ["(", "[", "\x7b"].contains text = true) :
    (punctuator text).Yields (Roomy room) (Roomy (room - 1)) fun _ => ∃ r, room = r + 1 := by
  refine yields_tokenThat fun t rest ht hp => ?_
  obtain ⟨hkind, rfl⟩ : t.kind = .punctuator ∧ t.text = text := by simpa using hp
  have hrest := ht.2
  rw [if_pos ⟨hkind, h⟩] at hrest
  obtain ⟨r, rfl, hr⟩ := hrest
  exact ⟨⟨r, rfl⟩, hr⟩

/-- A closing bracket gives it back. -/
theorem yields_closer {text : String} (h : [")", "]", "\x7d"].contains text = true) :
    (punctuator text).Yields (Roomy room) (Roomy (room + 1)) fun _ => True := by
  refine yields_tokenThat fun t rest ht hp => ⟨trivial, ?_⟩
  obtain ⟨hkind, rfl⟩ : t.kind = .punctuator ∧ t.text = text := by simpa using hp
  have hrest := ht.2
  rw [if_neg, if_pos ⟨hkind, h⟩] at hrest
  · exact hrest
  · intro ho
    have hopens := ho.2
    rcases (show t.text = ")" ∨ t.text = "]" ∨ t.text = "\x7d" by simpa using h) with h | h | h
    all_goals
      rw [h] at hopens
      exact absurd hopens (by decide)

/-! ## Brackets -/

variable {item : Parser α} {Q : Nat → α → Prop} {opener closer : String}

/-- What stands in brackets has the room that is left inside of them. -/
theorem yields_between (ho : ["(", "[", "\x7b"].contains opener = true)
    (hc : [")", "]", "\x7d"].contains closer = true)
    (h : ∀ r, item.Yields (Roomy r) (Roomy r) (Q r)) :
    (between opener closer item).Yields (Roomy room) (Roomy room) fun as =>
      ∃ r, room = r + 1 ∧ ∀ a ∈ as, Q r a := by
  unfold between
  refine (yields_opener ho).bind fun _ hroom => ?_
  obtain ⟨r, rfl⟩ := hroom
  refine (h r).repeatUntil.bind fun items hitems => ?_
  exact (yields_closer hc).bind fun _ _ => yields_pure ⟨r, rfl, hitems⟩

/-- The same where the brackets are not empty. -/
theorem yields_someBetween (ho : ["(", "[", "\x7b"].contains opener = true)
    (hc : [")", "]", "\x7d"].contains closer = true)
    (h : ∀ r, item.Yields (Roomy r) (Roomy r) (Q r)) :
    (someBetween opener closer item).Yields (Roomy room) (Roomy room) fun as =>
      ∀ a ∈ as, ∃ r, room = r + 1 ∧ Q r a := by
  unfold someBetween
  refine (yields_opener ho).bind fun _ hroom => ?_
  obtain ⟨r, rfl⟩ := hroom
  refine (h r).bind fun first hfirst => ?_
  refine (h r).repeatUntil.bind fun others hothers => ?_
  refine (yields_closer hc).bind fun _ _ => yields_pure fun a ha => ⟨r, rfl, ?_⟩
  exact List.forall_mem_cons.mpr ⟨hfirst, hothers⟩ a ha

theorem yields_optionalBetween (ho : ["(", "[", "\x7b"].contains opener = true)
    (hc : [")", "]", "\x7d"].contains closer = true)
    (h : ∀ r, item.Yields (Roomy r) (Roomy r) (Q r)) :
    (optionalBetween opener closer item).Yields (Roomy room) (Roomy room) fun as =>
      ∀ a ∈ as, ∃ r, room = r + 1 ∧ Q r a := by
  unfold optionalBetween
  exact yields_looking fun _ => Yields.ite (yields_someBetween ho hc h) (yields_pure (by simp))

end

/-! ## Values and types -/

/-- A name that stands for a value is a truth value, `null` or an enumeration value. -/
theorem fits_ofName (constant : Bool) (room : Nat) {text : String} (h : IsName text.toList) :
    (Value.ofName text).Fits constant room := by
  unfold Value.ofName
  split
  · exact .boolean
  split
  · exact .boolean
  split
  · exact .null
  next htrue hfalse hnull =>
    refine .enumerator h ?_
    unfold Value.ofName
    rw [if_neg htrue, if_neg hfalse, if_neg hnull]

/-- A field of an object with another one in it is this one or has been there before. -/
theorem mem_insertField {name : String} {value : Value} {fields : List (String × Value)}
    {f : String × Value} (h : f ∈ insertField name value fields) : f = (name, value) ∨ f ∈ fields := by
  induction fields with
  | nil => exact .inl (List.mem_singleton.mp h)
  | cons g rest ih =>
    rw [insertField] at h
    split at h
    · exact List.mem_cons.mp h
    split at h
    · exact (List.mem_cons.mp h).imp_right (List.mem_cons_of_mem _)
    · rcases List.mem_cons.mp h with rfl | h
      · exact .inr (List.mem_cons_self ..)
      · exact (ih h).imp_right (List.mem_cons_of_mem _)

/-- The fields stay in order. -/
theorem pairwise_insertField {name : String} {value : Value} {fields : List (String × Value)}
    (h : fields.Pairwise fun f g => f.1 < g.1) :
    (insertField name value fields).Pairwise fun f g => f.1 < g.1 := by
  induction fields with
  | nil => exact List.pairwise_singleton _ _
  | cons g rest ih =>
    obtain ⟨hg, hrest⟩ := List.pairwise_cons.mp h
    rw [insertField]
    split
    -- In front of `g`.
    next hlt =>
      refine List.pairwise_cons.mpr ⟨fun f hf => ?_, h⟩
      rcases List.mem_cons.mp hf with rfl | hf
      · exact hlt
      · exact String.lt_trans hlt (hg f hf)
    split
    -- In the place of `g`.
    next heq =>
      refine List.pairwise_cons.mpr ⟨fun f hf => ?_, hrest⟩
      rw [show (name, value).1 = g.1 from heq]
      exact hg f hf
    -- Somewhere behind `g`, which is smaller since strings are ordered totally.
    next hlt heq =>
      refine List.pairwise_cons.mpr ⟨fun f hf => ?_, ih hrest⟩
      rcases mem_insertField hf with rfl | hf
      · refine Classical.byContradiction fun hnot => heq ?_
        exact String.le_antisymm (String.not_lt.mp hnot) (String.not_lt.mp hlt)
      · exact hg f hf

/-- An object fits when its fields do, whatever order they are given in: the object puts them in order. -/
theorem fits_objectOf {constant : Bool} {room : Nat} {fields : List (String × Value)}
    (h : ∀ f ∈ fields, IsName f.1.toList ∧ f.2.Fits constant room) :
    (objectOf fields).Fits constant (room + 1) := by
  -- What has been inserted so far is in order and fits.
  have hall : ∀ (fields object : List (String × Value)),
      (∀ f ∈ fields, IsName f.1.toList ∧ f.2.Fits constant room) →
      (∀ f ∈ object, IsName f.1.toList ∧ f.2.Fits constant room) →
      object.Pairwise (fun f g => f.1 < g.1) →
      (Value.object (fields.foldl (fun object f => insertField f.1 f.2 object) object)).Fits
        constant (room + 1) := by
    intro fields
    induction fields with
    | nil => exact fun object _ hobject hsorted =>
        .object hsorted (fun f hf => (hobject f hf).1) fun f hf => (hobject f hf).2
    | cons f rest ih =>
      intro object hfields hobject hsorted
      refine ih _ (fun g hg => hfields g (List.mem_cons_of_mem _ hg)) (fun g hg => ?_)
        (pairwise_insertField hsorted)
      rcases mem_insertField hg with rfl | hg
      · exact hfields f (List.mem_cons_self ..)
      · exact hobject g hg
  exact hall fields [] h (by simp) .nil

section

variable {room : Nat} {α : Type}

theorem yields_tooDeep {I J : Tokens → Prop} {Q : α → Prop} : (tooDeep : Parser α).Yields I J Q :=
  yields_of_error fun _ => ⟨_, rfl⟩

theorem yields_labelled {item : Parser α} {Q : α → Prop} (h : item.Yields (Roomy room) (Roomy room) Q) :
    (labelled item).Yields (Roomy room) (Roomy room) fun f => IsName f.1.toList ∧ Q f.2 := by
  unfold labelled
  refine yields_name.bind fun label hlabel => ?_
  refine (yields_punctuator (by decide)).bind fun _ _ => ?_
  exact h.bind fun a ha => yields_pure ⟨hlabel, ha⟩

/-- An integer is in the range of its format. -/
theorem yields_intValue {t : Token} :
    (intValue t).Yields (Roomy room) (Roomy room) fun n => -2 ^ 63 ≤ n ∧ n < 2 ^ 63 := by
  unfold intValue
  split
  next h => exact yields_pure (bounds_of_intOfText h)
  · exact yields_failAt

/-- A float is one of its format. -/
theorem yields_floatValue {t : Token} :
    (floatValue t).Yields (Roomy room) (Roomy room) IsFloat := by
  unfold floatValue
  split
  next h => exact yields_pure (isFloat_of_floatOfText h)
  · exact yields_failAt

/-- A string has no room to ask for. -/
theorem yields_stringValue {t : Token} :
    (stringValue t).Yields (Roomy room) (Roomy room) fun _ => True := by
  unfold stringValue
  refine Yields.ite (yields_pure trivial) ?_
  split
  · exact yields_pure trivial
  · exact yields_failAt

/-- Values fit, by induction on the levels that the parser may still go down. -/
theorem yields_value (constant : Bool) :
    ∀ levels room, (value constant levels).Yields (Roomy room) (Roomy room) (Value.Fits constant room)
  | 0, _ => yields_tooDeep
  | levels + 1, room => by
    have ih := yields_value constant levels
    rw [value]
    refine Yields.required (yields_looking fun _ => Yields.ite ?_ ?_)
    · refine (yields_between (by decide) (by decide) ih).bind fun items hitems => yields_pure ?_
      obtain ⟨r, rfl, hitems⟩ := hitems
      exact .list hitems
    refine yields_looking fun _ => Yields.ite ?_ ?_
    · refine (yields_between (by decide) (by decide) fun r => yields_labelled (ih r)).bind
        fun fields hfields => yields_pure ?_
      obtain ⟨r, rfl, hfields⟩ := hfields
      exact fits_objectOf hfields
    refine yields_lookingAt fun b => ?_
    cases b with
    | true =>
      -- In a constant no variable has been looked for.
      cases constant with
      | true => exact fun ts _ _ hts => absurd hts.2 (by simp)
      | false =>
        refine Yields.weaken ?_ fun ts hts => hts.1
        refine (yields_punctuator (by decide)).bind fun _ _ => ?_
        exact yields_name.bind fun n hn => yields_pure (.variableRef rfl hn)
    | false =>
      refine Yields.weaken ?_ fun ts hts => hts.1
      have hplain : (tokenThat (·.kind != .punctuator)).Yields (Roomy room) (Roomy room)
          fun t => t.kind = .name → IsName t.text.toList :=
        yields_plainToken fun t ht => ⟨by simpa using ht, id⟩
      refine hplain.bind fun t ht => ?_
      split
      next hkind => exact yields_pure (fits_ofName constant room (ht hkind))
      · exact yields_intValue.bind fun n hn => yields_pure (.int hn.1 hn.2)
      · exact yields_floatValue.bind fun x hx => yields_pure (.float hx)
      · exact yields_stringValue.bind fun _ _ => yields_pure .string

/-- Types fit, by the same induction. -/
theorem yields_typeExpr :
    ∀ levels room, (typeExpr levels).Yields (Roomy room) (Roomy room) (TypeExpr.Fits room)
  | 0, _ => yields_tooDeep
  | levels + 1, room => by
    have ih := yields_typeExpr levels
    -- An exclamation mark behind the type, which has none itself.
    have hmark : ∀ base : TypeExpr, base.Fits room → (∀ t, base ≠ .nonNull t) →
        Parser.Yields (Roomy room) (Roomy room) (TypeExpr.Fits room) do
          if ← optionalPunctuator "!" then return TypeExpr.nonNull base else return base := by
      intro base hbase hnot
      refine yields_optionalPunctuator (yields_punctuator (by decide)) (fun _ _ => ?_) ?_
      · exact yields_pure (.nonNull hbase hnot)
      · exact yields_pure hbase
    rw [typeExpr]
    refine Yields.required (yields_optionalPunctuator (yields_opener (by decide)) (fun _ hroom => ?_) ?_)
    · obtain ⟨r, rfl⟩ := hroom
      refine (ih r).bind fun item hitem => ?_
      exact (yields_closer (by decide)).bind fun _ _ => hmark (.list item) (.list hitem) (by simp)
    · exact yields_name.bind fun n hn => hmark (.named n) (.named hn) (by simp)

/-! ## Arguments and directives -/

theorem yields_arguments : arguments.Yields (Roomy room) (Roomy room) (ArgumentsFit room) := by
  have hitem := fun r => yields_labelled (yields_value false maxNesting r)
  refine (yields_optionalBetween (by decide) (by decide) hitem).mono fun args hargs a ha => ?_
  obtain ⟨r, hr, hname, hvalue⟩ := hargs a ha
  exact ⟨hname, r, hr, hvalue⟩

theorem yields_directive : directive.Yields (Roomy room) (Roomy room) fun d =>
    IsName d.name.toList ∧ ArgumentsFit room d.arguments := by
  unfold directive
  refine (yields_punctuator (by decide)).bind fun _ _ => ?_
  refine yields_name.bind fun n hn => ?_
  exact yields_arguments.bind fun args hargs => yields_pure ⟨hn, hargs⟩

theorem yields_directives : directives.Yields (Roomy room) (Roomy room) (DirectivesFit room) :=
  yields_directive.repeatUntil

/-! ## Selections -/

section

variable {nested : Parser (List Selection)}
  (h : nested.Yields (Roomy room) (Roomy room) (BodyFits room))

include h

/-- What three dots are followed by: a spread or an inline fragment. -/
theorem yields_afterDots : (afterDots nested).Yields (Roomy room) (Roomy room) (Selection.Fits room) := by
  have hinline : ∀ onType : Option String, (∀ t ∈ onType, IsName t.toList) →
      Parser.Yields (Roomy room) (Roomy room) (Selection.Fits room) do
        return Selection.inline onType (← directives) (← nested) := by
    intro onType htype
    refine yields_directives.bind fun dirs hdirs => ?_
    refine h.bind fun selections hbody => yields_pure ?_
    obtain ⟨hne, r, rfl, hselections⟩ := hbody
    exact .inline htype hdirs hne hselections
  unfold afterDots
  refine Yields.required (yields_lookingAt fun b => ?_)
  cases b with
  | true =>
    refine Yields.weaken ?_ fun ts hts => hts.1
    refine yields_looking fun _ => Yields.ite ?_ (hinline none (by simp))
    refine yields_keyword.bind fun _ _ => ?_
    refine yields_name.bind fun onType htype => hinline (some onType) fun t ht => ?_
    rwa [← Option.mem_some.mp ht]
  | false =>
    -- The name is not the word `on`, which would have been found.
    have htoken : nameToken.Yields
        (fun ts => Roomy room ts ∧ (ts.startsWithName "on" || ts.startsWith "@" || ts.startsWith "\x7b") = false)
        (Roomy room) fun t => IsName t.text.toList ∧ t.text ≠ "on" := by
      refine yields_tokenThat fun t rest ht hp => ?_
      have hkind : t.kind = .name := by simpa using hp
      have hnot : t.kind ≠ .punctuator := by
        rw [hkind]
        decide
      refine ⟨⟨ht.1.1 hkind, fun hon => ?_⟩, Tokens.Within.rest ht.1 (fun ho => hnot ho.1) fun hc => hnot hc.1⟩
      have hlook := ht.2
      simp [Tokens.startsWithName, hkind, hon] at hlook
    refine htoken.bind fun t ht => ?_
    exact yields_directives.bind fun dirs hdirs => yields_pure (.spread ht.1 ht.2 hdirs)

/-- A field, with its alias, its arguments, its directives and what it selects. -/
theorem yields_field : (field nested).Yields (Roomy room) (Roomy room) (Selection.Fits room) := by
  -- What follows the name is read the same way whether or not it has a key in front of it.
  have hrest : ∀ (key : Option String) (fieldName : String), (∀ k ∈ key, IsName k.toList) →
      IsName fieldName.toList → Parser.Yields (Roomy room) (Roomy room) (Selection.Fits room) do
        let args ← arguments
        let dirs ← directives
        let inner ← do
          if ← looking (·.startsWith "\x7b") then nested else pure []
        return Selection.field key fieldName args dirs inner := by
    intro key fieldName hkey hname
    refine yields_arguments.bind fun args hargs => ?_
    refine yields_directives.bind fun dirs hdirs => ?_
    refine yields_looking fun _ => Yields.ite ?_ ?_
    · refine h.bind fun selections hbody => yields_pure ?_
      obtain ⟨hne, r, rfl, hselections⟩ := hbody
      exact .field hkey hname hargs hdirs hne hselections
    · exact yields_pure (.leaf hkey hname hargs hdirs)
  unfold field
  refine yields_name.bind fun first hfirst => ?_
  refine yields_optionalPunctuator (yields_punctuator (by decide)) (fun _ _ => ?_)
    (hrest none first (by simp) hfirst)
  refine yields_name.bind fun fieldName hname => hrest (some first) fieldName (fun k hk => ?_) hname
  rwa [← Option.mem_some.mp hk]

theorem yields_selection : (selection nested).Yields (Roomy room) (Roomy room) (Selection.Fits room) := by
  unfold selection
  exact yields_optionalPunctuator (yields_punctuator (by decide)) (fun _ _ => yields_afterDots h)
    (yields_field h)

end

/-- Selection sets fit, by induction on the levels. -/
theorem yields_selectionSet :
    ∀ levels room, (selectionSet levels).Yields (Roomy room) (Roomy room) (BodyFits room)
  | 0, _ => yields_tooDeep
  | levels + 1, room => by
    have hselection := fun r => yields_selection (yields_selectionSet levels r)
    rw [selectionSet]
    refine Yields.required ((yields_opener (by decide)).bind fun _ hroom => ?_)
    obtain ⟨r, rfl⟩ := hroom
    refine (hselection r).required.bind fun first hfirst => ?_
    refine (hselection r).repeatUntil.bind fun others hothers => ?_
    refine (yields_closer (by decide)).bind fun _ _ => yields_pure ⟨by simp, r, rfl, ?_⟩
    exact List.forall_mem_cons.mpr ⟨hfirst, hothers⟩

/-! ## Definitions -/

/-- A variable of an operation. -/
theorem yields_variableDefinition :
    variableDefinition.Yields (Roomy room) (Roomy room) (VariableDefinition.Fits room) := by
  unfold variableDefinition
  refine (yields_punctuator (by decide)).bind fun _ _ => ?_
  refine yields_name.bind fun n hn => ?_
  refine (yields_punctuator (by decide)).bind fun _ _ => ?_
  refine (yields_typeExpr maxNesting room).bind fun type htype => ?_
  refine yields_optionalPunctuator (yields_punctuator (by decide)) (fun _ _ => ?_)
    (yields_pure ⟨hn, htype, by simp⟩)
  refine (yields_value true maxNesting room).bind fun v hv => yields_pure ⟨hn, htype, fun d hd => ?_⟩
  rwa [← Option.mem_some.mp hd]

/-- An operation behind its keyword. -/
theorem yields_explicitOperation (kind : OperationKind) (position : Position) :
    (explicitOperation kind position).Yields (Roomy maxNesting) (Roomy maxNesting) Operation.Fits := by
  have hrest : ∀ operationName : Option String, (∀ n ∈ operationName, IsName n.toList) →
      Parser.Yields (Roomy maxNesting) (Roomy maxNesting) Operation.Fits (do
        let parameters ← optionalBetween "(" ")" variableDefinition
        let dirs ← directives
        return Operation.explicit kind position operationName parameters dirs
          (← selectionSet maxNesting)) := by
    intro operationName hname
    have hparameters : ∀ r, variableDefinition.Yields (Roomy r) (Roomy r) (VariableDefinition.Fits r) :=
      fun _ => yields_variableDefinition
    refine (yields_optionalBetween (by decide) (by decide) hparameters).bind fun parameters hp => ?_
    refine yields_directives.bind fun dirs hdirs => ?_
    exact (yields_selectionSet maxNesting maxNesting).bind fun selections hbody =>
      yields_pure (.explicit hname hp hdirs hbody)
  unfold explicitOperation
  refine yields_looking fun _ => Yields.ite ?_ (hrest none (by simp))
  refine yields_name.bind fun n hn => hrest (some n) fun m hm => ?_
  rwa [← Option.mem_some.mp hm]

/-- A fragment behind its keyword. -/
theorem yields_fragmentDefinition (position : Position) :
    (fragmentDefinition position).Yields (Roomy maxNesting) (Roomy maxNesting) FragmentDefinition.Fits := by
  unfold fragmentDefinition
  refine yields_name.bind fun n hn => ?_
  refine yields_keyword.bind fun _ _ => ?_
  refine yields_name.bind fun onType htype => ?_
  refine yields_directives.bind fun dirs hdirs => ?_
  exact (yields_selectionSet maxNesting maxNesting).bind fun selections hbody =>
    yields_pure ⟨hn, htype, hdirs, hbody⟩

/-- A definition, by the word or brace it starts with. -/
theorem yields_definition :
    definition.Yields (Roomy maxNesting) (Roomy maxNesting) Definition.Fits := by
  have hkeyword : (tokenThat fun t =>
      t.kind = .name && ["query", "mutation", "subscription", "fragment"].contains t.text).Yields
      (Roomy maxNesting) (Roomy maxNesting) fun _ => True := by
    refine yields_plainToken fun t hp => ⟨?_, fun _ => trivial⟩
    rw [show t.kind = .name by simp_all]
    decide
  unfold definition
  refine yields_get.bind fun ts _ => ?_
  refine yields_looking fun _ => Yields.ite ?_ ?_
  · exact (yields_selectionSet maxNesting maxNesting).bind fun selections hbody =>
      yields_pure (.shorthand hbody)
  refine hkeyword.bind fun t _ => Yields.ite ?_ ?_
  · exact (yields_fragmentDefinition ts.position).bind fun f hf => yields_pure hf
  · exact (yields_explicitOperation _ ts.position).bind fun o ho => yields_pure ho

end

/-- Every definition of a parsed document fits. -/
theorem fits_of_parseDocument {source : String} {ds : List Definition}
    (h : parseDocument source = .ok ds) : ∀ d ∈ ds, d.Fits :=
  forall_mem_definitions yields_definition
    (within_tokensFrom Position.start 0 source.toList (Nat.zero_le _)) h

/-- A definition of a parsed document that has a name is named as names are. -/
theorem isName_of_parseDocument {source : String} {ds : List Definition}
    (h : parseDocument source = .ok ds) : ∀ d ∈ ds, ∀ n ∈ d.name?, IsName n.toList :=
  fun d hd => (fits_of_parseDocument h d hd).name

end QueryModule.Graphql
