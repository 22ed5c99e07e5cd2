import QueryModule.Proofs.Graphql.Lexing
import QueryModule.Proofs.Graphql.Parsing

/-!
# Parsers on texts

A parser that takes exactly the tokens of a text, and goes on with what follows it, reads the text:
`Parser.Reads` says so of every text that may follow. There is one rule for each way in which parsers are
put together, which cuts the text where the parser is cut. The rules also count tokens, because a
repetition only goes on while its rounds take some.
-/

namespace QueryModule.Graphql

/-- What follows does not continue a token, and its first visible character is none of some. -/
structure Follows (avoided : List Char) (rest : List Char) : Prop where
  ends : EndsToken rest
  avoids : ∀ c ∈ front rest, c ∉ '#' :: avoided

/-- What may follow under more restrictions may follow under fewer. -/
theorem Follows.mono {avoided less rest : List Char} (h : Follows avoided rest) (hless : less ⊆ avoided) :
    Follows less rest := by
  refine ⟨h.ends, fun c hc hmem => h.avoids c hc ?_⟩
  rcases List.mem_cons.mp hmem with rfl | hmem
  · exact List.mem_cons_self ..
  · exact List.mem_cons_of_mem _ (hless hmem)

theorem endsToken_cons {c : Char} (h : endsNumber c = true) (rest : List Char) : EndsToken (c :: rest) := by
  intro d hd
  rwa [← Option.mem_some.mp hd]

/-- A visible character follows if it ends a token and is not to be avoided. -/
theorem follows_cons {c : Char} {avoided : List Char} (hends : endsNumber c = true)
    (hvisible : isSkipped c = false) (hc : c ∉ '#' :: avoided) (rest : List Char) :
    Follows avoided (c :: rest) := by
  refine ⟨endsToken_cons hends rest, fun d hd => ?_⟩
  rw [front_cons hvisible] at hd
  rwa [← Option.mem_some.mp hd]

/-- White space follows if what becomes visible behind it may. -/
theorem follows_blank {c : Char} {avoided rest : List Char} (hends : endsNumber c = true)
    (hskipped : isSkipped c = true) (hrest : ∀ x ∈ front rest, x ∉ '#' :: avoided) :
    Follows avoided (c :: rest) := by
  refine ⟨endsToken_cons hends rest, fun d hd => ?_⟩
  rw [front_cons_of_skipped hskipped] at hd
  exact hrest d hd

theorem endsToken_space (rest : List Char) : EndsToken (' ' :: rest) := endsToken_cons rfl rest

/-- A space may follow where what becomes visible behind it may. -/
theorem follows_space {avoided rest : List Char} (hrest : ∀ x ∈ front rest, x ∉ '#' :: avoided) :
    Follows avoided (' ' :: rest) := follows_blank rfl rfl hrest

/-- In front of some texts, the parser takes the text and leaves the others. It finds `n` brackets open
and leaves `m`, and yields something with the property `Q`. -/
def Parser.Reads (text : List Char) (n m : Nat) (F : List Char → Prop) (Q : α → Prop) (p : Parser α) : Prop :=
  ∀ position rest, F rest → ∃ a after,
    p (tokensFrom position n (text ++ rest)) = .ok (a, tokensFrom after m rest) ∧ Q a ∧
      (tokensFrom after m rest).size ≤ (tokensFrom position n (text ++ rest)).size ∧
      (front text ≠ none →
        (tokensFrom after m rest).size < (tokensFrom position n (text ++ rest)).size)

namespace Parser

variable {α β : Type} {s t : List Char} {n m k : Nat} {F G : List Char → Prop} {Q : α → Prop}
  {R : β → Prop}

/-! ## Rules -/

/-- The result of reading may be described by less. -/
theorem Reads.mono {p : Parser α} {Q' : α → Prop} (h : p.Reads s n m F Q) (hQ : ∀ a, Q a → Q' a) :
    p.Reads s n m F Q' := by
  intro position rest hrest
  obtain ⟨a, after, ha, hQa, hsize⟩ := h position rest hrest
  exact ⟨a, after, ha, hQ a hQa, hsize⟩

theorem Reads.before {p : Parser α} (h : p.Reads s n m F Q) (hF : ∀ rest, G rest → F rest) :
    p.Reads s n m G Q := fun position rest hrest => h position rest (hF rest hrest)

theorem reads_pure {a : α} (h : Q a) : Reads [] n n F Q (pure a : Parser α) := by
  intro position rest _
  exact ⟨a, position, rfl, h, Nat.le_refl _, fun hfront => absurd rfl hfront⟩

/-- Parsers one behind the other read texts one behind the other. The first text has to be one that the
second may follow. -/
theorem Reads.bind {p : Parser α} {f : α → Parser β} (hp : p.Reads s n k F Q)
    (hF : ∀ rest, G rest → F (t ++ rest)) (hf : ∀ a, Q a → (f a).Reads t k m G R) :
    (p >>= f).Reads (s ++ t) n m G R := by
  intro position rest hrest
  obtain ⟨a, between, ha, hQ, hle, hlt⟩ := hp position (t ++ rest) (hF rest hrest)
  obtain ⟨b, after, hb, hR, hle', hlt'⟩ := hf a hQ between rest hrest
  rw [List.append_assoc]
  refine ⟨b, after, ?_, hR, hle'.trans hle, fun hfront => ?_⟩
  · show (p _).bind _ = _
    rw [ha]
    exact hb
  · -- One of the two texts has a token.
    by_cases hs : front s = none
    · have ht : front t ≠ none := by
        intro ht
        refine hfront ?_
        unfold front at hs ht ⊢
        rw [List.find?_append, hs, ht]
        rfl
      exact lt_of_lt_of_le (hlt' ht) hle
    · exact lt_of_le_of_lt hle' (hlt hs)

/-- What is made of the result without reading on. -/
theorem Reads.bind_pure {p : Parser α} {f : α → β} (hp : p.Reads s n m F Q) (hf : ∀ a, Q a → R (f a)) :
    Reads s n m F R (p >>= fun a => pure (f a)) := by
  rw [← List.append_nil s]
  exact hp.bind (fun _ hrest => hrest) fun a ha => reads_pure (hf a ha)

/-- White space in front of a text. -/
theorem Reads.blank {p : Parser α} {blank : List Char} (hblank : ∀ c ∈ blank, isSkipped c = true)
    (h : p.Reads t n m F Q) : p.Reads (blank ++ t) n m F Q := by
  intro position rest hrest
  obtain ⟨start, hstart⟩ := tokensFrom_blank hblank position n (t ++ rest)
  rw [List.append_assoc, hstart, front_blank_append hblank]
  exact h start rest hrest

/-- A space in front of a text. -/
theorem Reads.space {p : Parser α} (h : p.Reads t n m F Q) : p.Reads ([' '] ++ t) n m F Q :=
  h.blank isSkipped_space

/-- White space behind a text. -/
theorem Reads.trailing {p : Parser α} {blank : List Char} (hblank : ∀ c ∈ blank, isSkipped c = true)
    (hF : ∀ rest, G rest → F (blank ++ rest)) (h : p.Reads s n m F Q) :
    p.Reads (s ++ blank) n m G Q := by
  intro position rest hrest
  obtain ⟨a, between, ha, hQ, hle, hlt⟩ := h position (blank ++ rest) (hF rest hrest)
  obtain ⟨after, hafter⟩ := tokensFrom_blank hblank between m rest
  rw [hafter] at ha hle hlt
  rw [List.append_assoc]
  refine ⟨a, after, ha, hQ, hle, fun hfront => hlt fun hs => hfront ?_⟩
  have hb : blank.find? (!isSkipped ·) = none := List.find?_eq_none.mpr (by simpa using hblank)
  unfold front at hs ⊢
  rw [List.find?_append, hs, hb]
  rfl

/-- A look ahead whose outcome is known. -/
theorem reads_looking {g : Tokens → Bool} {f : Bool → Parser β} (b : Bool)
    (hg : ∀ position rest, F rest → g (tokensFrom position n (s ++ rest)) = b)
    (h : (f b).Reads s n m F R) : (looking g >>= f).Reads s n m F R := by
  intro position rest hrest
  have hrun : (looking g >>= f) (tokensFrom position n (s ++ rest))
      = f b (tokensFrom position n (s ++ rest)) := by
    rw [← hg position rest hrest]
    rfl
  rw [hrun]
  exact h position rest hrest

/-- A parser that looks at the tokens reads what it does for all of them. -/
theorem reads_get {f : Tokens → Parser β} (h : ∀ ts, (f ts).Reads s n m F R) :
    Reads s n m F R (get >>= f) := fun position rest hrest => h _ position rest hrest

/-- A text with a visible character is read where something is required. -/
theorem Reads.required {p : Parser α} (h : p.Reads s n m F Q) (hfront : front s ≠ none) :
    (required p).Reads s n m F Q := by
  intro position rest hrest
  obtain ⟨a, after, ha, hQ, hle, hlt⟩ := h position rest hrest
  refine ⟨a, after, ?_, hQ, hle, hlt⟩
  -- There is a token to take, and so the source is not broken here.
  have hsize := hlt hfront
  unfold Parser.required
  split
  next heq =>
    rw [heq] at hsize
    exact absurd hsize (Nat.not_lt_zero _)
  · exact ha

/-! ## Tokens -/

/-- A lexeme is read as its token, with the brackets that it opens or closes. -/
theorem reads_tokenThat {p : Token → Bool} {c : Char} {more : List Char} {kind : TokenKind}
    (h : IsLexeme c more kind F) (hopener : isOpener c = true → n < maxNesting) (hm : nestingAfter n c = m)
    (hp : ∀ position, p ⟨kind, String.ofList (c :: more), position⟩ = true) :
    (tokenThat p).Reads (c :: more) n m F fun t => t.kind = kind ∧ t.text = String.ofList (c :: more) := by
  intro position rest hrest
  rw [List.cons_append, tokensFrom_lexeme h hopener hrest, hm]
  refine ⟨_, _, if_pos (hp position), ⟨rfl, rfl⟩, ?_, fun _ => ?_⟩
  · exact Nat.le_succ _
  · exact Nat.lt_succ_self _

/-- A punctuator is read as its own text. -/
theorem reads_punctuator {text : String} {c : Char} {more : List Char} {F : List Char → Prop}
    (h : IsLexeme c more .punctuator fun _ => True) (htext : text.toList = c :: more)
    (hopener : isOpener c = true → n < maxNesting) (hm : nestingAfter n c = m) :
    (punctuator text).Reads (c :: more) n m F fun _ => True := by
  have htext' : String.ofList (c :: more) = text := by rw [← htext, String.ofList_toList]
  refine ((reads_tokenThat h hopener hm fun position => ?_).mono fun _ _ => trivial).before fun _ _ => trivial
  simp [htext']

/-- Only punctuators change the number of open brackets. -/
theorem nestingAfter_of_not_isPunctuator {c : Char} (h : isPunctuator c = false) (n : Nat) :
    isOpener c = false ∧ nestingAfter n c = n := by
  have hnot : ∀ b ∈ ['(', '[', '\x7b', ')', ']', '\x7d'], c ≠ b := by
    rintro b hb rfl
    have hall : ∀ b ∈ ['(', '[', '\x7b', ')', ']', '\x7d'], isPunctuator b = true :=
      forall_mem_of_all (by decide)
    rw [hall c hb] at h
    exact absurd h (by decide)
  simp only [List.forall_mem_cons] at hnot
  simp [isOpener, isCloser, nestingAfter, hnot]

/-- A token that is no punctuator leaves the brackets as they are. -/
theorem reads_plainToken {p : Token → Bool} {c : Char} {more : List Char} {kind : TokenKind}
    (h : IsLexeme c more kind F) (hc : isPunctuator c = false)
    (hp : ∀ position, p ⟨kind, String.ofList (c :: more), position⟩ = true) :
    (tokenThat p).Reads (c :: more) n n F fun t => t.kind = kind ∧ t.text = String.ofList (c :: more) := by
  obtain ⟨hopener, hn⟩ := nestingAfter_of_not_isPunctuator hc n
  exact reads_tokenThat h (fun ho => absurd ho (by simp [hopener])) hn hp

/-- A name is a lexeme by itself. -/
theorem exists_lexeme_of_isName {name : String} (h : IsName name.toList) :
    ∃ c more, name.toList = c :: more ∧ String.ofList (c :: more) = name ∧
      IsLexeme c more .name EndsToken ∧ isPunctuator c = false := by
  have hname := h
  obtain ⟨c, more, heq, hstart, -⟩ := h
  rw [heq] at hname
  exact ⟨c, more, heq, by rw [← heq, String.ofList_toList], isLexeme_name hname,
    (plain_of_isNameChar (isNameChar_of_isNameStart hstart)).2.2.1⟩

/-- A name is read where some names are wanted and it is one of them. -/
theorem reads_nameThat {p : Token → Bool} {name : String} (h : IsName name.toList)
    (hp : ∀ position, p ⟨.name, name, position⟩ = true) :
    (tokenThat p).Reads name.toList n n EndsToken fun t => t.kind = .name ∧ t.text = name := by
  obtain ⟨c, more, heq, htext, hlexeme, hc⟩ := exists_lexeme_of_isName h
  rw [heq]
  rw [← htext] at hp ⊢
  exact reads_plainToken hlexeme hc hp

theorem reads_nameToken {name : String} (h : IsName name.toList) :
    nameToken.Reads name.toList n n EndsToken fun t => t.kind = .name ∧ t.text = name :=
  reads_nameThat h fun _ => rfl

theorem reads_name {name : String} (h : IsName name.toList) :
    Parser.name.Reads name.toList n n EndsToken fun a => a = name := by
  unfold Parser.name
  exact (reads_nameToken h).bind_pure fun t ht => ht.2

theorem reads_keyword {word : String} (h : IsName word.toList) :
    (keyword word).Reads word.toList n n EndsToken fun _ => True :=
  (reads_nameThat h fun _ => by simp).mono fun _ _ => trivial

/-! ## Optional punctuators -/

/-- In front of a punctuator the tokens start with it. -/
theorem startsWith_of_isLexeme {text : String} {c : Char} {more : List Char}
    (h : IsLexeme c more .punctuator fun _ => True) (htext : text.toList = c :: more)
    (hopener : isOpener c = true → n < maxNesting) (position : Position) (rest : List Char) :
    (tokensFrom position n (c :: more ++ rest)).startsWith text = true := by
  rw [List.cons_append, tokensFrom_lexeme h hopener trivial, ← htext, String.ofList_toList]
  simp [Tokens.startsWith]

/-- An optional punctuator that is there is taken, and reading goes on with `true`. -/
theorem reads_optionalPunctuator {text : String} {c : Char} {more : List Char} {f : Bool → Parser β}
    (h : IsLexeme c more .punctuator fun _ => True) (htext : text.toList = c :: more)
    (hopener : isOpener c = true → n < maxNesting) (hk : nestingAfter n c = k)
    (hf : (f true).Reads t k m F R) : (optionalPunctuator text >>= f).Reads (c :: more ++ t) n m F R := by
  have htaken : (punctuator text).Reads (c :: more) n k (fun _ => True) fun _ => True :=
    reads_punctuator h htext hopener hk
  intro position rest hrest
  have hstarts := startsWith_of_isLexeme h htext hopener position (t ++ rest)
  rw [← List.append_assoc] at hstarts
  rw [optionalPunctuator_present hstarts]
  exact htaken.bind (fun _ _ => trivial) (fun _ _ => hf) position rest hrest

/-- An optional punctuator whose first character cannot come next is absent, and reading goes on with
`false`. -/
theorem reads_withoutPunctuator {text : String} {p : Char} {f : Bool → Parser β}
    (hp : text.toList.head? = some p) (hfront : ∀ rest, F rest → ∀ c ∈ front (s ++ rest), c ≠ p ∧ c ≠ '#')
    (hf : (f false).Reads s n m F R) : (optionalPunctuator text >>= f).Reads s n m F R := by
  intro position rest hrest
  rw [optionalPunctuator_absent (not_startsWith hp (hfront rest hrest) position n)]
  exact hf position rest hrest

/-- The punctuators of one character that are no brackets, as texts and as characters. -/
inductive Sign : String → Char → Prop
  | exclamation : Sign "!" '!'
  | dollar : Sign "$" '$'
  | colon : Sign ":" ':'
  | equals : Sign "=" '='
  | atSign : Sign "@" '@'

section

variable {text : String} {c : Char}

theorem Sign.toList_text (h : Sign text c) : text.toList = [c] := by cases h <;> rfl

theorem Sign.punctuates (h : Sign text c) : isPunctuator c = true := by cases h <;> rfl

theorem Sign.isLexeme (h : Sign text c) : IsLexeme c [] .punctuator fun _ => True :=
  isLexeme_punctuator h.punctuates

theorem Sign.not_isOpener (h : Sign text c) : isOpener c = true → n < maxNesting := by
  cases h <;> exact fun ho => absurd ho (by decide)

theorem Sign.nestingAfter_eq (h : Sign text c) (n : Nat) : nestingAfter n c = n := by cases h <;> rfl

/-- A sign and what is read behind it. -/
theorem Sign.reads_then (h : Sign text c) {p : Parser β} (hp : p.Reads t n m F R) :
    (punctuator text >>= fun _ => p).Reads ([c] ++ t) n m F R := by
  have hread : (punctuator text).Reads [c] n n (fun _ => True) fun _ => True :=
    reads_punctuator h.isLexeme h.toList_text h.not_isOpener (h.nestingAfter_eq n)
  exact hread.bind (fun _ _ => trivial) fun _ _ => hp

theorem Sign.reads_optional (h : Sign text c) {f : Bool → Parser β} (hf : (f true).Reads t n m F R) :
    (optionalPunctuator text >>= f).Reads ([c] ++ t) n m F R :=
  reads_optionalPunctuator h.isLexeme h.toList_text h.not_isOpener (h.nestingAfter_eq n) hf

theorem Sign.reads_without (h : Sign text c) {f : Bool → Parser β}
    (hfront : ∀ rest, F rest → ∀ x ∈ front (s ++ rest), x ≠ c ∧ x ≠ '#') (hf : (f false).Reads s n m F R) :
    (optionalPunctuator text >>= f).Reads s n m F R :=
  reads_withoutPunctuator (by rw [h.toList_text]; rfl) hfront hf

theorem Sign.startsWith (h : Sign text c) (position : Position) (rest : List Char) :
    (tokensFrom position n (c :: rest)).startsWith text = true :=
  startsWith_of_isLexeme h.isLexeme h.toList_text h.not_isOpener position rest

end

/-! ## Repetition -/

section

variable {done : Tokens → Bool} {item : Parser α}

/-- A repetition whose end is next yields nothing. -/
theorem reads_repeatUntil_nil (h : ∀ position rest, F rest → done (tokensFrom position n rest) = true) :
    Reads [] n n F (fun as : List α => as = []) (repeatUntil done item) := by
  intro position rest hrest
  refine ⟨[], position, ?_, rfl, Nat.le_refl _, fun hfront => absurd rfl hfront⟩
  rw [List.nil_append, repeatUntil, if_pos (h position rest hrest)]

/-- One whose end is not next reads an item and goes on behind it; as the item has a visible character,
tokens get fewer. -/
theorem reads_repeatUntil_cons {R : List α → Prop} (hitem : item.Reads s n n G Q) (hfront : front s ≠ none)
    (hdone : ∀ position rest t more, tokensFrom position n (s ++ rest) = .next t more →
      done (.next t more) = false)
    (hG : ∀ rest, F rest → G (t ++ rest)) (hothers : Reads t n n F R (repeatUntil done item)) :
    Reads (s ++ t) n n F (fun as => ∃ b bs, as = b :: bs ∧ Q b ∧ R bs) (repeatUntil done item) := by
  intro position rest hrest
  obtain ⟨b, between, hb, hQ, hle, hlt⟩ := hitem position (t ++ rest) (hG rest hrest)
  obtain ⟨bs, after, hbs, hR, hle', -⟩ := hothers between rest hrest
  rw [List.append_assoc]
  -- The round takes a token, and so there is one.
  have hsize := hlt hfront
  obtain ⟨first, more, htokens⟩ : ∃ first more,
      tokensFrom position n (s ++ (t ++ rest)) = .next first more := by
    cases htokens : tokensFrom position n (s ++ (t ++ rest)) with
    | next first more => exact ⟨first, more, rfl⟩
    | finished => rw [htokens] at hsize; exact absurd hsize (Nat.not_lt_zero _)
    | broken => rw [htokens] at hsize; exact absurd hsize (Nat.not_lt_zero _)
  have hgo := hdone position (t ++ rest) first more htokens
  rw [htokens] at hb hle hsize ⊢
  refine ⟨b :: bs, after, ?_, ⟨b, bs, rfl, hQ, hR⟩, hle'.trans hle, fun _ => lt_of_le_of_lt hle' hsize⟩
  rw [repeatUntil, if_neg (by simp [hgo]), if_neg (by simp [Tokens.isBroken]), hb]
  dsimp only
  rw [if_pos hsize, hbs]

/-- Every piece is read, and what is read of it is the same under `f`. -/
theorem reads_repeatUntil {f : α → β} {pieces : List α} {text : α → List Char}
    (hitem : ∀ a ∈ pieces, item.Reads (text a) n n G fun b => f b = f a)
    (hfront : ∀ a ∈ pieces, front (text a) ≠ none)
    (hdone : ∀ a ∈ pieces, ∀ position rest t more, tokensFrom position n (text a ++ rest) = .next t more →
      done (.next t more) = false)
    (hnext : ∀ a ∈ pieces, ∀ rest, G (text a ++ rest)) (hstop : ∀ rest, F rest → G rest)
    (hend : ∀ position rest, F rest → done (tokensFrom position n rest) = true) :
    Reads (pieces.flatMap text) n n F (fun bs : List α => bs.map f = pieces.map f)
      (repeatUntil done item) := by
  induction pieces with
  | nil => exact (reads_repeatUntil_nil hend).mono fun bs hbs => by rw [hbs]
  | cons a pieces ih =>
    obtain ⟨ha, hitem⟩ := List.forall_mem_cons.mp hitem
    obtain ⟨hfa, hfront⟩ := List.forall_mem_cons.mp hfront
    obtain ⟨hda, hdone⟩ := List.forall_mem_cons.mp hdone
    obtain ⟨-, hnext⟩ := List.forall_mem_cons.mp hnext
    -- What follows a piece is the next one, or what follows all of them.
    have hG : ∀ rest, F rest → G (pieces.flatMap text ++ rest) := by
      intro rest hrest
      cases pieces with
      | nil => exact hstop rest hrest
      | cons b others =>
        rw [List.flatMap_cons, List.append_assoc]
        exact hnext b (List.mem_cons_self ..) _
    rw [List.flatMap_cons]
    refine (reads_repeatUntil_cons ha hfa hda hG (ih hitem hfront hdone hnext)).mono ?_
    rintro bs ⟨b, others, rfl, hb, hothers⟩
    rw [List.map_cons, List.map_cons, hb, hothers]

end

/-! ## Brackets -/

/-- What follows is white space and a closing bracket. -/
structure ClosesWith (c : Char) (rest : List Char) : Prop where
  ends : EndsToken rest
  front : front rest = some c

/-- The three pairs of brackets, as texts and as characters. -/
inductive Brackets : String → String → Char → Char → Prop
  | round : Brackets "(" ")" '(' ')'
  | square : Brackets "[" "]" '[' ']'
  | curly : Brackets "\x7b" "\x7d" '\x7b' '\x7d'

section

variable {opener closer : String} {o c : Char}

theorem Brackets.toList_opener (h : Brackets opener closer o c) : opener.toList = [o] := by cases h <;> rfl

theorem Brackets.toList_closer (h : Brackets opener closer o c) : closer.toList = [c] := by cases h <;> rfl

theorem Brackets.opener_punctuates (h : Brackets opener closer o c) : isPunctuator o = true := by cases h <;> rfl

theorem Brackets.closer_punctuates (h : Brackets opener closer o c) : isPunctuator c = true := by cases h <;> rfl

theorem Brackets.isLexeme_opener (h : Brackets opener closer o c) : IsLexeme o [] .punctuator fun _ => True :=
  isLexeme_punctuator h.opener_punctuates

theorem Brackets.isLexeme_closer (h : Brackets opener closer o c) : IsLexeme c [] .punctuator fun _ => True :=
  isLexeme_punctuator h.closer_punctuates

theorem Brackets.nestingAfter_opener (h : Brackets opener closer o c) (n : Nat) : nestingAfter n o = n + 1 := by
  cases h <;> rfl

theorem Brackets.nestingAfter_closer (h : Brackets opener closer o c) (n : Nat) :
    nestingAfter (n + 1) c = n := by
  cases h <;> rfl

theorem Brackets.not_isOpener_closer (h : Brackets opener closer o c) : isOpener c = true → n < maxNesting := by
  cases h <;> exact fun ho => absurd ho (by decide)

/-- An opening bracket is read while the limit on nesting is not reached. -/
theorem Brackets.reads_opener (h : Brackets opener closer o c) (hn : n < maxNesting) :
    (punctuator opener).Reads [o] n (n + 1) F fun _ => True :=
  reads_punctuator h.isLexeme_opener h.toList_opener (fun _ => hn) (h.nestingAfter_opener n)

/-- A closing bracket is read on every level but the outermost. -/
theorem Brackets.reads_closer (h : Brackets opener closer o c) :
    (punctuator closer).Reads [c] (n + 1) n F fun _ => True :=
  reads_punctuator h.isLexeme_closer h.toList_closer h.not_isOpener_closer (h.nestingAfter_closer n)

theorem Brackets.startsWith_opener (h : Brackets opener closer o c) (hn : n < maxNesting)
    (position : Position) (rest : List Char) :
    (tokensFrom position n (o :: rest)).startsWith opener = true :=
  startsWith_of_isLexeme h.isLexeme_opener h.toList_opener (fun _ => hn) position rest

/-- The end of a repetition in brackets is seen through white space. -/
theorem Brackets.startsWith_closer (h : Brackets opener closer o c) {rest : List Char}
    (hrest : ClosesWith c rest) (position : Position) :
    (tokensFrom position n rest).startsWith closer = true := by
  obtain ⟨blank, more, rfl, hblank⟩ := blank_of_front hrest.front
  obtain ⟨start, hstart⟩ := tokensFrom_blank hblank position n (c :: more)
  rw [hstart]
  exact startsWith_of_isLexeme h.isLexeme_closer h.toList_closer h.not_isOpener_closer start more

/-- The closing bracket itself may follow the last piece. -/
theorem Brackets.closesWith (h : Brackets opener closer o c) (rest : List Char) :
    ClosesWith c (c :: rest) := by
  cases h with
  | round => exact ⟨by simp [EndsToken, endsNumber], rfl⟩
  | square => exact ⟨by simp [EndsToken, endsNumber], rfl⟩
  | curly => exact ⟨by simp [EndsToken, endsNumber], rfl⟩

theorem Brackets.head_opener (h : Brackets opener closer o c) : opener.toList.head? = some o := by
  rw [h.toList_opener, List.head?_cons]

theorem Brackets.head_closer (h : Brackets opener closer o c) : closer.toList.head? = some c := by
  rw [h.toList_closer, List.head?_cons]

/-- The item parser reads the texts of the pieces between white space and in front of a closing bracket,
and none of them looks like the closing bracket. -/
structure ReadsPieces (item : Parser α) (f : α → β) (pieces : List α) (text : α → List Char)
    (separator : List Char) (c : Char) (n : Nat) (G : List Char → Prop) : Prop where
  skipped : ∀ x ∈ separator, isSkipped x = true
  reads : ∀ a ∈ pieces, item.Reads (text a) n n G fun b => f b = f a
  front : ∀ a ∈ pieces, ∃ x, front (text a) = some x ∧ x ≠ c ∧ x ≠ '#'
  next : ∀ a ∈ pieces, ∀ rest, G (separator ++ text a ++ rest)
  last : ∀ rest, ClosesWith c rest → G rest

/-- Pieces with commas between them. -/
theorem readsPieces_comma {item : Parser α} {f : α → β} {pieces : List α} {text : α → List Char} {c : Char}
    (hreads : ∀ a ∈ pieces, item.Reads (text a) n n (Follows []) fun b => f b = f a)
    (hfront : ∀ a ∈ pieces, ∃ x, front (text a) = some x ∧ x ≠ c ∧ x ≠ '#') (hc : c ≠ '#') :
    ReadsPieces item f pieces text [',', ' '] c n (Follows []) where
  skipped := forall_mem_of_all (by decide)
  reads := hreads
  front := hfront
  next a ha rest := by
    obtain ⟨x, hx, -, hcomment⟩ := hfront a ha
    have hfirst : front ([' '] ++ text a ++ rest) = some x := by
      rw [List.append_assoc, front_blank_append (forall_mem_of_all (by decide)), front_append hx]
    refine follows_blank (by decide) (by decide) fun y hy => ?_
    obtain rfl : x = y := Option.some.inj (hfirst.symm.trans hy)
    simpa using hcomment
  last rest hrest := by
    refine ⟨hrest.ends, fun y hy => ?_⟩
    obtain rfl : c = y := Option.some.inj (hrest.front.symm.trans hy)
    simpa using hc

/-- Behind the first text the separator stands in front of each one. -/
theorem intercalate_cons (separator text : List Char) (texts : List (List Char)) :
    separator.intercalate (text :: texts) = text ++ texts.flatMap (separator ++ ·) := by
  induction texts generalizing text with
  | nil => simp
  | cons other texts ih =>
    rw [List.intercalate_cons_cons, ih other, List.flatMap_cons]
    simp only [List.append_assoc]

section

variable {item : Parser α} {f : α → β} {pieces : List α} {text : α → List Char} {separator : List Char}

/-- No piece is taken for the closing bracket. -/
theorem ReadsPieces.done (h : Brackets opener closer o c)
    (hp : ReadsPieces item f pieces text separator c n G) {a : α} (ha : a ∈ pieces) (position : Position)
    (rest : List Char) :
    (tokensFrom position n (text a ++ rest)).startsWith closer = false := by
  obtain ⟨x, hx, hc, hcomment⟩ := hp.front a ha
  refine not_startsWith h.head_closer (fun y hy => ?_) position n
  rw [front_append hx] at hy
  rw [← Option.mem_some.mp hy]
  exact ⟨hc, hcomment⟩

/-- The pieces behind the first, each with a separator in front of it. -/
theorem ReadsPieces.others (h : Brackets opener closer o c)
    (hp : ReadsPieces item f pieces text separator c n G) :
    Reads (pieces.flatMap fun a => separator ++ text a) n n (ClosesWith c)
      (fun bs : List α => bs.map f = pieces.map f) (repeatUntil (·.startsWith closer) item) := by
  refine reads_repeatUntil (G := G) (fun a ha => (hp.reads a ha).blank hp.skipped) (fun a ha => ?_)
    (fun a ha position rest t more htokens => ?_) hp.next hp.last
    fun position rest hrest => h.startsWith_closer hrest position
  · obtain ⟨x, hx, -⟩ := hp.front a ha
    rw [front_blank_append hp.skipped, hx]
    simp
  · obtain ⟨start, hstart⟩ := tokensFrom_blank hp.skipped position n (text a ++ rest)
    rw [← htokens, List.append_assoc, hstart]
    exact hp.done h ha start rest

/-- What reads all pieces reads all but the first. -/
theorem ReadsPieces.tail {a : α} (hp : ReadsPieces item f (a :: pieces) text separator c n G) :
    ReadsPieces item f pieces text separator c n G where
  skipped := hp.skipped
  reads b hb := hp.reads b (List.mem_cons_of_mem _ hb)
  front b hb := hp.front b (List.mem_cons_of_mem _ hb)
  next b hb := hp.next b (List.mem_cons_of_mem _ hb)
  last := hp.last

/-- What the first piece is followed by. -/
theorem ReadsPieces.follows {a : α} (hp : ReadsPieces item f (a :: pieces) text separator c n G)
    {rest : List Char} (hrest : ClosesWith c rest) :
    G ((pieces.flatMap fun b => separator ++ text b) ++ rest) := by
  cases pieces with
  | nil => exact hp.last rest hrest
  | cons b pieces =>
    rw [List.flatMap_cons, List.append_assoc]
    exact hp.next b (List.mem_cons_of_mem _ (List.mem_cons_self ..)) _

/-- The first piece is the only one without a separator in front of it. -/
theorem toList_pieces (a : α) :
    separator.intercalate ((a :: pieces).map text)
      = text a ++ pieces.flatMap fun b => separator ++ text b := by
  rw [List.map_cons, intercalate_cons, List.flatMap_map]

/-- Pieces in brackets, of which there may be none, are read one by one on the level below. -/
theorem Brackets.reads_between (h : Brackets opener closer o c) (hn : n < maxNesting)
    (hp : ReadsPieces item f pieces text separator c (n + 1) G) :
    (between opener closer item).Reads ([o] ++ (separator.intercalate (pieces.map text) ++ [c])) n n F
      fun bs => bs.map f = pieces.map f := by
  -- Inside of the brackets, the repetition goes on up to the closing one.
  have hitems : Reads (separator.intercalate (pieces.map text)) (n + 1) (n + 1) (ClosesWith c)
      (fun bs : List α => bs.map f = pieces.map f) (repeatUntil (·.startsWith closer) item) := by
    cases pieces with
    | nil =>
      refine (reads_repeatUntil_nil fun position rest hrest => ?_).mono fun bs hbs => by rw [hbs]
      exact h.startsWith_closer hrest position
    | cons a pieces =>
      have ha : a ∈ a :: pieces := List.mem_cons_self ..
      obtain ⟨x, hx, -⟩ := hp.front a ha
      rw [toList_pieces]
      refine (reads_repeatUntil_cons (hp.reads a ha) (by simp [hx]) (fun position rest t more htokens => ?_)
        (fun rest hrest => hp.follows hrest) (hp.tail.others h)).mono ?_
      · rw [← htokens]
        exact hp.done h ha position rest
      · rintro bs ⟨b, others, rfl, hb, hothers⟩
        rw [List.map_cons, List.map_cons, hb, hothers]
  unfold between
  refine (h.reads_opener (F := fun _ => True) hn).bind (fun _ _ => trivial) fun _ _ => ?_
  refine hitems.bind (fun rest _ => h.closesWith rest) fun bs hbs => ?_
  exact h.reads_closer.bind_pure fun _ _ => hbs

/-- Pieces in brackets of which there has to be one. -/
theorem Brackets.reads_someBetween (h : Brackets opener closer o c) (hn : n < maxNesting)
    (hne : pieces ≠ []) (hp : ReadsPieces item f pieces text separator c (n + 1) G) :
    (someBetween opener closer item).Reads ([o] ++ (separator.intercalate (pieces.map text) ++ [c])) n n F
      fun bs => bs.map f = pieces.map f := by
  obtain ⟨a, pieces, rfl⟩ := List.exists_cons_of_ne_nil hne
  rw [toList_pieces, List.append_assoc]
  unfold someBetween
  refine (h.reads_opener (F := fun _ => True) hn).bind (fun _ _ => trivial) fun _ _ => ?_
  refine (hp.reads a (List.mem_cons_self ..)).bind (fun rest _ => ?_) fun b hb => ?_
  · rw [List.append_assoc]
    exact hp.follows (h.closesWith rest)
  refine (hp.tail.others h).bind (fun rest _ => h.closesWith rest) fun bs hbs => ?_
  refine h.reads_closer.bind_pure fun _ _ => ?_
  rw [List.map_cons, List.map_cons, hb, hbs]

/-- Brackets that are left out when there is no piece. -/
theorem Brackets.reads_optionalBetween (h : Brackets opener closer o c)
    (hn : pieces ≠ [] → n < maxNesting) (hp : ReadsPieces item f pieces text separator c (n + 1) G)
    (hF : ∀ rest, F rest → ∀ x ∈ front rest, x ≠ o ∧ x ≠ '#') :
    (optionalBetween opener closer item).Reads
      (if pieces.isEmpty then [] else [o] ++ (separator.intercalate (pieces.map text) ++ [c])) n n F
      fun bs => bs.map f = pieces.map f := by
  unfold optionalBetween
  cases hpieces : pieces.isEmpty with
  | true =>
    rw [List.isEmpty_iff.mp hpieces]
    refine reads_looking false (fun position rest hrest => ?_) (reads_pure rfl)
    exact not_startsWith h.head_opener (hF rest hrest) position n
  | false =>
    have hne : pieces ≠ [] := fun hnil => absurd hpieces (by simp [hnil])
    refine reads_looking true (fun position rest _ => ?_) (h.reads_someBetween (hn hne) hne hp)
    exact h.startsWith_opener (hn hne) position _

end

end

/-! ## Whole sources -/

/-- One definition, and then others up to the end of the source. What ends them is of no importance here,
except that it is no token, and that the end of the source is. -/
theorem definitions_eq_ok {definition : Parser α} {ts between : Tokens} {d : α} {P : List α → Prop}
    (hd : definition ts = .ok (d, between))
    (hothers : ∀ done : Tokens → Bool, (∀ t more, done (.next t more) = false) →
      (∀ position, done (.finished position) = true) →
      ∃ ds position, repeatUntil done definition between = .ok (ds, .finished position) ∧ P ds) :
    ∃ ds, definitions definition ts = .ok (d :: ds) ∧ P ds := by
  obtain ⟨done, finish, hnext, hfinished, hfinish, heq⟩ : ∃ (done : Tokens → Bool)
      (finish : List α × Tokens → Except SyntaxError (List α)), (∀ t more, done (.next t more) = false) ∧
        (∀ position, done (.finished position) = true) ∧
        (∀ ds position, finish (ds, .finished position) = .ok (d :: ds)) ∧
        definitions definition ts = (repeatUntil done definition between).bind finish := by
    -- Both are found in the definition.
    apply Exists.intro
    apply Exists.intro
    refine ⟨?next, ?finished, ?finish, ?run⟩
    case run =>
      unfold definitions
      rw [hd]
      rfl
    case next => exact fun _ _ => rfl
    case finished => exact fun _ => rfl
    case finish => exact fun _ _ => rfl
  obtain ⟨ds, position, hds, hP⟩ := hothers done hnext hfinished
  refine ⟨ds, ?_, hP⟩
  rw [heq, hds]
  exact hfinish ds position

end Parser

end QueryModule.Graphql
