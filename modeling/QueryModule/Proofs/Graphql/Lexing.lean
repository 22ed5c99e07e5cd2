import QueryModule.Proofs.Graphql.BlockStrings
import QueryModule.Proofs.Graphql.Names
import QueryModule.Proofs.Graphql.Numbers
import QueryModule.Proofs.Graphql.QuotedStrings

/-!
# Tokens in front of a text

Where a source starts with the text of a token, its first token is that one, as long as what follows
does not continue it (`IsLexeme`, `tokensFrom_lexeme`). A name, a number or a string is not continued by
what ends a number (`EndsToken`), and punctuators are never continued.

What a look ahead finds depends on no more than the first character that is not skipped, the `front` of
the source.
-/

namespace QueryModule.Graphql

/-! ## The front of a source -/

/-- The first character that is not skipped. -/
def front (source : List Char) : Option Char := source.find? (!isSkipped ·)

theorem front_cons_of_skipped {c : Char} (h : isSkipped c = true) (rest : List Char) :
    front (c :: rest) = front rest := List.find?_cons_of_neg (by simp [h])

theorem front_cons {c : Char} (h : isSkipped c = false) (rest : List Char) : front (c :: rest) = some c :=
  List.find?_cons_of_pos (by simp [h])

/-- What comes first does so whatever is behind it. -/
theorem front_append {source : List Char} {c : Char} (h : front source = some c) (rest : List Char) :
    front (source ++ rest) = some c := by
  unfold front at h ⊢
  rw [List.find?_append, h]
  rfl

/-- White space in front of a text does not count. -/
theorem front_blank_append {blank : List Char} (h : ∀ c ∈ blank, isSkipped c = true) (rest : List Char) :
    front (blank ++ rest) = front rest := by
  unfold front
  rw [List.find?_append, List.find?_eq_none.mpr (by simpa using h), Option.none_or]

/-- In front of the first character that counts there is only what is skipped. -/
theorem blank_of_front {source : List Char} {c : Char} (h : front source = some c) :
    ∃ blank more, source = blank ++ c :: more ∧ ∀ x ∈ blank, isSkipped x = true := by
  obtain ⟨-, blank, more, heq, hblank⟩ := List.find?_eq_some_iff_append.mp h
  exact ⟨blank, more, heq, fun x hx => by simpa using hblank x hx⟩

theorem isSkipped_space : ∀ c ∈ [' '], isSkipped c = true := by simp [isSkipped]

theorem isSkipped_lineFeed : ∀ c ∈ ['\n'], isSkipped c = true := by simp [isSkipped]

/-- White space moves the position and nothing else. -/
theorem tokensFrom_blank {blank : List Char} (h : ∀ c ∈ blank, isSkipped c = true) (position : Position)
    (nesting : Nat) (rest : List Char) :
    ∃ after, tokensFrom position nesting (blank ++ rest) = tokensFrom after nesting rest := by
  induction blank generalizing position with
  | nil => exact ⟨position, rfl⟩
  | cons c blank ih =>
    rw [List.cons_append, tokensFrom, if_pos (h c (List.mem_cons_self ..))]
    exact ih (fun x hx => h x (List.mem_cons_of_mem _ hx)) (skip position c)

/-- The first token starts with the first character that is not skipped, and is a punctuator if that
is one. -/
theorem token_of_front {position : Position} {nesting : Nat} {source : List Char} {c : Char} {t : Token}
    {rest : Tokens} (hfront : front source = some c) (hcomment : c ≠ '#')
    (h : tokensFrom position nesting source = .next t rest) :
    t.text.toList.head? = some c ∧ (isPunctuator c = true → t.kind = .punctuator) := by
  -- Along the white space in front of the token.
  induction source generalizing position with
  | nil => exact absurd hfront (by simp [front])
  | cons d source ih =>
    by_cases hd : isSkipped d = true
    · rw [tokensFrom, if_pos hd] at h
      rw [front_cons_of_skipped hd] at hfront
      exact ih hfront h
    · obtain rfl : d = c := Option.some.inj ((front_cons (by simpa using hd) source).symm.trans hfront)
      rw [tokensFrom, if_neg hd, if_neg hcomment] at h
      split at h
      · exact absurd h (by simp)
      split at h
      · exact absurd h (by simp)
      next kind n hlexeme =>
        obtain ⟨rfl, -⟩ := Tokens.next.inj h
        refine ⟨by rw [String.toList_ofList]; rfl, fun hpunctuator => ?_⟩
        rw [lexeme, if_pos hpunctuator] at hlexeme
        exact (Prod.mk.inj (Except.ok.inj hlexeme)).1.symm

/-- Where nothing but white space is left the tokens end. -/
theorem tokensFrom_of_front_eq_none {position : Position} {nesting : Nat} {source : List Char}
    (h : front source = none) : ∃ after, tokensFrom position nesting source = .finished after := by
  have hall : ∀ c ∈ source, isSkipped c = true := by simpa [front] using h
  obtain ⟨after, hafter⟩ := tokensFrom_blank hall position nesting []
  exact ⟨after, by rw [← List.append_nil source, hafter, tokensFrom]⟩

/-- A punctuator that starts with another character does not come next. -/
theorem not_startsWith {source : List Char} {text : String} {p : Char} (hp : text.toList.head? = some p)
    (h : ∀ c ∈ front source, c ≠ p ∧ c ≠ '#') (position : Position) (nesting : Nat) :
    (tokensFrom position nesting source).startsWith text = false := by
  cases hfront : front source with
  | none =>
    obtain ⟨after, hafter⟩ := tokensFrom_of_front_eq_none hfront
    rw [hafter]
    rfl
  | some c =>
    obtain ⟨hne, hcomment⟩ := h c hfront
    cases htokens : tokensFrom position nesting source with
    | finished => rfl
    | broken => rfl
    | next t rest =>
      obtain ⟨hhead, -⟩ := token_of_front hfront hcomment htokens
      by_contra hstarts
      obtain ⟨-, rfl⟩ : t.kind = .punctuator ∧ t.text = text := by
        simpa [Tokens.startsWith] using hstarts
      exact hne (Option.some.inj (hhead.symm.trans hp))

/-- What starts with a character that is no punctuator starts with no punctuator. -/
theorem not_startsWith_of_plain {source : List Char} {c : Char} (hfront : front source = some c)
    (hcomment : c ≠ '#') (hc : isPunctuator c = false) {text : String} {p : Char}
    (htext : text.toList.head? = some p) (hp : isPunctuator p = true) (position : Position) (nesting : Nat) :
    (tokensFrom position nesting source).startsWith text = false := by
  refine not_startsWith htext (fun x hx => ?_) position nesting
  obtain rfl : c = x := Option.some.inj (hfront.symm.trans hx)
  refine ⟨?_, hcomment⟩
  rintro rfl
  exact absurd hp (by simp [hc])

/-! ## Lexemes -/

/-- A source that starts with the characters has them as its first token, if what follows has the
property. -/
structure IsLexeme (c : Char) (more : List Char) (kind : TokenKind) (F : List Char → Prop) : Prop where
  visible : isSkipped c = false
  comment : c ≠ '#'
  lexeme : ∀ rest, F rest → lexeme c (more ++ rest) = .ok (kind, more.length)

/-- A lexeme is the next token, and the others are those of what follows it. -/
theorem tokensFrom_lexeme {c : Char} {more rest : List Char} {kind : TokenKind} {F : List Char → Prop}
    (h : IsLexeme c more kind F) {nesting : Nat} (hopener : isOpener c = true → nesting < maxNesting)
    (hrest : F rest) (position : Position) :
    tokensFrom position nesting (c :: (more ++ rest))
      = .next ⟨kind, String.ofList (c :: more), position⟩
          (tokensFrom (position.after (c :: more)) (nestingAfter nesting c) rest) := by
  have hroom : ¬ (isOpener c && nesting ≥ maxNesting) = true := by
    simpa using hopener
  rw [tokensFrom, if_neg (by simp [h.visible]), if_neg h.comment, if_neg hroom, h.lexeme rest hrest]
  dsimp only
  rw [List.take_left, List.drop_left]

/-- A punctuator of one character ends with it. -/
theorem isLexeme_punctuator {c : Char} (h : isPunctuator c = true) :
    IsLexeme c [] .punctuator fun _ => True := by
  have hall : ∀ c ∈ ['!', '$', ':', '=', '@', '|', '&', '(', ')', '[', ']', '\x7b', '\x7d'],
      isSkipped c = false ∧ c ≠ '#' := forall_mem_of_all (by decide)
  obtain ⟨hvisible, hcomment⟩ := hall c (List.contains_iff_mem.mp h)
  exact ⟨hvisible, hcomment, fun rest _ => if_pos h⟩

theorem isLexeme_dots : IsLexeme '.' ['.', '.'] .punctuator fun _ => True :=
  ⟨by decide, by decide, fun _ _ => rfl⟩

/-- What follows does not continue a name, a number or a string. -/
def EndsToken (rest : List Char) : Prop := ∀ c ∈ rest.head?, endsNumber c = true

/-- A run of characters of a token ends where the token does. -/
theorem EndsToken.takeWhile_append {rest : List Char} (h : EndsToken rest) {p : Char → Bool}
    (hp : ∀ c, p c = true → endsNumber c = false) {more : List Char} (hmore : ∀ c ∈ more, p c = true) :
    (more ++ rest).takeWhile p = more := by
  rw [List.takeWhile_append_of_pos hmore]
  cases rest with
  | nil => simp
  | cons c rest =>
    have hc : ¬ p c = true := fun hc => by
      have := h c rfl
      rw [hp c hc] at this
      exact absurd this (by decide)
    rw [List.takeWhile_cons_of_neg hc, List.append_nil]

/-- The characters of names play no other part. -/
theorem plain_of_isNameChar {c : Char} (h : isNameChar c = true) :
    isSkipped c = false ∧ c ≠ '#' ∧ isPunctuator c = false ∧ c ≠ '.' ∧ endsNumber c = false := by
  have hall : ∀ x ∈ [' ', ',', '\t', '\n', '\r', '#', '.', '!', '$', ':', '=', '@', '|', '&', '(', ')', '[',
      ']', '\x7b', '\x7d', Char.ofNat 0xFEFF], isNameChar x = false :=
    forall_mem_of_all (by decide)
  have hnot : ∀ x ∈ [' ', ',', '\t', '\n', '\r', '#', '.', '!', '$', ':', '=', '@', '|', '&', '(', ')', '[',
      ']', '\x7b', '\x7d', Char.ofNat 0xFEFF], c ≠ x := by
    rintro x hx rfl
    rw [hall c hx] at h
    exact absurd h (by decide)
  have hmark : c.toNat ≠ 0xFEFF := fun heq =>
    hnot (Char.ofNat 0xFEFF) (by simp) (by rw [← Char.ofNat_toNat c, heq])
  simp only [List.forall_mem_cons] at hnot
  simp [isSkipped, isPunctuator, endsNumber, hnot, hmark]

/-- What starts a name can go on with it. -/
theorem isNameChar_of_isNameStart {c : Char} (h : isNameStart c = true) : isNameChar c = true := by
  unfold isNameStart at h
  unfold isNameChar Char.isAlphanum
  rw [Bool.or_eq_true] at h
  rcases h with h | h <;> simp [h]

/-- A name is a token when nothing behind it continues it. -/
theorem isLexeme_name {c : Char} {more : List Char} (h : IsName (c :: more)) :
    IsLexeme c more .name EndsToken := by
  obtain ⟨d, rest, heq, hstart, hchars⟩ := h
  obtain ⟨rfl, rfl⟩ := List.cons.inj heq
  obtain ⟨hvisible, hcomment, hpunctuator, hdot, -⟩ := plain_of_isNameChar (isNameChar_of_isNameStart hstart)
  refine ⟨hvisible, hcomment, fun rest hrest => ?_⟩
  unfold lexeme
  rw [if_neg (by simp [hpunctuator]), if_neg hdot, if_pos hstart,
    hrest.takeWhile_append (fun x hx => (plain_of_isNameChar hx).2.2.2.2) hchars]

/-- What a number starts with plays no other part. -/
theorem plain_of_isNumberChar {c : Char} (h : c = '-' ∨ c.isDigit = true) :
    isSkipped c = false ∧ c ≠ '#' ∧ isPunctuator c = false ∧ c ≠ '.' ∧ isNameStart c = false := by
  rcases h with rfl | h
  · decide
  · have hchar : isNameChar c = true := by
      unfold isNameChar Char.isAlphanum
      simp [h]
    obtain ⟨hvisible, hcomment, hpunctuator, hdot, -⟩ := plain_of_isNameChar hchar
    refine ⟨hvisible, hcomment, hpunctuator, hdot, ?_⟩
    have hunderscore : c ≠ '_' := by
      rintro rfl
      exact absurd h (by decide)
    have halpha : c.isAlpha = false := by
      have hdigit : c.toNat ≤ 57 :=
        UInt32.le_iff_toNat_le.mp (of_decide_eq_true ((Bool.and_eq_true ..).mp h).2)
      have hupper : ¬ (c.val ≥ 'A'.val ∧ c.val ≤ 'Z'.val) := fun hc => by
        have : 65 ≤ c.toNat := UInt32.le_iff_toNat_le.mp hc.1
        omega
      have hlower : ¬ c.val ≥ 'a'.val := fun hc => by
        have : 97 ≤ c.toNat := UInt32.le_iff_toNat_le.mp hc
        omega
      show (decide _ || decide _ && _) = false
      rw [decide_eq_false hupper, decide_eq_false hlower]
      rfl
    simp [isNameStart, hunderscore, halpha]

/-- A number is a token when nothing behind it continues it. -/
theorem isLexeme_number {c : Char} {more : List Char} {kind : TokenKind} (h : IsNumberText (c :: more) kind) :
    IsLexeme c more kind EndsToken := by
  obtain ⟨⟨d, rest, heq, hstart⟩, hchars, hkind⟩ := h
  obtain ⟨rfl, rfl⟩ := List.cons.inj heq
  obtain ⟨hvisible, hcomment, hpunctuator, hdot, hname⟩ := plain_of_isNumberChar hstart
  refine ⟨hvisible, hcomment, fun rest hrest => ?_⟩
  have htail : (more ++ rest).takeWhile (!endsNumber ·) = more := by
    refine hrest.takeWhile_append (fun x hx => by simpa using hx) fun x hx => ?_
    simp [endsNumber_of_isNumberChar (hchars x (List.mem_cons_of_mem _ hx))]
  unfold lexeme
  rw [if_neg (by simp [hpunctuator]), if_neg hdot, if_neg (by simp [hname]),
    if_pos (by simpa using hstart), htail]
  show (numberKind (c :: more)).map _ = _
  rw [hkind]
  rfl

/-- So is a quoted string: the escapes inside of it do not close it. -/
theorem isLexeme_quotedString (text : List Char) :
    IsLexeme '"' (quotedContent text ++ ['"']) .stringValue EndsToken := by
  refine ⟨by decide, by decide, fun rest hrest => ?_⟩
  have hquote : ¬ ['"'] <+: rest := by
    rintro ⟨more, rfl⟩
    exact absurd (hrest '"' rfl) (by decide)
  have hblock : ['"', '"'].isPrefixOf (quotedContent text ++ '"' :: rest) = false := by
    rw [← Bool.not_eq_true, List.isPrefixOf_iff_prefix]
    exact not_isPrefix_content text hquote
  unfold lexeme
  rw [List.append_assoc, List.singleton_append, if_neg (by decide), if_neg (by decide), if_neg (by decide),
    if_neg (by decide), if_pos rfl, hblock, if_neg (by decide), quotedLength?_content]
  simp

/-- A block string is a token whatever is behind it. -/
theorem isLexeme_blockString (indent : Nat) (text : List Char) :
    IsLexeme '"' ('"' :: '"' :: (blockContent indent text ++ tripleMark)) .blockString fun _ => True := by
  refine ⟨by decide, by decide, fun rest _ => ?_⟩
  have hopens : ['"', '"'].isPrefixOf ('"' :: '"' :: (blockContent indent text ++ tripleMark) ++ rest) = true :=
    rfl
  have hcontent : ('"' :: '"' :: (blockContent indent text ++ tripleMark) ++ rest).drop 2
      = blockContent indent text ++ (tripleMark ++ rest) := List.append_assoc ..
  unfold lexeme
  rw [if_neg (by decide), if_neg (by decide), if_neg (by decide), if_neg (by decide), if_pos rfl,
    if_pos hopens, hcontent, blockLength?_content]
  simp [tripleMark]

end QueryModule.Graphql
