import QueryModule.Graphql.Parser
import QueryModule.Proofs.Results

/-!
# What parsers keep

A parser takes tokens from the front and leaves the others as they are. So what is known of the tokens
in front of a parser says something about what it yields and about the tokens that it leaves:
`Parser.Yields` relates the three, with one rule for each way in which parsers are put together.
-/

namespace QueryModule.Graphql

/-- From tokens with the property `I`, the parser yields something with the property `Q` and leaves
tokens with the property `J`. -/
def Parser.Yields (I J : Tokens → Prop) (Q : α → Prop) (p : Parser α) : Prop :=
  ∀ ts a rest, I ts → p ts = .ok (a, rest) → Q a ∧ J rest

namespace Parser

variable {I J K : Tokens → Prop} {α β : Type} {Q : α → Prop} {R : β → Prop}

/-! ## Rules -/

/-- The result may be described by less. -/
theorem Yields.mono {p : Parser α} {Q' : α → Prop} (h : p.Yields I J Q) (hQ : ∀ a, Q a → Q' a) :
    p.Yields I J Q' := by
  intro ts a rest hts heq
  obtain ⟨ha, hrest⟩ := h ts a rest hts heq
  exact ⟨hQ a ha, hrest⟩

theorem yields_pure {a : α} (h : Q a) : Yields I I Q (pure a : Parser α) := by
  intro ts b rest hts heq
  obtain ⟨rfl, rfl⟩ := Prod.mk.inj (Except.ok.inj heq)
  exact ⟨h, hts⟩

/-- Parsers one behind the other: what the first yields is known where the second starts. -/
theorem Yields.bind {p : Parser α} {f : α → Parser β} (hp : p.Yields I J Q)
    (hf : ∀ a, Q a → (f a).Yields J K R) : (p >>= f).Yields I K R := by
  intro ts b rest hts heq
  obtain ⟨⟨a, between⟩, ha, hb⟩ := ok_of_bind_eq_ok heq
  obtain ⟨hQ, hbetween⟩ := hp ts a between hts ha
  exact hf a hQ between b rest hbetween hb

theorem Yields.ite {c : Prop} [Decidable c] {p q : Parser α} (hp : p.Yields I J Q)
    (hq : q.Yields I J Q) : Yields I J Q (if c then p else q) := by
  split
  · exact hp
  · exact hq

/-- A parser that always fails yields whatever one likes. -/
theorem yields_of_error {p : Parser α} (h : ∀ ts, ∃ e, p ts = .error e) : p.Yields I J Q := by
  intro ts a rest _ heq
  obtain ⟨e, he⟩ := h ts
  rw [he] at heq
  exact absurd heq (by simp)

theorem yields_failAt {position : Position} {cause : Option SyntaxCause} :
    Yields I J Q (failAt position cause : Parser α) := yields_of_error fun _ => ⟨_, rfl⟩

theorem yields_get : Yields I I (fun _ => True) (get : Parser Tokens) := by
  intro ts a rest hts heq
  obtain ⟨rfl, rfl⟩ := Prod.mk.inj (Except.ok.inj heq)
  exact ⟨trivial, hts⟩

/-- A look ahead takes nothing. -/
theorem yields_looking {g : Tokens → Bool} {f : Bool → Parser β} (h : ∀ b, (f b).Yields I J R) :
    (looking g >>= f).Yields I J R := by
  intro ts b rest hts heq
  exact h (g ts) ts b rest hts heq

/-- What a look ahead has found is known of the tokens that follow. -/
theorem yields_lookingAt {g : Tokens → Bool} {f : Bool → Parser β}
    (h : ∀ b, (f b).Yields (fun ts => I ts ∧ g ts = b) J R) : (looking g >>= f).Yields I J R := by
  intro ts b rest hts heq
  exact h (g ts) ts b rest ⟨hts, rfl⟩ heq

theorem Yields.weaken {I' : Tokens → Prop} {p : Parser α} (h : p.Yields I J Q)
    (hI : ∀ ts, I' ts → I ts) : p.Yields I' J Q := fun ts a rest hts => h ts a rest (hI ts hts)

/-- A token that is wanted yields what is known of it and of the tokens behind it. -/
theorem yields_tokenThat {p : Token → Bool} {Q : Token → Prop}
    (h : ∀ t rest, I (.next t rest) → p t = true → Q t ∧ J rest) : (tokenThat p).Yields I J Q := by
  intro ts a rest hts heq
  cases ts with
  | finished position => exact absurd heq (by simp [tokenThat])
  | broken position e => exact absurd heq (by simp [tokenThat])
  | next t others =>
    change (if p t then Except.ok (t, others) else .error _) = .ok (a, rest) at heq
    by_cases hp : p t = true
    · rw [if_pos hp] at heq
      obtain ⟨rfl, rfl⟩ := Prod.mk.inj (Except.ok.inj heq)
      exact h t others hts hp
    · rw [if_neg hp] at heq
      exact absurd heq (by simp)

/-- That something is required does not change what it yields. -/
theorem Yields.required {p : Parser α} (h : p.Yields I J Q) : (required p).Yields I J Q := by
  intro ts a rest hts heq
  unfold Parser.required at heq
  split at heq
  · exact absurd heq (by simp)
  · exact h ts a rest hts heq

/-! ## Optional punctuators -/

/-- An optional punctuator that comes next is read as a required one. -/
theorem optionalPunctuator_present {text : String} {ts : Tokens} (h : ts.startsWith text = true)
    (f : Bool → Parser β) :
    (optionalPunctuator text >>= f) ts = (punctuator text >>= fun _ => f true) ts := by
  show ((if ts.startsWith text = true then _ else _ : Parser Bool) ts).bind _ = _
  rw [if_pos h]
  show ((punctuator text ts).bind _).bind _ = (punctuator text ts).bind _
  cases punctuator text ts <;> rfl

theorem optionalPunctuator_absent {text : String} {ts : Tokens} (h : ts.startsWith text = false)
    (f : Bool → Parser β) : (optionalPunctuator text >>= f) ts = f false ts := by
  show ((if ts.startsWith text = true then _ else _ : Parser Bool) ts).bind _ = _
  rw [if_neg (by simp [h])]
  rfl

/-- So both ways of going on have to keep the promise. -/
theorem yields_optionalPunctuator {P : Token → Prop} {text : String} {f : Bool → Parser β}
    (hpresent : (punctuator text).Yields I J P) (htrue : ∀ t, P t → (f true).Yields J K R)
    (hfalse : (f false).Yields I K R) : (optionalPunctuator text >>= f).Yields I K R := by
  intro ts b rest hts heq
  cases h : ts.startsWith text with
  | true =>
    rw [optionalPunctuator_present h] at heq
    exact hpresent.bind htrue ts b rest hts heq
  | false =>
    rw [optionalPunctuator_absent h] at heq
    exact hfalse ts b rest hts heq

/-! ## Repetition -/

/-- A repetition keeps what each of its rounds keeps. -/
theorem Yields.repeatUntil {done : Tokens → Bool} {item : Parser α} (h : item.Yields I I Q) :
    Yields I I (fun as => ∀ a ∈ as, Q a) (repeatUntil done item) := by
  intro ts
  -- Along the rounds, each of which takes a token if another one follows.
  fun_induction Parser.repeatUntil done item ts with
  | case1 ts _ =>
    intro as rest hts heq
    obtain ⟨rfl, rfl⟩ := Prod.mk.inj (Except.ok.inj heq)
    exact ⟨by simp, hts⟩
  | case2 => exact fun _ _ _ heq => absurd heq (by simp)
  | case3 => exact fun _ _ _ heq => absurd heq (by simp)
  | case4 => exact fun _ _ _ heq => absurd heq (by simp)
  | case5 ts _ _ a between hitem _ others end' hothers ih =>
    intro as rest hts heq
    obtain ⟨rfl, rfl⟩ := Prod.mk.inj (Except.ok.inj heq)
    obtain ⟨ha, hbetween⟩ := h ts a between hts hitem
    obtain ⟨hall, hrest⟩ := ih _ _ hbetween hothers
    exact ⟨List.forall_mem_cons.mpr ⟨ha, hall⟩, hrest⟩
  | case6 ts _ _ a between hitem _ =>
    intro as rest hts heq
    obtain ⟨rfl, rfl⟩ := Prod.mk.inj (Except.ok.inj heq)
    obtain ⟨ha, hbetween⟩ := h ts a _ hts hitem
    exact ⟨by simpa using ha, hbetween⟩

end Parser

/-- Every definition that is read from tokens with the property has what the parser promises. -/
theorem forall_mem_definitions {I : Tokens → Prop} {Q : α → Prop} {definition : Parser α}
    (h : definition.Yields I I Q) {ts : Tokens} (hts : I ts) {ds : List α}
    (hds : definitions definition ts = .ok ds) : ∀ d ∈ ds, Q d := by
  obtain ⟨⟨first, between⟩, hfirst, hds⟩ := ok_of_bind_eq_ok hds
  obtain ⟨⟨others, rest⟩, hothers, hds⟩ := ok_of_bind_eq_ok hds
  obtain ⟨hQ, hbetween⟩ := h ts first between hts hfirst
  obtain ⟨hall, -⟩ := h.repeatUntil between others rest hbetween hothers
  -- Where the source ends well, the definitions are all that have been read.
  have hds' : ds = first :: others := by
    cases rest with
    | broken position e => exact absurd hds (by simp)
    | next t rest => exact (Except.ok.inj hds).symm
    | finished position => exact (Except.ok.inj hds).symm
  rw [hds']
  exact List.forall_mem_cons.mpr ⟨hQ, hall⟩

end QueryModule.Graphql
