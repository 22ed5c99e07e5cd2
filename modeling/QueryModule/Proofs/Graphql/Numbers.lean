import Mathlib.Data.List.TakeWhile
import QueryModule.Graphql.Number
import QueryModule.Proofs.Decimal.Shortest

/-!
# Numbers that have been written

An integer is written with its digits and read back from them. A float that is not whole is written as
its shortest decimal with a point, and the digits around the point are those of the decimal. A whole
float is written without a point, which reads as an integer.

> `floatOfText_text`: a finite float that is not whole is read back.
-/

namespace QueryModule.Graphql

open QueryModule.Decimal
open QueryModule.Text (natOfDigits)

/-- What holds of each of some things is found out by going through these only. -/
theorem forall_mem_of_all {α : Type} {p : α → Prop} [DecidablePred p] {l : List α}
    (h : (l.all fun a => p a) = true) : ∀ a ∈ l, p a :=
  fun a ha => of_decide_eq_true (List.all_eq_true.mp h a ha)

/-! ## Digits -/

/-- Digits denote a number as they do in the library. -/
theorem natOfDigits_eq (ds : List Char) : natOfDigits ds = Nat.ofDigitChars 10 ds 0 :=
  Nat.ofDigitChars_eq_foldl.symm

theorem natOfDigits_toDigits (n : Nat) : natOfDigits (Nat.toDigits 10 n) = n := by
  rw [natOfDigits_eq, Nat.ofDigitChars_ten_toDigits]

/-- Zeros in front of a number do not count. -/
theorem natOfDigits_replicate_append (k : Nat) (ds : List Char) :
    natOfDigits (List.replicate k '0' ++ ds) = natOfDigits ds := by
  rw [natOfDigits_eq, natOfDigits_eq, Nat.ofDigitChars_append, Nat.ofDigitChars_replicate_zero,
    Nat.mul_zero]

theorem isDigit_of_mem_toDigits {n : Nat} {c : Char} (h : c ∈ Nat.toDigits 10 n) : c.isDigit = true :=
  Nat.isDigit_of_mem_toDigits (by decide) (by decide) h

/-- The digits of a number without leading zeros. -/
structure IsWhole (ds : List Char) : Prop where
  digits : ∀ c ∈ ds, c.isDigit = true
  not_nil : ds ≠ []
  leading : ds = ['0'] ∨ ¬ ['0'] <+: ds

/-- They have no leading zeros. -/
theorem isWhole_toDigits (n : Nat) : IsWhole (Nat.toDigits 10 n) := by
  refine ⟨fun c hc => isDigit_of_mem_toDigits hc, Nat.toDigits_ne_nil, ?_⟩
  induction n using Nat.strongRecOn with
  | ind n ih =>
    rcases Nat.lt_or_ge n 10 with h | h
    · rw [Nat.toDigits_of_lt_base h]
      by_cases hn : n = 0
      · rw [hn]
        exact .inl rfl
      · refine .inr fun hleads => ?_
        obtain ⟨heq, -⟩ := List.cons_prefix_cons.mp hleads
        exact hn (Nat.zero_eq_digitChar.mp heq)
    · rw [Nat.toDigits_of_base_le (by decide) h]
      -- The number in front of the last digit is not zero.
      rcases ih (n / 10) (by omega) with hzero | hfront
      · have hn := natOfDigits_toDigits (n / 10)
        rw [hzero] at hn
        have : n / 10 = 0 := hn.symm
        omega
      · refine .inr fun hleads => hfront ?_
        exact List.prefix_of_prefix_length_le hleads (List.prefix_append _ _) Nat.length_toDigits_pos

/-- A number in front of which a sign may stand. -/
def signed (negative : Bool) (ds : List Char) : List Char := if negative then '-' :: ds else ds

/-- A whole number, with or without a sign, has the form of an integer. -/
theorem IsWhole.isIntText {ds : List Char} (h : IsWhole ds) (negative : Bool) :
    isIntText (signed negative ds) = true := by
  obtain ⟨c, rest, rfl⟩ := List.exists_cons_of_ne_nil h.not_nil
  have hrest : allDigits rest = true := List.all_eq_true.mpr fun x hx => h.digits x (List.mem_cons_of_mem _ hx)
  have hall : allDigits (c :: rest) = true := List.all_eq_true.mpr h.digits
  have hc : c ≠ '-' := by
    rintro rfl
    exact absurd (h.digits '-' (List.mem_cons_self ..)) (by decide)
  unfold signed
  rcases h.leading with hzero | hlead
  · rw [hzero]
    cases negative <;> decide
  · have hlead : ¬ '0' = c := fun heq => hlead (List.cons_prefix_cons.mpr ⟨heq, List.nil_prefix⟩)
    cases negative with
    | false => simp [Graphql.isIntText, hrest, hlead, hc, hc.symm, List.isPrefixOf]
    | true => simp [Graphql.isIntText, hall, hlead, List.isPrefixOf]

/-- The sign is taken off again. -/
theorem splitSign_signed {ds : List Char} (h : ∀ c ∈ ds, c.isDigit = true) (negative : Bool) :
    splitSign (signed negative ds) = (negative, ds) := by
  cases negative with
  | true => rfl
  | false =>
    show splitSign ds = (false, ds)
    unfold splitSign
    split
    · exact absurd (h '-' (List.mem_cons_self ..)) (by decide)
    · exact absurd (h '+' (List.mem_cons_self ..)) (by decide)
    · rfl

/-! ## The parts of a number -/

/-- Where there is no such character nothing is split. -/
theorem splitLast?_eq_none {p : Char → Bool} {text : List Char} (h : ∀ c ∈ text, p c = false) :
    splitLast? p text = none := by
  have htail : text.reverse.takeWhile (!p ·) = text.reverse := by
    rw [List.takeWhile_eq_self_iff]
    intro c hc
    rw [h c (List.mem_reverse.mp hc)]
    rfl
  unfold splitLast?
  rw [htail, List.reverse_reverse]
  exact if_neg (lt_irrefl _)

/-- A text is split at the last such character. -/
theorem splitLast?_append {p : Char → Bool} {front back : List Char} {c : Char} (hc : p c = true)
    (h : ∀ x ∈ back, p x = false) : splitLast? p (front ++ c :: back) = some (front, back) := by
  have htail : (front ++ c :: back).reverse.takeWhile (!p ·) = back.reverse := by
    rw [List.reverse_append, List.reverse_cons, List.append_assoc, List.takeWhile_append_of_pos,
      List.singleton_append, List.takeWhile_cons_of_neg (by simp [hc]), List.append_nil]
    intro x hx
    rw [h x (List.mem_reverse.mp hx)]
    rfl
  have hlength : (front ++ c :: back).length = front.length + back.length + 1 := by
    rw [List.length_append, List.length_cons]
    omega
  unfold splitLast?
  rw [htail, List.reverse_reverse, hlength, if_pos (by omega),
    show front.length + back.length + 1 - back.length - 1 = front.length by omega,
    List.take_left]

/-- The characters of numbers as they are written. -/
def isNumberChar (c : Char) : Bool := c.isDigit || c == '-' || c == '.'

/-- What is written without an exponent has no mark of one. -/
theorem isExponentMark_of_isNumberChar {c : Char} (h : isNumberChar c = true) :
    isExponentMark c = false := by
  by_contra hmark
  simp only [isExponentMark, Bool.not_eq_false, Bool.or_eq_true, beq_iff_eq] at hmark
  rcases hmark with rfl | rfl
  · exact absurd h (by decide)
  · exact absurd h (by decide)

/-- No character of a number ends it. -/
theorem endsNumber_of_isNumberChar {c : Char} (h : isNumberChar c = true) : endsNumber c = false := by
  by_contra hend
  rw [Bool.not_eq_false, endsNumber, List.contains_iff_mem] at hend
  have hall : ∀ x ∈ [' ', '\n', '\r', '\t', ',', '#', '!', '$', ':', '=', '@', '|', '&', '(', ')', '[',
      ']', '\x7b', '\x7d'], isNumberChar x = false :=
    forall_mem_of_all (by decide)
  rw [hall c hend] at h
  exact absurd h (by decide)

theorem isNumberChar_of_isDigit {c : Char} (h : c.isDigit = true) : isNumberChar c = true := by
  unfold isNumberChar
  rw [h]
  rfl

theorem ne_point_of_isDigit {c : Char} (h : c.isDigit = true) : c ≠ '.' := by
  rintro rfl
  exact absurd h (by decide)

/-- The characters of a signed number are its sign and those of the number. -/
theorem mem_signed {negative : Bool} {ds : List Char} {c : Char} (h : c ∈ signed negative ds) :
    c = '-' ∨ c ∈ ds := by
  cases negative with
  | false => exact .inr h
  | true => exact List.mem_cons.mp h

/-- The text of a number as a token: it starts as numbers do, and consists of their characters. -/
structure IsNumberText (text : List Char) (kind : TokenKind) : Prop where
  start : ∃ c rest, text = c :: rest ∧ (c = '-' ∨ c.isDigit = true)
  chars : ∀ c ∈ text, isNumberChar c = true
  kind : numberKind text = .ok kind

/-- A whole number starts with a minus sign or with a digit. -/
theorem start_signed {ds : List Char} (h : IsWhole ds) (negative : Bool) (more : List Char) :
    ∃ c rest, signed negative ds ++ more = c :: rest ∧ (c = '-' ∨ c.isDigit = true) := by
  obtain ⟨c, rest, rfl⟩ := List.exists_cons_of_ne_nil h.not_nil
  cases negative with
  | false => exact ⟨c, rest ++ more, rfl, .inr (h.digits c (List.mem_cons_self ..))⟩
  | true => exact ⟨'-', c :: rest ++ more, rfl, .inl rfl⟩

/-! ## Integers -/

/-- An integer is written as the digits of its absolute value, behind its sign. -/
theorem toList_toString (n : Int) :
    (toString n).toList = signed (decide (n < 0)) (Nat.toDigits 10 n.natAbs) := by
  rw [Int.toString_eq_repr, Int.repr_eq_if]
  split
  next h =>
    have hn : n.toNat = n.natAbs := by omega
    rw [Nat.repr_eq_ofList_toDigits, String.toList_ofList, hn, decide_eq_false (by omega)]
    rfl
  next h =>
    have hn : (-n).toNat = n.natAbs := by omega
    rw [String.toList_append, Nat.repr_eq_ofList_toDigits, hn, decide_eq_true (by omega)]
    exact congrArg ('-' :: ·) String.toList_ofList

/-- What is written of an integer is the text of an integer token. -/
theorem isNumberText_toString (n : Int) : IsNumberText (toString n).toList .intValue := by
  have hwhole := isWhole_toDigits n.natAbs
  have hchars : ∀ c ∈ signed (decide (n < 0)) (Nat.toDigits 10 n.natAbs),
      c ≠ '.' ∧ isNumberChar c = true := by
    intro c hc
    rcases mem_signed hc with rfl | hc
    · decide
    · exact ⟨ne_point_of_isDigit (hwhole.digits c hc), isNumberChar_of_isDigit (hwhole.digits c hc)⟩
  rw [toList_toString]
  refine ⟨?_, fun c hc => (hchars c hc).2, ?_⟩
  · have := start_signed hwhole (decide (n < 0)) []
    rwa [List.append_nil] at this
  · have hnone : (signed (decide (n < 0)) (Nat.toDigits 10 n.natAbs)).any
        (fun c => c == '.' || isExponentMark c) = false := by
      refine List.any_eq_false.mpr fun c hc => ?_
      obtain ⟨hpoint, hchar⟩ := hchars c hc
      simp [hpoint, isExponentMark_of_isNumberChar hchar]
    unfold numberKind
    rw [hnone, hwhole.isIntText]
    rfl

/-- An integer of 64 bits is read back. -/
theorem intOfText_toString {n : Int} (hlower : -2 ^ 63 ≤ n) (hupper : n < 2 ^ 63) :
    intOfText (toString n).toList = .ok n := by
  rw [toList_toString]
  unfold intOfText
  rw [splitSign_signed (isWhole_toDigits n.natAbs).digits]
  dsimp only
  rw [natOfDigits_toDigits]
  have hpow : Nat.pow 2 63 = 2 ^ 63 := rfl
  by_cases h : n < 0
  · rw [decide_eq_true h, if_pos rfl, hpow, if_pos (by omega)]
    congr 1
    omega
  · rw [decide_eq_false h, if_neg (by simp), hpow, if_pos (by omega)]
    congr 1
    omega

/-- What an integer token denotes fits in 64 bits. -/
theorem bounds_of_intOfText {text : List Char} {n : Int} (h : intOfText text = .ok n) :
    -2 ^ 63 ≤ n ∧ n < 2 ^ 63 := by
  have hpow : Nat.pow 2 63 = 2 ^ 63 := rfl
  unfold intOfText at h
  dsimp only at h
  rw [hpow] at h
  split at h
  · split at h
    · rw [← Except.ok.inj h]
      omega
    · exact absurd h (by simp)
  · split at h
    · rw [← Except.ok.inj h]
      omega
    · exact absurd h (by simp)

/-! ## Floats -/

/-- A number with a point: what stands before it and behind it. -/
structure HasPoint (text whole fraction : List Char) : Prop where
  text_eq : text = whole ++ '.' :: fraction
  whole : IsWhole whole
  digits : ∀ c ∈ fraction, c.isDigit = true
  not_nil : fraction ≠ []

/-- A number with a point is cut at the point. -/
theorem numberParts_eq {text whole fraction : List Char} (h : HasPoint text whole fraction)
    (negative : Bool) :
    numberParts (signed negative text) = ⟨signed negative whole, some fraction, none⟩ := by
  have htext : signed negative text = signed negative whole ++ '.' :: fraction := by
    rw [h.text_eq]
    cases negative <;> rfl
  have hmark : splitLast? isExponentMark (signed negative whole ++ '.' :: fraction) = none := by
    refine splitLast?_eq_none fun c hc => isExponentMark_of_isNumberChar ?_
    rcases List.mem_append.mp hc with hc | hc
    · rcases mem_signed hc with rfl | hc
      · decide
      · exact isNumberChar_of_isDigit (h.whole.digits c hc)
    · rcases List.mem_cons.mp hc with rfl | hc
      · decide
      · exact isNumberChar_of_isDigit (h.digits c hc)
  have hpoint : splitLast? (· == '.') (signed negative whole ++ '.' :: fraction)
      = some (signed negative whole, fraction) :=
    splitLast?_append rfl fun c hc => by simpa using ne_point_of_isDigit (h.digits c hc)
  unfold numberParts
  rw [htext, hmark]
  dsimp only
  rw [hpoint]

/-- It is the text of a float token. -/
theorem isNumberText_of_hasPoint {text whole fraction : List Char} (h : HasPoint text whole fraction)
    (negative : Bool) : IsNumberText (signed negative text) .floatValue := by
  refine ⟨?_, ?_, ?_⟩
  · have := start_signed h.whole negative ('.' :: fraction)
    rw [h.text_eq]
    cases negative <;> exact this
  · intro c hc
    rcases mem_signed hc with rfl | hc
    · decide
    · rw [h.text_eq] at hc
      rcases List.mem_append.mp hc with hc | hc
      · exact isNumberChar_of_isDigit (h.whole.digits c hc)
      · rcases List.mem_cons.mp hc with rfl | hc
        · decide
        · exact isNumberChar_of_isDigit (h.digits c hc)
  · have hany : (signed negative text).any (fun c => c == '.' || isExponentMark c) = true := by
      refine List.any_eq_true.mpr ⟨'.', ?_, by decide⟩
      rw [h.text_eq]
      cases negative <;> simp [signed]
    have hfraction : isFractionText fraction = true := by
      unfold isFractionText allDigits
      rw [Bool.and_eq_true]
      exact ⟨by simpa using h.not_nil, List.all_eq_true.mpr h.digits⟩
    have hfloat : isFloatText (signed negative text) = true := by
      unfold isFloatText
      rw [numberParts_eq h]
      dsimp only
      rw [h.whole.isIntText, Option.all_some, hfraction]
      rfl
    unfold numberKind
    rw [hany, hfloat]
    rfl

/-- It denotes all of its digits, as many places to the right as stand behind the point. -/
theorem floatOfText_of_hasPoint {text whole fraction : List Char} (h : HasPoint text whole fraction)
    (negative : Bool) :
    floatOfText (signed negative text)
      = .ok ⟨negative, Magnitude.ofDecimal (natOfDigits (whole ++ fraction)) (-fraction.length)⟩ := by
  unfold floatOfText
  rw [numberParts_eq h]
  dsimp only
  rw [splitSign_signed h.whole.digits]
  dsimp only
  rw [Option.getD_some, zero_sub]

/-- The digits of a decimal, filled up so that one stands in front of the last `places`. -/
def paddedDigits (d : Numeral) (places : Nat) : List Char :=
  List.replicate (places + 1 - d.text.length) '0' ++ d.text

theorem length_paddedDigits (d : Numeral) (places : Nat) :
    (paddedDigits d places).length = (places + 1 - d.text.length) + d.text.length := by
  rw [paddedDigits, List.length_append, List.length_replicate]

theorem isDigit_of_mem_paddedDigits {d : Numeral} {places : Nat} {c : Char} (h : c ∈ paddedDigits d places) :
    c.isDigit = true := by
  rcases List.mem_append.mp h with hc | hc
  · rw [List.eq_of_mem_replicate hc]
    decide
  · exact isDigit_of_mem_toDigits hc

/-- What stands in front of the point has no leading zeros. -/
theorem isWhole_take_paddedDigits {d : Numeral} (hd : d.digits ≠ 0) (places : Nat) :
    IsWhole ((paddedDigits d places).take ((paddedDigits d places).length - places)) := by
  have hlength := length_paddedDigits d places
  refine ⟨fun c hc => isDigit_of_mem_paddedDigits (List.mem_of_mem_take hc), ?_, ?_⟩
  · refine List.ne_nil_of_length_pos ?_
    rw [List.length_take]
    omega
  rcases Nat.lt_or_ge places d.text.length with hlt | hge
  · -- No zeros are filled in, and the digits of a positive number do not start with one.
    have hpadded : paddedDigits d places = d.text := by
      rw [paddedDigits, show places + 1 - d.text.length = 0 by omega, List.replicate_zero, List.nil_append]
    have hlead : ¬ ['0'] <+: d.text := by
      refine (isWhole_toDigits d.digits).leading.resolve_left fun hzero => hd ?_
      rw [← natOfDigits_toDigits d.digits, hzero]
      rfl
    rw [hpadded]
    exact .inr fun hleads => hlead (hleads.trans (List.take_prefix _ _))
  · -- One zero stands in front of the point.
    rw [show (paddedDigits d places).length - places = 1 by omega, paddedDigits,
      show places + 1 - d.text.length = (places - d.text.length) + 1 by omega, List.replicate_succ]
    exact .inl rfl

/-- A decimal with a fraction is written with a point. -/
theorem hasPoint_positional {d : Numeral} (hd : d.digits ≠ 0) {e : Nat} (he : d.exponent = .negSucc e) :
    ∃ whole fraction, HasPoint d.positional.toList whole fraction ∧ fraction.length = e + 1 ∧
      natOfDigits (whole ++ fraction) = d.digits := by
  have hlength := length_paddedDigits d (e + 1)
  have hpositional : d.positional.toList
      = (paddedDigits d (e + 1)).take ((paddedDigits d (e + 1)).length - (e + 1))
        ++ '.' :: (paddedDigits d (e + 1)).drop ((paddedDigits d (e + 1)).length - (e + 1)) := by
    unfold Numeral.positional
    dsimp only
    rw [he]
    exact String.toList_ofList
  refine ⟨_, _, ⟨hpositional, isWhole_take_paddedDigits hd (e + 1), fun c hc => ?_, ?_⟩, ?_, ?_⟩
  · exact isDigit_of_mem_paddedDigits (List.mem_of_mem_drop hc)
  · refine List.ne_nil_of_length_pos ?_
    rw [List.length_drop]
    omega
  · rw [List.length_drop]
    omega
  · rw [List.take_append_drop, paddedDigits, natOfDigits_replicate_append]
    exact natOfDigits_toDigits d.digits

/-- A float of the format. -/
def IsFloat (x : Binary64) : Prop := ∀ s e, x.magnitude = .finite s e → Magnitude.Canonical s e

/-- The float is finite and not whole. -/
def IsFraction (x : Binary64) : Prop := ∃ (s b : Nat), x.magnitude = .finite s (-(b : Int)) ∧ ¬ 2 ^ b ∣ s

/-- What is read as a float is one of the format. -/
theorem isFloat_of_floatOfText {text : List Char} {x : Binary64} (h : floatOfText text = .ok x) :
    IsFloat x := by
  intro s e hx
  unfold floatOfText at h
  dsimp only at h
  split at h
  · rw [← Except.ok.inj h] at hx
    exact canonical_of_ofDecimal hx
  · split at h
    · exact absurd h (by simp)
    · rw [← Except.ok.inj h] at hx
      exact canonical_of_ofDecimal hx

/-- A float that is not zero is written by its shortest decimal. -/
theorem text_finite {s : Nat} (hs : s ≠ 0) (negative : Bool) (e : Int) :
    Binary64.text ⟨negative, .finite s e⟩
      = (if negative then "-" else "") ++ (shortest .up s e).positional := by
  obtain ⟨n, rfl⟩ := Nat.exists_eq_succ_of_ne_zero hs
  rfl

/-- A finite float that is not whole is written with a point, and its digits round to it. -/
theorem exists_hasPoint_text {x : Binary64} (hx : IsFloat x) (hfraction : IsFraction x) :
    ∃ text whole fraction, x.text.toList = signed x.negative text ∧ HasPoint text whole fraction ∧
      Magnitude.ofDecimal (natOfDigits (whole ++ fraction)) (-fraction.length) = x.magnitude := by
  obtain ⟨s, b, hmagnitude, hwhole⟩ := hfraction
  have hc := hx s _ hmagnitude
  have hs : s ≠ 0 := by
    rintro rfl
    exact hwhole (dvd_zero _)
  obtain ⟨hdigits, -⟩ := shortest_spec .up hs hc
  have hdecimal := ofDecimal_shortest .up hs hc
  obtain ⟨e, he⟩ := Int.eq_negSucc_of_lt_zero (exponent_shortest_neg .up hs hc hwhole)
  obtain ⟨whole, fraction, hpoint, hlength, hvalue⟩ := hasPoint_positional hdigits he
  refine ⟨_, whole, fraction, ?_, hpoint, ?_⟩
  · have hx : x = ⟨x.negative, .finite s (-(b : Int))⟩ := by rw [← hmagnitude]
    rw [hx, text_finite hs, String.toList_append]
    cases x.negative <;> rfl
  · rw [hvalue, hlength, hmagnitude, ← hdecimal, he]
    rfl

/-- The text of a finite float that is not whole is that of a float. -/
theorem isNumberText_text {x : Binary64} (hx : IsFloat x) (hfraction : IsFraction x) :
    IsNumberText x.text.toList .floatValue := by
  obtain ⟨text, whole, fraction, htext, hpoint, -⟩ := exists_hasPoint_text hx hfraction
  rw [htext]
  exact isNumberText_of_hasPoint hpoint x.negative

/-- A finite float that is not whole is read back. -/
theorem floatOfText_text {x : Binary64} (hx : IsFloat x) (hfraction : IsFraction x) :
    floatOfText x.text.toList = .ok x := by
  obtain ⟨text, whole, fraction, htext, hpoint, hvalue⟩ := exists_hasPoint_text hx hfraction
  rw [htext, floatOfText_of_hasPoint hpoint, hvalue]

end QueryModule.Graphql
