import Mathlib.Algebra.Group.Nat.Defs
import QueryModule.Json.Reader

/-!
# The grammar of JSON texts

What a JSON text is, without a reader. A value is a word, a number, a string, or values in brackets with
commas between them; white space may stand around each of them.

There are two readings of the grammar. `IsJson` asks for the syntax only. `Spells` relates a text to the
value that it denotes, and for this a value has to have one: a string has to consist of characters, so that
surrogates come in pairs; a number has to be in the range of floats (`NumberText`); and lists and objects
nest at most so deep. What denotes a value is of the right syntax (`isJson_of_spells`).
-/

namespace QueryModule.Json

open QueryModule.Decimal (Magnitude)
open QueryModule.Text (hexDigit? natOfDigits)

variable {α β κ : Type}

/-! ## White space and sequences -/

/-- White space, or nothing. -/
def IsGap (text : List Char) : Prop := ∀ c ∈ text, isSpace c = true

/-- What stands in front of an item: white space, and a comma in it unless the item is the first one. -/
inductive Lead : Bool → List Char → Prop where
  | first {gap : List Char} : IsGap gap → Lead true gap
  | next {gap gap' : List Char} : IsGap gap → IsGap gap' → Lead false (gap ++ ',' :: gap')

/-- Items with commas between them, up to the bracket that ends them. Are they the first ones? -/
inductive Sequence (Item : α → List Char → Prop) : Bool → List α → List Char → Prop where
  | nil {first : Bool} {gap : List Char} : IsGap gap → Sequence Item first [] gap
  | cons {first : Bool} {x : α} {xs : List α} {lead text rest : List Char} :
      Lead first lead → Item x text → Sequence Item false xs rest →
      Sequence Item first (x :: xs) (lead ++ text ++ rest)

/-- A list of items. -/
def ListText (Item : α → List Char → Prop) (items : List α) (text : List Char) : Prop :=
  ∃ inner, text = '[' :: inner ++ [']'] ∧ Sequence Item true items inner

/-- A key, a colon and an item. -/
def EntryText (Key : κ → List Char → Prop) (Item : α → List Char → Prop) (entry : κ × α)
    (text : List Char) : Prop :=
  ∃ key gap gap' value, Key entry.1 key ∧ IsGap gap ∧ IsGap gap' ∧ Item entry.2 value ∧
    text = key ++ gap ++ ':' :: gap' ++ value

/-- An object with items as the values of its entries. -/
def ObjectText (Key : κ → List Char → Prop) (Item : α → List Char → Prop) (entries : List (κ × α))
    (text : List Char) : Prop :=
  ∃ inner, text = '\x7b' :: inner ++ ['\x7d'] ∧ Sequence (EntryText Key Item) true entries inner

/-! ## Strings -/

/-- Four hexadecimal digits, and the number that they denote. -/
def HexFour (four : List Char) (n : Nat) : Prop :=
  ∃ w x y z, four.mapM hexDigit? = some [w, x, y, z] ∧ n = ((w * 16 + x) * 16 + y) * 16 + z

/-- The character can stand in a string as it is. -/
def IsPlain (c : Char) : Prop := c ≠ '"' ∧ c ≠ '\\' ∧ 0x20 ≤ c.toNat

/-- A character, as an escape behind a backslash writes it. -/
inductive Escaped : Char → List Char → Prop where
  | simple {c x : Char} : simpleEscape? c = some x → Escaped x [c]
  | numbered {four : List Char} {n : Nat} : HexFour four n → isHighSurrogate n = false →
      isLowSurrogate n = false → Escaped (Char.ofNat n) ('u' :: four)
  -- Either half has ten bits of a code that does not fit four digits.
  | pair {four four' : List Char} {high low : Nat} : HexFour four high → isHighSurrogate high = true →
      HexFour four' low → isLowSurrogate low = true →
      Escaped (Char.ofNat (0x10000 + (high - 0xD800) * 0x400 + (low - 0xDC00)))
        ('u' :: (four ++ '\\' :: 'u' :: four'))

/-- Some characters, as they are written in a string. -/
inductive Spelled : List Char → List Char → Prop where
  | nil : Spelled [] []
  | plain {c : Char} {s body : List Char} : IsPlain c → Spelled s body → Spelled (c :: s) (c :: body)
  | escape {x : Char} {s used body : List Char} : Escaped x used → Spelled s body →
      Spelled (x :: s) ('\\' :: used ++ body)

/-- An escape behind a backslash, whether or not it denotes a character. -/
inductive IsEscape : List Char → Prop where
  | simple {c x : Char} : simpleEscape? c = some x → IsEscape [c]
  | numbered {four : List Char} {n : Nat} : HexFour four n → IsEscape ('u' :: four)

/-- What can stand between the marks of a string. -/
inductive IsStringBody : List Char → Prop where
  | nil : IsStringBody []
  | plain {c : Char} {body : List Char} : IsPlain c → IsStringBody body → IsStringBody (c :: body)
  | escape {used body : List Char} : IsEscape used → IsStringBody body →
      IsStringBody ('\\' :: used ++ body)

/-- A string, with the marks around it. -/
def StringText (s : String) (text : List Char) : Prop :=
  ∃ body, Spelled s.toList body ∧ text = '"' :: body ++ ['"']

/-- A string of which only the syntax counts. -/
def IsString (text : List Char) : Prop := ∃ body, IsStringBody body ∧ text = '"' :: body ++ ['"']

/-! ## Numbers -/

/-- Digits, at least one. -/
def IsDigits (text : List Char) : Prop := text ≠ [] ∧ ∀ c ∈ text, c.isDigit = true

/-- Digits without a zero in front. -/
def IsWhole (text : List Char) : Prop := IsDigits text ∧ (text.head? = some '0' → text = ['0'])

/-- A fraction, or nothing. -/
inductive IsFraction : List Char → Prop where
  | none : IsFraction []
  | some {digits : List Char} : IsDigits digits → IsFraction ('.' :: digits)

/-- The sign of an exponent, or nothing. -/
inductive IsSign : List Char → Prop where
  | none : IsSign []
  | plus : IsSign ['+']
  | minus : IsSign ['-']

/-- An exponent, or nothing. -/
inductive IsExponent : List Char → Prop where
  | none : IsExponent []
  | some {mark : Char} {sign digits : List Char} : isExponentMark mark = true → IsSign sign →
      IsDigits digits → IsExponent (mark :: (sign ++ digits))

/-- A number without a sign. -/
def IsUnsigned (text : List Char) : Prop :=
  ∃ whole fraction exponent, text = whole ++ (fraction ++ exponent) ∧ IsWhole whole ∧
    IsFraction fraction ∧ IsExponent exponent

/-- A number. -/
inductive IsNumber : List Char → Prop where
  | positive {text : List Char} : IsUnsigned text → IsNumber text
  | negative {text : List Char} : IsUnsigned text → IsNumber ('-' :: text)

/-! ## What numbers denote -/

/-- Digits are put behind a significand, from left to right, for as long as it fits in 64 bits. It becomes
`significand` by so many of them. -/
def Gathers (before : Nat) (digits : List Char) (significand taken : Nat) : Prop :=
  ∃ front back, digits = front ++ back ∧ front.length = taken ∧
    significand = Nat.ofDigitChars 10 front before ∧ significand < 2 ^ 64 ∧
    ∀ d ∈ back.head?, 2 ^ 64 ≤ 10 * significand + (d.toNat - '0'.toNat)

/-- A float divided by a power of ten. A power with more than 308 places is out of range itself: there the
quotient by the first 308 is divided by the others. Every quotient is rounded. -/
inductive Divided : Magnitude → Nat → Magnitude → Prop where
  | last {x : Magnitude} {places : Nat} : places ≤ 308 →
      Divided x places (x.div (.ofRatio (10 ^ places) 1))
  | step {x y : Magnitude} {places : Nat} : 308 < places →
      Divided (x.div (.ofRatio (10 ^ 308) 1)) (places - 308) y → Divided x places y

/-- The float `significand · 10 ^ exponent`. Significand and power are rounded before they are multiplied,
and the product has to be finite; with a negative exponent there is a division, which always is. -/
inductive Scaled (significand : Nat) : Int → Magnitude → Prop where
  | zero {places : Nat} : significand = 0 → Scaled significand places .zero
  | up {places : Nat} {x : Magnitude} : significand ≠ 0 → places ≤ 308 →
      (Magnitude.ofRatio significand 1).mul (.ofRatio (10 ^ places) 1) = x → x ≠ .infinite →
      Scaled significand places x
  | down {places : Nat} {x : Magnitude} : 0 < places →
      Divided (.ofRatio significand 1) places x → Scaled significand (-places) x

/-- An exponent, or nothing: is it negative, and how great is it? -/
inductive ExponentText : Bool → Nat → List Char → Prop where
  | none : ExponentText false 0 []
  | some {mark : Char} {sign digits : List Char} : isExponentMark mark = true → IsSign sign →
      IsDigits digits → ExponentText (sign = ['-']) (natOfDigits digits) (mark :: (sign ++ digits))

/-- The float with a significand, the exponent that comes from where its point stands, and the one that is
written. A written exponent that does not fit in 31 bits makes the float zero or puts it out of range. -/
inductive Shifted (significand : Nat) (places : Int) (down : Bool) (written : Nat) :
    Magnitude → Prop where
  | near {x : Magnitude} : written < 2 ^ 31 →
      Scaled significand (if down then places - written else places + written) x →
      Shifted significand places down written x
  | far : 2 ^ 31 ≤ written → significand = 0 ∨ down = true →
      Shifted significand places down written .zero

/-- A number without its sign, which may be negative. Without fraction and exponent it is an integer if it
fits in 64 bits together with its sign, which leaves out a zero with a minus; otherwise it is a float. -/
inductive UnsignedText : Bool → Number → List Char → Prop where
  | integer {whole : List Char} : IsWhole whole → natOfDigits whole < 2 ^ 64 →
      UnsignedText false (.integer (natOfDigits whole)) whole
  | opposite {whole : List Char} : IsWhole whole → 0 < natOfDigits whole → natOfDigits whole ≤ 2 ^ 63 →
      UnsignedText true (.integer (-natOfDigits whole)) whole
  | rounded {whole : List Char} : IsWhole whole → natOfDigits whole = 0 ∨ 2 ^ 63 < natOfDigits whole →
      natOfDigits whole < 2 ^ 64 →
      UnsignedText true (.float ⟨true, .ofRatio (natOfDigits whole) 1⟩) whole
  | float {negative down : Bool} {whole fraction exponent : List Char} {x : Magnitude}
      {s s' taken taken' written : Nat} : IsWhole whole → IsFraction fraction →
      ExponentText down written exponent →
      (fraction = [] → exponent = [] → 2 ^ 64 ≤ natOfDigits whole) →
      Gathers 0 whole s taken → Gathers s fraction.tail s' taken' →
      Shifted s' (whole.length - taken - taken') down written x →
      UnsignedText negative (.float ⟨negative, x⟩) (whole ++ (fraction ++ exponent))

/-- A number that is in range, as it is written. -/
inductive NumberText : Number → List Char → Prop where
  | positive {n : Number} {text : List Char} : UnsignedText false n text → NumberText n text
  | negative {n : Number} {text : List Char} : UnsignedText true n text → NumberText n ('-' :: text)

/-! ## Values -/

/-- A value without parts, of which only the syntax counts. -/
inductive IsScalar : List Char → Prop where
  | null : IsScalar ['n', 'u', 'l', 'l']
  | yes : IsScalar ['t', 'r', 'u', 'e']
  | no : IsScalar ['f', 'a', 'l', 's', 'e']
  | number {text : List Char} : IsNumber text → IsScalar text
  | string {text : List Char} : IsString text → IsScalar text

/-- A value with at most so many levels of lists and objects, of which only the syntax counts. -/
def IsJsonWithin : Nat → List Char → Prop
  | 0, text => IsScalar text
  | levels + 1, text => IsScalar text ∨
      (∃ items : List Unit, ListText (fun _ => IsJsonWithin levels) items text) ∨
      ∃ entries : List (Unit × Unit),
        ObjectText (fun _ => IsString) (fun _ => IsJsonWithin levels) entries text

/-- A value, of which only the syntax counts. -/
def IsJson (text : List Char) : Prop := ∃ levels, IsJsonWithin levels text

/-- A value without parts. A number is one unless it is out of range. -/
inductive SpellsScalar : Value → List Char → Prop where
  | null : SpellsScalar .null ['n', 'u', 'l', 'l']
  | yes : SpellsScalar (.boolean true) ['t', 'r', 'u', 'e']
  | no : SpellsScalar (.boolean false) ['f', 'a', 'l', 's', 'e']
  | number {n : Number} {text : List Char} : NumberText n text → SpellsScalar (.number n) text
  | string {s : String} {text : List Char} : StringText s text → SpellsScalar (.string s) text

/-- The text denotes the value, which has at most so many levels of lists and objects. -/
def Spells : Nat → Value → List Char → Prop
  | 0, v, text => SpellsScalar v text
  | levels + 1, v, text => SpellsScalar v text ∨
      (∃ items, v = .list items ∧ ListText (Spells levels) items text) ∨
      ∃ entries, v = .object entries ∧ ObjectText StringText (Spells levels) entries text

/-- The text of `null`. -/
def IsNull (text : List Char) : Prop := SpellsScalar .null text

/-- The text of a truth value. -/
def BooleanText (b : Bool) (text : List Char) : Prop := SpellsScalar (.boolean b) text

/-- A value or `null`. -/
inductive OrNull (Null : β → Prop) (Holds : α → β → Prop) : Option α → β → Prop where
  | null {b : β} : Null b → OrNull Null Holds none b
  | some {a : α} {b : β} : Holds a b → OrNull Null Holds (some a) b

/-! ## Whole texts -/

/-- A value as it is written. -/
def Written (value text : List Char) : Prop := value = text ∧ IsJson text

/-- The text is a list, and its items are written like this. -/
def IsList (items : List (List Char)) (text : List Char) : Prop :=
  ∃ gap used gap', text = gap ++ (used ++ gap') ∧ IsGap gap ∧ IsGap gap' ∧ ListText Written items used

/-- The text is an object, and the values of its entries are written like this. -/
def IsObject (entries : List (String × List Char)) (text : List Char) : Prop :=
  ∃ gap used gap', text = gap ++ (used ++ gap') ∧ IsGap gap ∧ IsGap gap' ∧
    ObjectText StringText Written entries used

/-! ## What denotes a value is of the right syntax -/

/-- Items are what they are called, whatever else they are said to be. -/
theorem Sequence.map {Item : α → List Char → Prop} {Item' : β → List Char → Prop} (f : α → β)
    {first : Bool} {xs : List α} {text : List Char} (h : Sequence Item first xs text)
    (himp : ∀ x t, t.length ≤ text.length → Item x t → Item' (f x) t) :
    Sequence Item' first (xs.map f) text := by
  induction h with
  | nil hgap => exact .nil hgap
  | @cons first x xs lead item rest hlead hitem _ ih =>
    refine .cons hlead (himp x item (by simp; omega) hitem) (ih fun y t ht => himp y t ?_)
    simp only [List.length_append]
    omega

/-- A list of items is one of what the items are also said to be. Each item is shorter than the list. -/
theorem ListText.map {Item : α → List Char → Prop} {Item' : β → List Char → Prop} (f : α → β)
    {items : List α} {text : List Char} (h : ListText Item items text)
    (himp : ∀ x t, t.length < text.length → Item x t → Item' (f x) t) :
    ListText Item' (items.map f) text := by
  obtain ⟨inner, rfl, hseq⟩ := h
  refine ⟨inner, rfl, hseq.map f fun x t ht => himp x t ?_⟩
  simp only [List.cons_append, List.length_cons, List.length_append, List.length_nil]
  omega

/-- The same of an object and its keys and values. -/
theorem ObjectText.map {κ' : Type} {Key : κ → List Char → Prop} {Key' : κ' → List Char → Prop}
    {Item : α → List Char → Prop} {Item' : β → List Char → Prop} (f : κ → κ') (g : α → β)
    {entries : List (κ × α)} {text : List Char} (h : ObjectText Key Item entries text)
    (hkey : ∀ k t, Key k t → Key' (f k) t)
    (himp : ∀ x t, t.length < text.length → Item x t → Item' (g x) t) :
    ObjectText Key' Item' (entries.map fun e => (f e.1, g e.2)) text := by
  obtain ⟨inner, rfl, hseq⟩ := h
  refine ⟨inner, rfl, hseq.map _ fun e t ht hentry => ?_⟩
  obtain ⟨key, gap, gap', value, hk, hgap, hgap', hvalue, rfl⟩ := hentry
  refine ⟨key, gap, gap', value, hkey _ _ hk, hgap, hgap', himp _ _ ?_ hvalue, rfl⟩
  simp only [List.cons_append, List.length_cons, List.length_append] at ht ⊢
  omega

/-- What spells some characters can stand in a string. -/
theorem isStringBody_of_spelled {s body : List Char} (h : Spelled s body) : IsStringBody body := by
  induction h with
  | nil => exact .nil
  | plain hc _ ih => exact .plain hc ih
  | escape hescaped _ ih =>
    cases hescaped with
    | simple hc => exact .escape (.simple hc) ih
    | numbered hn => exact .escape (.numbered hn) ih
    | pair hhigh _ hlow =>
      -- The syntax does not tie the two halves together.
      have := IsStringBody.escape (.numbered hhigh) (.escape (.numbered hlow) ih)
      simpa only [List.cons_append, List.append_assoc] using this

/-- The text of a string has the form of one. -/
theorem isString_of_stringText {s : String} {text : List Char} (h : StringText s text) :
    IsString text := by
  obtain ⟨body, hbody, htext⟩ := h
  exact ⟨body, isStringBody_of_spelled hbody, htext⟩

/-- The text of an exponent has the form of one. -/
theorem IsExponent.of_text {down : Bool} {written : Nat} {exponent : List Char}
    (h : ExponentText down written exponent) : IsExponent exponent := by
  cases h with
  | none => exact .none
  | some hmark hsign hdigits => exact .some hmark hsign hdigits

/-- Digits without a zero in front are a number. -/
theorem IsWhole.isUnsigned {whole : List Char} (h : IsWhole whole) : IsUnsigned whole :=
  ⟨whole, [], [], by simp, h, .none, .none⟩

/-- What denotes a number without a sign has the form of one. -/
theorem isUnsigned_of_unsignedText {negative : Bool} {n : Number} {text : List Char}
    (h : UnsignedText negative n text) : IsUnsigned text := by
  cases h with
  | integer hwhole => exact hwhole.isUnsigned
  | opposite hwhole => exact hwhole.isUnsigned
  | rounded hwhole => exact hwhole.isUnsigned
  | float hwhole hfraction hexponent =>
    exact ⟨_, _, _, rfl, hwhole, hfraction, .of_text hexponent⟩

/-- What denotes a number has the form of one. -/
theorem isNumber_of_numberText {n : Number} {text : List Char} (h : NumberText n text) :
    IsNumber text := by
  cases h with
  | positive h => exact .positive (isUnsigned_of_unsignedText h)
  | negative h => exact .negative (isUnsigned_of_unsignedText h)

/-- What denotes a value without parts has the form of one. -/
theorem isScalar_of_spellsScalar {v : Value} {text : List Char} (h : SpellsScalar v text) :
    IsScalar text := by
  cases h with
  | null => exact .null
  | yes => exact .yes
  | no => exact .no
  | number hnumber => exact .number (isNumber_of_numberText hnumber)
  | string hstring => exact .string (isString_of_stringText hstring)

/-- What denotes a value has the form of one, on no more levels. -/
theorem isJsonWithin_of_spells {levels : Nat} {v : Value} {text : List Char} (h : Spells levels v text) :
    IsJsonWithin levels text := by
  induction levels generalizing v text with
  | zero => exact isScalar_of_spellsScalar h
  | succ levels ih =>
    rcases h with h | ⟨items, -, h⟩ | ⟨entries, -, h⟩
    · exact .inl (isScalar_of_spellsScalar h)
    · exact .inr (.inl ⟨_, h.map (fun _ => ()) fun _ _ _ => ih⟩)
    · exact .inr (.inr ⟨_, h.map (fun _ => ()) (fun _ => ()) (fun _ _ => isString_of_stringText)
        fun _ _ _ => ih⟩)

theorem isJson_of_spells {levels : Nat} {v : Value} {text : List Char} (h : Spells levels v text) :
    IsJson text :=
  ⟨levels, isJsonWithin_of_spells h⟩

/-- A value without parts needs no levels. -/
theorem spells_of_scalar {levels : Nat} {v : Value} {text : List Char} (h : SpellsScalar v text) :
    Spells levels v text := by
  cases levels with
  | zero => exact h
  | succ levels => exact .inl h

theorem isJson_of_scalar {v : Value} {text : List Char} (h : SpellsScalar v text) : IsJson text :=
  ⟨0, isScalar_of_spellsScalar h⟩

/-- Each level takes a character, so that the length of a text bounds its levels. -/
theorem IsJsonWithin.of_length {levels bound : Nat} {text : List Char} (h : IsJsonWithin levels text)
    (hbound : text.length ≤ bound) : IsJsonWithin bound text := by
  induction levels generalizing bound text with
  | zero =>
    cases bound with
    | zero => exact h
    | succ bound => exact .inl h
  | succ levels ih =>
    cases bound with
    | zero =>
      -- Lists and objects have a bracket at least.
      obtain rfl : text = [] := List.length_eq_zero_iff.mp (Nat.le_zero.mp hbound)
      rcases h with h | ⟨_, _, h, -⟩ | ⟨_, _, h, -⟩
      · exact h
      · exact absurd h (by simp)
      · exact absurd h (by simp)
    | succ bound =>
      rcases h with h | ⟨items, h⟩ | ⟨entries, h⟩
      · exact .inl h
      · exact .inr (.inl ⟨_, h.map id fun _ _ hlt h => ih h (by omega)⟩)
      · exact .inr (.inr ⟨_, h.map id id (fun _ _ h => h) fun _ _ hlt h => ih h (by omega)⟩)

end QueryModule.Json
