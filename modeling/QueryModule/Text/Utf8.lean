/-!
# UTF-8

Texts as bytes. `encode` writes a text; `decode` reads one back, and where the bytes are no text it
says how many of them belong to the whole characters in front of the first fault. A character takes
up to four bytes; the ranges exclude surrogates, numbers beyond the last character, and forms longer
than necessary.
-/

namespace QueryModule.Text.Utf8

/-- What the first byte of a character says of the others: how many follow, between which bounds the
second byte lies, and which bits the first byte contributes. -/
structure Lead where
  followers : Nat
  low : Nat
  high : Nat
  bits : Nat
  deriving DecidableEq, Repr

/-- The meaning of a byte at the start of a character. -/
def lead? (b : Nat) : Option Lead :=
  if b ≤ 0x7F then some ⟨0, 0x80, 0xBF, b⟩
  else if 0xC2 ≤ b && b ≤ 0xDF then some ⟨1, 0x80, 0xBF, b - 0xC0⟩
  else if b = 0xE0 then some ⟨2, 0xA0, 0xBF, b - 0xE0⟩
  else if b = 0xED then some ⟨2, 0x80, 0x9F, b - 0xE0⟩
  else if 0xE1 ≤ b && b ≤ 0xEF then some ⟨2, 0x80, 0xBF, b - 0xE0⟩
  else if b = 0xF0 then some ⟨3, 0x90, 0xBF, b - 0xF0⟩
  else if 0xF1 ≤ b && b ≤ 0xF3 then some ⟨3, 0x80, 0xBF, b - 0xF0⟩
  else if b = 0xF4 then some ⟨3, 0x80, 0x8F, b - 0xF0⟩
  else none

/-- Can these bytes follow the first one? -/
def Lead.accepts (l : Lead) (followers : List Nat) : Bool :=
  followers.length = l.followers && followers.all (fun b => 0x80 ≤ b && b ≤ 0xBF)
    && (followers.head?.all fun b => l.low ≤ b && b ≤ l.high)

/-- The character that the first byte and those behind it make up. -/
def Lead.char (l : Lead) (followers : List Nat) : Char :=
  Char.ofNat (followers.foldl (fun n b => n * 0x40 + (b - 0x80)) l.bits)

/-- The characters of the rest of a sequence of bytes, so many bytes into it. -/
def decodeFrom (offset : Nat) : List UInt8 → Except Nat (List Char)
  | [] => .ok []
  | b :: rest =>
    match lead? b.toNat with
    | none => .error offset
    | some l =>
      let followers := (rest.take l.followers).map UInt8.toNat
      if l.accepts followers then
        (decodeFrom (offset + 1 + l.followers) (rest.drop l.followers)).map (l.char followers :: ·)
      else .error offset
termination_by bytes => bytes.length
decreasing_by
  simp only [List.length_drop, List.length_cons]; omega

/-- The text that bytes hold, or the number of bytes in front of the first fault. -/
def decode (bytes : List UInt8) : Except Nat String := (decodeFrom 0 bytes).map String.ofList

/-- How many bytes a text takes. -/
def byteSize : List Char → Nat
  | [] => 0
  | c :: rest => c.utf8Size + byteSize rest

/-- A text as bytes. -/
def encode (text : String) : List UInt8 := text.toList.flatMap String.utf8EncodeChar

end QueryModule.Text.Utf8
