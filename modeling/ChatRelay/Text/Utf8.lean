/-!
# UTF-8

Text as bytes and back. `encode` writes each character as its one to four bytes. Reading goes
through `units`, which cuts a byte string into characters and ill-formed pieces: every character
that can be read is `some c`, and every maximal piece that cannot is one `none`. Both ways of
reading are then one line: `decode?` refuses a byte string with an ill-formed piece in it,
`decodeLossy` puts U+FFFD in the place of each.

The piece rule is the standard one: after a lead byte, bytes are taken as long as they can still
belong to a well-formed character, so that a truncated character is one piece and the byte that
interrupts it is read afresh.
-/

namespace ChatRelay.Utf8

/-- The bytes of a list of characters. -/
def encodeChars (cs : List Char) : List UInt8 :=
  cs.flatMap String.utf8EncodeChar

/-- The bytes of a text. -/
def encode (s : String) : List UInt8 :=
  encodeChars s.toList

/-- The number of bytes of a list of characters. -/
def byteLength (cs : List Char) : Nat :=
  (encodeChars cs).length

/-! ### Reading -/

/-- A character under way: its bits so far, the number of bytes still owed, and the range that the
next byte has to lie in. -/
structure Partial where
  bits : Nat
  owed : Nat
  low : UInt8
  high : UInt8
deriving DecidableEq, Repr

/-- What a byte says at the start of a character. -/
inductive Lead where
  /-- The byte is a character of its own. -/
  | whole (c : Char)
  /-- The byte opens a longer character. -/
  | opens (p : Partial)
  /-- No character starts with this byte. -/
  | bad
deriving DecidableEq, Repr

/-- Reads a byte as the start of a character. The narrowed ranges rule out overlong forms,
surrogates and scalars above U+10FFFF. -/
def lead (b : UInt8) : Lead :=
  let n := b.toNat
  if n < 0x80 then .whole (Char.ofNat n)
  else if n < 0xC2 then .bad
  else if n < 0xE0 then .opens ⟨n - 0xC0, 1, 0x80, 0xBF⟩
  else if n = 0xE0 then .opens ⟨0, 2, 0xA0, 0xBF⟩
  else if n = 0xED then .opens ⟨0xD, 2, 0x80, 0x9F⟩
  else if n < 0xF0 then .opens ⟨n - 0xE0, 2, 0x80, 0xBF⟩
  else if n = 0xF0 then .opens ⟨0, 3, 0x90, 0xBF⟩
  else if n < 0xF4 then .opens ⟨n - 0xF0, 3, 0x80, 0xBF⟩
  else if n = 0xF4 then .opens ⟨4, 3, 0x80, 0x8F⟩
  else .bad

/-- Whether the byte can go on the character under way. -/
def Partial.takes (p : Partial) (b : UInt8) : Bool :=
  p.low ≤ b && b ≤ p.high

/-- The bits of the character under way, with those of one more byte. -/
def Partial.extend (p : Partial) (b : UInt8) : Nat :=
  p.bits * 64 + (b.toNat - 0x80)

/-- Reads on, with or without a character under way. -/
def unitsFrom : Option Partial → List UInt8 → List (Option Char)
  | none, [] => []
  | some _, [] => [none]
  | none, b :: bs =>
    match lead b with
    | .whole c => some c :: unitsFrom none bs
    | .opens p => unitsFrom (some p) bs
    | .bad => none :: unitsFrom none bs
  | some p, b :: bs =>
    if p.takes b then
      if p.owed = 1 then some (Char.ofNat (p.extend b)) :: unitsFrom none bs
      else unitsFrom (some ⟨p.extend b, p.owed - 1, 0x80, 0xBF⟩) bs
    else
      -- The piece ends before this byte, which may start a character of its own.
      none :: match lead b with
        | .whole c => some c :: unitsFrom none bs
        | .opens q => unitsFrom (some q) bs
        | .bad => none :: unitsFrom none bs

/-- The characters and the ill-formed pieces of a byte string, in order. -/
def units (bs : List UInt8) : List (Option Char) :=
  unitsFrom none bs

/-- The characters of a byte string, if all of it is well-formed. -/
def decodeChars? (bs : List UInt8) : Option (List Char) :=
  (units bs).mapM id

/-- The text of a byte string, if all of it is well-formed. -/
def decode? (bs : List UInt8) : Option String :=
  (decodeChars? bs).map String.ofList

/-- The characters of a byte string, with U+FFFD for each ill-formed piece. -/
def decodeLossy (bs : List UInt8) : List Char :=
  (units bs).map (·.getD '\uFFFD')

end ChatRelay.Utf8
