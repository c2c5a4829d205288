import ChatRelay.Json.Numeral

/-!
# JSON text, read

Reading has two stages. `Tree.read?` checks the text against the grammar and keeps it as written:
numerals in digits, members in order with duplicates, strings with their escapes resolved. Where a
string holds something that is no character (a byte that is not UTF-8, or half a surrogate pair),
the tree has a `none` in that place. What the tree means is decided by the second stage, and only
for the parts that are asked for: `Tree.json?` for free-form values, the record readers for the
rest. So a part that nobody asks for has to be well-formed and nothing else.

Nesting is limited where a value is wanted: `depthLimit` levels of arrays and objects are one too
many.
-/

namespace ChatRelay.Json

/-- What a reader reads: characters, and `none` for bytes that are none. -/
abbrev Input := List (Option Char)

/-- JSON text as it is written. -/
inductive Tree where
  | null
  | bool (value : Bool)
  | num (numeral : Numeral)
  | str (units : List (Option Char))
  | arr (items : List Tree)
  | obj (members : List (List (Option Char) × Tree))

namespace Tree

instance : Inhabited Tree := ⟨null⟩

/-! ### Blanks, words and digits -/

/-- The four characters that may stand between tokens. -/
def isSpace (c : Char) : Bool :=
  c == ' ' || c == '\t' || c == '\n' || c == '\r'

/-- The input from the first token on. -/
def skipSpace : Input → Input
  | some c :: rest => if isSpace c then skipSpace rest else some c :: rest
  | s => s

/-- The input after a word that has to come next. -/
def expect? : List Char → Input → Option Input
  | [], s => some s
  | c :: cs, some d :: rest => if c = d then expect? cs rest else none
  | _ :: _, _ => none

/-- The digits that come next, and the input after them. -/
def takeDigits : Input → List Char × Input
  | some c :: rest =>
    if c.isDigit then
      let (ds, s) := takeDigits rest
      (c :: ds, s)
    else ([], some c :: rest)
  | s => ([], s)

/-! ### Numerals -/

/-- Reads the whole part: digits that do not start with a zero, or a zero alone. -/
def readWhole? (s : Input) : Option (List Char × Input) :=
  match takeDigits s with
  | ([], _) => none
  | ('0' :: _ :: _, _) => none
  | (ds, rest) => some (ds, rest)

/-- Reads the fraction, if a point comes next. -/
def readFraction? : Input → Option (Option (List Char) × Input)
  | some '.' :: s =>
    match takeDigits s with
    | ([], _) => none
    | (ds, rest) => some (some ds, rest)
  | s => some (none, s)

/-- Reads the sign of an exponent. -/
def readSign : Input → Bool × Input
  | some '-' :: s => (true, s)
  | some '+' :: s => (false, s)
  | s => (false, s)

/-- Reads the exponent, if its letter comes next. -/
def readExponent? : Input → Option (Option (Bool × List Char) × Input)
  | some c :: s =>
    if c = 'e' ∨ c = 'E' then
      let (minus, s) := readSign s
      match takeDigits s with
      | ([], _) => none
      | (ds, rest) => some (some (minus, ds), rest)
    else some (none, some c :: s)
  | s => some (none, s)

/-- Reads a numeral. -/
def readNumeral? (s : Input) : Option (Numeral × Input) := do
  let (negative, s) := match s with
    | some '-' :: rest => (true, rest)
    | s => (false, s)
  let (whole, s) ← readWhole? s
  let (fraction, s) ← readFraction? s
  let (exponent, s) ← readExponent? s
  some (⟨negative, whole, fraction, exponent⟩, s)

/-! ### Strings -/

/-- A piece of a string: a character or an ill-formed byte, or an escaped UTF-16 unit. -/
inductive Piece where
  | plain (c : Option Char)
  | unit (n : Nat)

/-- The value of a hexadecimal digit. -/
def hexValue? (c : Char) : Option Nat :=
  if '0' ≤ c ∧ c ≤ '9' then some (c.toNat - 48)
  else if 'a' ≤ c ∧ c ≤ 'f' then some (c.toNat - 87)
  else if 'A' ≤ c ∧ c ≤ 'F' then some (c.toNat - 55)
  else none

/-- The value of four hexadecimal digits. -/
def hexUnit? (a b c d : Char) : Option Nat := do
  let w ← hexValue? a
  let x ← hexValue? b
  let y ← hexValue? c
  let z ← hexValue? d
  some (((w * 16 + x) * 16 + y) * 16 + z)

/-- What a backslash and a letter stand for. -/
def shortEscape? (c : Char) : Option Char :=
  if c = '"' ∨ c = '\\' ∨ c = '/' then some c
  else if c = 'b' then some '\x08'
  else if c = 'f' then some '\x0c'
  else if c = 'n' then some '\n'
  else if c = 'r' then some '\r'
  else if c = 't' then some '\t'
  else none

/-- Reads the inside of a string and its closing quote. -/
def readPieces? : Input → Option (List Piece × Input)
  | some '"' :: rest => some ([], rest)
  | some '\\' :: some 'u' :: some a :: some b :: some c :: some d :: rest =>
    match hexUnit? a b c d with
    | none => none
    | some n => (readPieces? rest).map fun (ps, s) => (.unit n :: ps, s)
  | some '\\' :: some c :: rest =>
    -- An incomplete `u` escape ends here too, since `u` is no short escape.
    match shortEscape? c with
    | none => none
    | some e => (readPieces? rest).map fun (ps, s) => (.plain (some e) :: ps, s)
  | some '\\' :: _ => none
  | some c :: rest =>
    if c.toNat < 0x20 then none
    else (readPieces? rest).map fun (ps, s) => (.plain (some c) :: ps, s)
  | none :: rest => (readPieces? rest).map fun (ps, s) => (.plain none :: ps, s)
  | [] => none

/-- Joins a high and a low surrogate that stand side by side; one alone is no character. -/
def joinPairs : List Piece → List (Option Char)
  | [] => []
  | .plain c :: rest => c :: joinPairs rest
  | .unit h :: .unit l :: rest =>
    if 0xD800 ≤ h ∧ h < 0xDC00 ∧ 0xDC00 ≤ l ∧ l < 0xE000 then
      some (Char.ofNat (0x10000 + (h - 0xD800) * 0x400 + (l - 0xDC00))) :: joinPairs rest
    else if 0xD800 ≤ h ∧ h < 0xE000 then none :: joinPairs (.unit l :: rest)
    else some (Char.ofNat h) :: joinPairs (.unit l :: rest)
  | .unit h :: rest =>
    if 0xD800 ≤ h ∧ h < 0xE000 then none :: joinPairs rest
    else some (Char.ofNat h) :: joinPairs rest

/-- Reads a string after its opening quote. -/
def readString? (s : Input) : Option (List (Option Char) × Input) :=
  (readPieces? s).map fun (ps, rest) => (joinPairs ps, rest)

/-! ### Values -/

mutual

/-- Reads a value. The first argument bounds the number of nested calls. -/
def readValue? : Nat → Input → Option (Tree × Input)
  | 0, _ => none
  | n + 1, s =>
    match skipSpace s with
    | some c :: rest =>
      if c = '"' then (readString? rest).map fun (units, s) => (.str units, s)
      else if c = '[' then
        match skipSpace rest with
        | some ']' :: s => some (.arr [], s)
        | s => (readItems? n s).map fun (items, s) => (.arr items, s)
      else if c = '\x7b' then
        match skipSpace rest with
        | some '\x7d' :: s => some (.obj [], s)
        | s => (readMembers? n s).map fun (members, s) => (.obj members, s)
      else if c = 'n' then (expect? ['u', 'l', 'l'] rest).map fun s => (.null, s)
      else if c = 't' then (expect? ['r', 'u', 'e'] rest).map fun s => (.bool true, s)
      else if c = 'f' then (expect? ['a', 'l', 's', 'e'] rest).map fun s => (.bool false, s)
      else (readNumeral? (some c :: rest)).map fun (numeral, s) => (.num numeral, s)
    | _ => none

/-- Reads one item or more, up to the closing bracket. -/
def readItems? : Nat → Input → Option (List Tree × Input)
  | 0, _ => none
  | n + 1, s =>
    match readValue? n s with
    | none => none
    | some (item, s) =>
      match skipSpace s with
      | some ']' :: s => some ([item], s)
      | some ',' :: s => (readItems? n s).map fun (items, s) => (item :: items, s)
      | _ => none

/-- Reads one member or more, up to the closing brace. -/
def readMembers? : Nat → Input → Option (List (List (Option Char) × Tree) × Input)
  | 0, _ => none
  | n + 1, s =>
    match skipSpace s with
    | some '"' :: s =>
      match readString? s with
      | none => none
      | some (key, s) =>
        match skipSpace s with
        | some ':' :: s =>
          match readValue? n s with
          | none => none
          | some (value, s) =>
            match skipSpace s with
            | some '\x7d' :: s => some ([(key, value)], s)
            | some ',' :: s =>
              (readMembers? n s).map fun (members, s) => ((key, value) :: members, s)
            | _ => none
        | _ => none
    | _ => none

end

/-- Reads a text that is one value. A nested call needs half a character of its own, so the bound is
never met. -/
def read? (s : Input) : Option Tree :=
  match readValue? (2 * s.length + 1) s with
  | some (t, rest) => if skipSpace rest = [] then some t else none
  | none => none

/-- Reads characters. -/
def ofChars? (cs : List Char) : Option Tree :=
  read? (cs.map some)

/-! ### Free-form values -/

/-- The number of levels at which nesting is refused. -/
def depthLimit : Nat := 128

/-- The characters of a string without ill-formed pieces. -/
def text? (units : List (Option Char)) : Option String :=
  (units.mapM id).map String.ofList

mutual

/-- The value that a tree stands for, within the remaining levels. -/
def json? : Nat → Tree → Option Json
  | _, .null => some .null
  | _, .bool b => some (.bool b)
  | _, .num n => n.number?.map .num
  | _, .str units => (text? units).map .str
  | depth, .arr items => if depth ≤ 1 then none else (jsonItems? (depth - 1) items).map .arr
  | depth, .obj members =>
    if depth ≤ 1 then none else (jsonMembers? (depth - 1) members).map Json.object

/-- The values of a list of trees. -/
def jsonItems? : Nat → List Tree → Option (List Json)
  | _, [] => some []
  | depth, t :: rest =>
    match json? depth t with
    | none => none
    | some v => (jsonItems? depth rest).map (v :: ·)

/-- The members in the order they are written. -/
def jsonMembers? : Nat → List (List (Option Char) × Tree) → Option (List (String × Json))
  | _, [] => some []
  | depth, (key, t) :: rest =>
    match text? key, json? depth t with
    | some k, some v => (jsonMembers? depth rest).map ((k, v) :: ·)
    | _, _ => none

end

end Tree

/-- The value of a JSON text. -/
def parse? (cs : List Char) : Option Json :=
  (Tree.ofChars? cs).bind (Tree.json? Tree.depthLimit)

end ChatRelay.Json
