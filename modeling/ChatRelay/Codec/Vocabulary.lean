import ChatRelay.Codec.Basic
import ChatRelay.Text.Integer

/-!
# Byte-level vocabularies

A vocabulary with control tokens, one token for each byte, and pieces of several bytes, numbered in
that order. Since every byte has a token, all text can be tokenized. Tokenizing is greedy: at each
place the longest control token is tried first (under special parsing), then the longest piece of
two bytes or more, then the single byte; of several candidates of one length the last is taken.

A control token renders as its text when control tokens are shown, and otherwise as nothing, except
for those marked as user-defined, which always show.
-/

namespace ChatRelay

/-- A byte-level vocabulary. -/
structure Vocabulary where
  specials : List String
  /-- The places of the control tokens that always show. -/
  userDefined : List Nat
  pieces : List (List UInt8)
deriving DecidableEq, Repr

namespace Vocabulary

/-- A vocabulary of control tokens and bytes. -/
def ofSpecials (specials : List String) : Vocabulary :=
  ⟨specials, [], []⟩

/-- The vocabulary with more pieces. -/
def withPieces (v : Vocabulary) (pieces : List (List UInt8)) : Vocabulary :=
  { v with pieces := v.pieces ++ pieces }

/-- The place of a control token: the first of that text. -/
def specialIndex? (v : Vocabulary) (text : String) : Option Nat :=
  v.specials.findIdx? (· == text)

/-- The vocabulary with these control tokens marked as user-defined; texts of no control token are
skipped. -/
def withUserDefined (v : Vocabulary) (texts : List String) : Vocabulary :=
  { v with userDefined := v.userDefined ++ texts.filterMap v.specialIndex? }

/-! ### Ids -/

/-- The id of a byte. -/
def byteToken (v : Vocabulary) (b : UInt8) : TokenId :=
  (v.specials.length + b.toNat : Nat)

/-- The id of a piece by its place. -/
def pieceId (v : Vocabulary) (index : Nat) : TokenId :=
  (v.specials.length + 256 + index : Nat)

/-- The id of a piece: the first with those bytes. -/
def pieceToken? (v : Vocabulary) (piece : List UInt8) : Option TokenId :=
  (v.pieces.findIdx? (· == piece)).map v.pieceId

/-- One token for each byte. -/
def byteTokens (v : Vocabulary) (bytes : List UInt8) : List TokenId :=
  bytes.map v.byteToken

/-! ### Tokenizing -/

/-- The place and length of the longest candidate that the input starts with, among those numbered
from `index` on. Empty candidates do not count, and of two of one length the later one wins. -/
def longestMatch? (input : List UInt8) : Nat → List (List UInt8) → Option (Nat × Nat)
  | _, [] => none
  | index, c :: rest =>
    let later := longestMatch? input (index + 1) rest
    if c.isEmpty || !c.isPrefixOf input then later
    else
      match later with
      | some (i, n) => if c.length ≤ n then some (i, n) else some (index, c.length)
      | none => some (index, c.length)

/-- The token that comes next, and how many bytes it takes. -/
def nextToken (v : Vocabulary) (special : Bool) (b : UInt8) (rest : List UInt8) : TokenId × Nat :=
  let control? :=
    if special then longestMatch? (b :: rest) 0 (v.specials.map Utf8.encode) else none
  match control? with
  | some (i, n) => ((i : Int), n)
  | none =>
    match longestMatch? (b :: rest) 0 v.pieces with
    -- A piece of one byte is never taken: the byte token stands for it.
    | some (i, n) => if 1 < n then (v.pieceId i, n) else (v.byteToken b, 1)
    | none => (v.byteToken b, 1)

/-- Tokenizes after skipping bytes that the last token has taken. -/
def tokensAfter (v : Vocabulary) (special : Bool) : Nat → List UInt8 → List TokenId
  | _, [] => []
  | skip + 1, _ :: rest => tokensAfter v special skip rest
  | 0, b :: rest =>
    let (id, n) := v.nextToken special b rest
    id :: tokensAfter v special (n - 1) rest

/-- The ids of a text. -/
def tokens (v : Vocabulary) (bytes : List UInt8) (special : Bool) : List TokenId :=
  v.tokensAfter special 0 bytes

/-- The ids of a literal text. -/
def encode (v : Vocabulary) (text : String) : List TokenId :=
  v.tokens (Utf8.encode text) false

/-! ### Rendering -/

/-- What an id stands for. -/
inductive Entry where
  /-- A control token; `shown` if it always shows. -/
  | control (text : String) (shown : Bool)
  | bytes (value : List UInt8)
deriving DecidableEq, Repr

/-- Why an id stands for nothing. -/
inductive IdError where
  | negative (id : TokenId)
  | outOfRange (id : TokenId)
deriving DecidableEq, Repr

/-- The words for an id that stands for nothing. -/
def IdError.message : IdError → String
  | negative id => "negative token id " ++ String.ofList (Integer.text id)
  | outOfRange id => "token id " ++ String.ofList (Integer.text id) ++ " is out of vocabulary"

/-- Looks up an id. -/
def entry (v : Vocabulary) (id : TokenId) : Except IdError Entry :=
  if id < 0 then .error (.negative id)
  else
    let n := id.toNat
    match v.specials[n]? with
    | some text => .ok (.control text (v.userDefined.contains n))
    | none =>
      -- Here `n` is no index of a control token, so the difference is exact.
      let k := n - v.specials.length
      if k < 256 then .ok (.bytes [UInt8.ofNat k])
      else
        match v.pieces[k - 256]? with
        | some piece => .ok (.bytes piece)
        | none => .error (.outOfRange id)

/-- The bytes of an entry, with control tokens shown or not. -/
def Entry.render (showControl : Bool) : Entry → List UInt8
  | control text shown => if showControl || shown then Utf8.encode text else []
  | bytes value => value

/-- The bytes of tokens. -/
def render (v : Vocabulary) (showControl : Bool) : List TokenId → Except IdError (List UInt8)
  | [] => .ok []
  | id :: rest => do
    let e ← v.entry id
    let bytes ← v.render showControl rest
    .ok (e.render showControl ++ bytes)

/-- The vocabulary as a codec. Rendering does not depend on what came before. -/
def codec (v : Vocabulary) : TokenCodec where
  tokenize bytes special := .ok (v.tokens bytes special)
  detokenize ids _ showControl :=
    (v.render showControl ids).mapError fun e => .detokenize e.message
  specialTokenId text :=
    match v.specialIndex? text with
    | some i => .ok (i : Int)
    | none => .error (.unknownSpecial text)

end Vocabulary

end ChatRelay
