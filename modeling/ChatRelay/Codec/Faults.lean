import ChatRelay.Codec.Basic
import ChatRelay.Text.Integer

/-!
# Codecs that refuse

A codec put around another one, for trying out what happens when an engine fails: it refuses texts
that hold a given text, refuses to render too many tokens at once, shows how many prior tokens it
was given, or finds control tokens by tokenizing instead of by name.
-/

namespace ChatRelay

/-- What a codec refuses or does differently. -/
structure Faults where
  /-- Texts that hold this one cannot be tokenized. -/
  refusedText : Option String
  /-- So many tokens or more cannot be rendered at once. -/
  refusedCount : Option Nat
  /-- Renderings start with the number of prior tokens. -/
  marksPrior : Bool
  /-- Control tokens are found by tokenizing. -/
  searchesSpecials : Bool
deriving DecidableEq, Repr

namespace Faults

/-- Whether a byte string holds another. -/
def holds (part : List UInt8) : List UInt8 → Bool
  | [] => part.isEmpty
  | b :: rest => part.isPrefixOf (b :: rest) || holds part rest

/-- The bytes of a number in digits. -/
def countMark (n : Nat) : List UInt8 :=
  Utf8.encodeChars (Integer.digits n ++ [':'])

/-- The codec with the faults. -/
def applyTo (f : Faults) (c : TokenCodec) : TokenCodec where
  tokenize bytes special :=
    match f.refusedText with
    | some t =>
      if holds (Utf8.encode t) bytes then .error (.tokenize ("refused " ++ t))
      else c.tokenize bytes special
    | none => c.tokenize bytes special
  detokenize ids prior showControl :=
    if f.refusedCount.any (· ≤ ids.length) then
      .error (.detokenize
        ("refused " ++ String.ofList (Integer.digits ids.length) ++ " tokens"))
    else
      (c.detokenize ids prior showControl).map fun bytes =>
        if f.marksPrior then countMark prior.length ++ bytes else bytes
  specialTokenId text :=
    if f.searchesSpecials then TokenCodec.firstTokenId c.tokenize text else c.specialTokenId text

end Faults

end ChatRelay
