import ChatRelay.Text.Quoted
import ChatRelay.Text.Utf8

/-!
# Token codecs

An inference engine speaks in token ids. A codec turns text into ids and back; the relay knows no
more of it than the three functions here, and any of them may fail. Tokenizing has two modes: with
special parsing, the spelling of a control token becomes that token; without it, all text is
literal. Rendering has two modes as well, with control tokens shown or not, and may look at the
tokens that came before.
-/

namespace ChatRelay

/-- A token id. What it means is the codec's business. -/
abbrev TokenId := Int

/-- What an inference engine may fail with. -/
inductive EngineError where
  | tokenize (reason : String)
  | detokenize (reason : String)
  | generation (reason : String)
  | unknownSpecial (text : String)
deriving DecidableEq, Repr

/-- The words for an engine error. -/
def EngineError.message : EngineError → String
  | tokenize reason => "Tokenization failed: " ++ reason
  | detokenize reason => "Detokenization failed: " ++ reason
  | generation reason => "Generation failed: " ++ reason
  | unknownSpecial text => "Special token " ++ Text.quote text ++ " is not in the vocabulary"

/-- Text to token ids and back. -/
structure TokenCodec where
  /-- The ids of a text, with or without special parsing. -/
  tokenize : List UInt8 → Bool → Except EngineError (List TokenId)
  /-- The bytes of tokens after the prior ones, with control tokens shown or not. The prior tokens
  come latest first. -/
  detokenize : List TokenId → List TokenId → Bool → Except EngineError (List UInt8)
  /-- The id of a control token by its text. -/
  specialTokenId : String → Except EngineError TokenId

namespace TokenCodec

/-- The id of a control token for a codec that has no table of them: the first id of its text under
special parsing. -/
def firstTokenId (tokenize : List UInt8 → Bool → Except EngineError (List TokenId))
    (text : String) : Except EngineError TokenId := do
  match ← tokenize (Utf8.encode text) true with
  | [] => .error (.unknownSpecial text)
  | id :: _ => .ok id

end TokenCodec

end ChatRelay
