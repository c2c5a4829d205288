import ChatRelay.Chat.Event
import ChatRelay.Prompt.Tools
import ChatRelay.Codec.Basic
import ChatRelay.Stream.Markers

/-!
# Classifying a reply

The classifier takes the tokens of a reply one by one and says what they mean: text, control tokens,
and regions of tool calls. Tokens may cut characters and markers anywhere. So tokens whose bytes are
no text yet are gathered until they are, and characters that may be the start of a marker are held
back until that is decided; nothing is said before it is final.

A token is a control token if it renders differently with control tokens shown, or if it is one that
the dialect itself uses: those may be of the kind that always shows. Each step returns the next
state and its outputs in order. What the client gets of an output is `Output.event?`, and what there
is to tell the operator is `Output.notices`.
-/

namespace ChatRelay.Classifier

/-! ### Outputs -/

/-- What a step of the classifier says. -/
inductive Output where
  | text (cs : List Char)
  /-- The content of a region of tool calls. -/
  | region (cs : List Char)
  /-- A control token of no further use here. -/
  | control (cs : List Char)
  /-- A token that could not be rendered. -/
  | skipped (token : TokenId) (e : EngineError)
  /-- So many tokens were no text together and are read lossily. -/
  | lossy (count : Nat)
  /-- So many gathered tokens could not be rendered. -/
  | dropped (count : Nat) (e : EngineError)
deriving DecidableEq, Repr

/-- What there is to tell the operator. -/
inductive Notice where
  | skipped (token : TokenId) (e : EngineError)
  | lossy (count : Nat)
  | dropped (count : Nat) (e : EngineError)
  | call (n : CallSyntax.Notice)
  | noCall (e : CallSyntax.NoCall)
deriving DecidableEq

/-- The words for a notice. -/
def Notice.message : Notice → String
  | skipped token e =>
    "[CLASSIFIER] Skipping token " ++ String.ofList (Integer.text token) ++ ": " ++ e.message
  | lossy count =>
    "[CLASSIFIER] " ++ String.ofList (Integer.digits count)
      ++ " tokens still not valid UTF-8, decoding lossily"
  | dropped count e =>
    "[CLASSIFIER] Dropping " ++ String.ofList (Integer.digits count) ++ " undecoded tokens: "
      ++ e.message
  | call n => n.message
  | noCall e => "[TOOLS] " ++ e.message

/-- The calls of a region as an event: the calls that may be made, or the text if there are none. -/
def regionEvent (s : CallSyntax) (whitelist : Whitelist) (cs : List Char) : StreamEvent :=
  match s.parse whitelist cs with
  | .ok calls => .toolCalls (String.ofList (ToolCall.writeAll calls))
  | .error _ => .toolCalls (String.ofList cs)

/-- What there is to say about the calls of a region. -/
def regionNotices (s : CallSyntax) (whitelist : Whitelist) (cs : List Char) : List Notice :=
  (s.dropped whitelist cs).map .call ++
    match s.parse whitelist cs with
    | .ok _ => []
    | .error e => [.noCall e]

/-- What the client gets of an output. -/
def Output.event? (s : CallSyntax) (whitelist : Whitelist) : Output → Option StreamEvent
  | text cs => some (.plain (String.ofList cs))
  | region cs => some (regionEvent s whitelist cs)
  | control cs => some (.control (String.ofList cs))
  | skipped _ _ | lossy _ | dropped _ _ => none

/-- What there is to tell the operator about an output. -/
def Output.notices (s : CallSyntax) (whitelist : Whitelist) : Output → List Notice
  | text _ | control _ => []
  | region cs => regionNotices s whitelist cs
  | skipped token e => [.skipped token e]
  | lossy count => [.lossy count]
  | dropped count e => [.dropped count e]

/-- Text as outputs: nothing if it is empty. -/
def textOutput (cs : List Char) : List Output :=
  if cs.isEmpty then [] else [.text cs]

/-! ### States -/

/-- What is fixed while a reply is classified. -/
structure Setup where
  codec : TokenCodec
  dialect : Dialect
  whitelist : Whitelist
  endOfTurn : TokenId
  toolOpen : Option TokenId
  toolClose : Option TokenId

/-- Where the classifier is in a reply. -/
structure State where
  /-- The prompt and every token read since, latest first: what comes before the next token. -/
  context : List TokenId
  /-- Whether a region of tool calls is open. -/
  inside : Bool
  /-- Characters that may be the start of a marker. -/
  held : List Char
  /-- The content of the open region so far, backwards. -/
  region : List Char
  /-- Tokens whose bytes are no text yet. -/
  pending : List TokenId
  finished : Bool
deriving DecidableEq, Repr

/-- The state of the classifier as others see it. -/
inductive Phase where
  | normal
  | matchingOpen
  | inRegion
  | matchingClose
  | gathering
deriving DecidableEq, Repr

/-- The name of a phase. -/
def Phase.name : Phase → String
  | normal => "Normal"
  | matchingOpen => "MatchingOpenDelimiter"
  | inRegion => "InToolRegion"
  | matchingClose => "MatchingCloseDelimiter"
  | gathering => "GatheringInvalidUtf8"

/-- The phase of a state. -/
def State.phase (st : State) : Phase :=
  if !st.pending.isEmpty then .gathering
  else if st.inside then (if st.held.isEmpty then .inRegion else .matchingClose)
  else (if st.held.isEmpty then .normal else .matchingOpen)

/-- How a classifier is shown to the operator. -/
def summary (d : Dialect) (st : State) : String :=
  "StreamClassifier \x7b dialect: " ++ d.title ++ ", state: " ++ st.phase.name ++ ", .. \x7d"

/-- The state after a prompt. -/
def State.initial (prompt : List TokenId) : State :=
  ⟨prompt.reverse, false, [], [], [], false⟩

/-- Looks up the control tokens that the dialect uses. -/
def setup (d : Dialect) (codec : TokenCodec) (whitelist : Whitelist) :
    Except EngineError Setup := do
  let endOfTurn ← codec.specialTokenId d.grammar.endOfTurn
  match d.grammar.toolFraming with
  | .markers _ _ => .ok ⟨codec, d, whitelist, endOfTurn, none, none⟩
  | .tokens opening none =>
    let toolOpen ← codec.specialTokenId opening
    .ok ⟨codec, d, whitelist, endOfTurn, some toolOpen, none⟩
  | .tokens opening (some closing) =>
    let toolOpen ← codec.specialTokenId opening
    let toolClose ← codec.specialTokenId closing
    .ok ⟨codec, d, whitelist, endOfTurn, some toolOpen, some toolClose⟩

namespace Setup

/-- Whether the token is one that the dialect itself uses. -/
def isFraming (s : Setup) (token : TokenId) : Bool :=
  token == s.endOfTurn || some token == s.toolOpen || some token == s.toolClose

/-- The events of outputs. -/
def events (s : Setup) (outputs : List Output) : List StreamEvent :=
  outputs.filterMap (Output.event? (Prompt.callSyntax s.dialect) s.whitelist)

/-- The notices of outputs. -/
def notices (s : Setup) (outputs : List Output) : List Notice :=
  outputs.flatMap (Output.notices (Prompt.callSyntax s.dialect) s.whitelist)

end Setup

/-! ### Text -/

namespace State

/-- Says or collects the stretches of a text. Every stretch but the last is ended by a marker; of
the last one, what may be the start of a marker is held back. -/
def takeStretches (m : Markers) (st : State) :
    List Char → List (List Char) → State × List Output
  | s, [] =>
    let (settled, held) := Markers.splitHeld (m.next st.inside) s
    if st.inside then ({ st with region := settled.reverse ++ st.region, held }, [])
    else ({ st with held }, textOutput settled)
  | s, t :: others =>
    if st.inside then
      let (st', outputs) := takeStretches m { st with inside := false, region := [] } t others
      (st', .region (st.region.reverse ++ s) :: outputs)
    else
      let (st', outputs) := takeStretches m { st with inside := true } t others
      (st', textOutput s ++ outputs)

/-- Takes more text into account. -/
def feed (framing : ToolFraming) (st : State) (cs : List Char) : State × List Output :=
  match framing with
  | .markers opening closing =>
    let m : Markers := ⟨opening.toList, closing.toList⟩
    let (s, others) := m.stretches st.inside (st.held ++ cs)
    takeStretches m st s others
  | .tokens _ _ =>
    if st.inside then ({ st with region := cs.reverse ++ st.region }, [])
    else (st, textOutput cs)

/-- Gives up what is held back: no marker comes of it. -/
def release (st : State) : State × List Output :=
  if st.inside then ({ st with region := st.held.reverse ++ st.region, held := [] }, [])
  else ({ st with held := [] }, textOutput st.held)

/-- Closes the open region. -/
def close (st : State) : State × List Output :=
  ({ st with inside := false, region := [] }, [.region st.region.reverse])

end State

/-! ### Tokens -/

/-- The number of gathered tokens at which they are read lossily if they are still no text. -/
def gatherLimit : Nat := 8

namespace Setup

/-- Takes a control token into account. -/
def takeControl (s : Setup) (st : State) (token : TokenId) (shown : List UInt8) :
    State × List Output :=
  if token = s.endOfTurn then ({ st with finished := true }, [])
  else if some token = s.toolOpen then ({ st with inside := true }, [])
  else if some token = s.toolClose ∧ st.inside then st.close
  else
    let (st, outputs) := st.release
    (st, outputs ++ [.control (Utf8.decodeLossy shown)])

/-- Reads the gathered tokens as they are, because a control token comes. -/
def flush (s : Setup) (st : State) : State × List Output :=
  if st.pending.isEmpty then (st, [])
  else
    match s.codec.detokenize st.pending st.context false with
    | .ok bytes =>
      { st with context := st.pending.reverse ++ st.context, pending := [] }.feed
        s.dialect.grammar.toolFraming (Utf8.decodeLossy bytes)
    | .error e => ({ st with pending := [] }, [.dropped st.pending.length e])

/-- Gathers one more token, and reads what is gathered if it is text or if it has become too much.
-/
def gather (s : Setup) (st : State) (token : TokenId) : State × List Output :=
  let pending := st.pending ++ [token]
  match s.codec.detokenize pending st.context false with
  | .error e => (st, [.skipped token e])
  | .ok bytes =>
    -- Tokens count as context only once they are read.
    let read := { st with context := pending.reverse ++ st.context, pending := [] }
    match Utf8.decodeChars? bytes with
    | some cs => read.feed s.dialect.grammar.toolFraming cs
    | none =>
      if gatherLimit ≤ pending.length then
        let (st', outputs) := read.feed s.dialect.grammar.toolFraming (Utf8.decodeLossy bytes)
        (st', .lossy pending.length :: outputs)
      else ({ st with pending }, [])

/-- Takes a text token into account. -/
def takeText (s : Setup) (st : State) (token : TokenId) (bytes : List UInt8) :
    State × List Output :=
  if st.pending.isEmpty then
    match Utf8.decodeChars? bytes with
    | some cs =>
      { st with context := token :: st.context }.feed s.dialect.grammar.toolFraming cs
    | none => ({ st with pending := [token] }, [])
  else s.gather st token

/-- The renderings of a token, with control tokens not shown and shown. -/
def renderings (s : Setup) (st : State) (token : TokenId) :
    Except EngineError (List UInt8 × List UInt8) := do
  let plain ← s.codec.detokenize [token] st.context false
  let shown ← s.codec.detokenize [token] st.context true
  .ok (plain, shown)

/-- Takes the next token of the reply into account. -/
def push (s : Setup) (st : State) (token : TokenId) : State × List Output :=
  if st.finished then (st, [])
  else
    match s.renderings st token with
    | .error e => (st, [.skipped token e])
    | .ok (plain, shown) =>
      if s.isFraming token ∨ plain ≠ shown then
        -- What was gathered came first, so it is read before the control token counts.
        let (st, flushed) := s.flush st
        let (st, outputs) :=
          s.takeControl { st with context := token :: st.context } token shown
        (st, flushed ++ outputs)
      else s.takeText st token plain

/-- Takes tokens into account one by one. -/
def pushAll (s : Setup) : State → List TokenId → State × List Output
  | st, [] => (st, [])
  | st, token :: rest =>
    let (st, outputs) := s.push st token
    let (st, others) := pushAll s st rest
    (st, outputs ++ others)

end Setup

/-- Ends the reply: gathered tokens that never became text are gone, what is held back is text after
all, and an open region with more than blanks in it ends here. -/
def State.finish (st : State) : State × List Output :=
  let (st, outputs) := { st with pending := [], finished := true }.release
  if st.inside then
    if st.region.all Text.isBlank then ({ st with inside := false, region := [] }, outputs)
    else
      let (st, closed) := st.close
      (st, outputs ++ closed)
  else (st, outputs)

/-- The outputs of a whole reply after a prompt. -/
def Setup.reply (s : Setup) (prompt tokens : List TokenId) : List Output :=
  let (st, outputs) := s.pushAll (.initial prompt) tokens
  outputs ++ st.finish.2

/-- The events of a whole reply after a prompt. -/
def classify (d : Dialect) (codec : TokenCodec) (whitelist : Whitelist)
    (prompt tokens : List TokenId) : Except EngineError (List StreamEvent) := do
  let s ← setup d codec whitelist
  .ok (s.events (s.reply prompt tokens))

end ChatRelay.Classifier
