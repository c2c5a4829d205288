import ChatRelay.Prompt.Render
import ChatRelay.Stream.Classifier

/-!
# The events of a reply

A reply is generated lazily: a token is drawn from the engine only when the client wants an event
and none is waiting. Before a token is handed on the engine asks whether to stop, which it does at
the end of turn, beyond the token limit, and once the relay is shutting down; the token it stopped
at is lost. What the classifier says of a token waits in the queue. When the engine stops, the
classifier is finished; when it fails, the reply ends in one error event instead, unless the relay
is shutting down.

The engine here replays a script. `Generation.pull` draws one token, `EventStream.next` draws until
there is an event, and `EventStream.consume` hands all events to a consumer that may change the
world between two of them. What there is to tell the operator is told when a token is drawn, whether
or not the client ever takes the events of that token.
-/

namespace ChatRelay

/-- Why a session could not be started or came to an end. -/
inductive SessionError where
  | invalid (e : Prompt.Invalid)
  | engine (e : EngineError)
  | shuttingDown
  | engineReleased
deriving DecidableEq, Repr

/-- The words for a session error. -/
def SessionError.message : SessionError → String
  | invalid e => e.message
  | engine e => e.message
  | shuttingDown => "Server is shutting down"
  | engineReleased => "Inference engine has been released"

/-- The events that report an error: none while the relay is shutting down. -/
def SessionError.events (cancelled : Bool) (e : SessionError) : List StreamEvent :=
  if cancelled then [] else [.failure e.message]

/-- What there is to tell the operator about a session. -/
inductive SessionNotice where
  | prompt (n : Prompt.Notice)
  | reply (n : Classifier.Notice)
deriving DecidableEq

/-- The words for a notice. -/
def SessionNotice.message : SessionNotice → String
  | prompt n => n.message
  | reply n => n.message

/-- An engine that replays a script. -/
structure Generator where
  script : List TokenId
  /-- The number of the token at which the engine fails, counted from one. -/
  failAt : Option Nat
  /-- Whether the engine asks before it hands on a token. -/
  asksToStop : Bool
  /-- The reason why the engine refuses to start, if it does. -/
  refusal : Option String
deriving DecidableEq, Repr

/-- An engine that replays a script and never fails. -/
def Generator.ofScript (script : List TokenId) : Generator :=
  ⟨script, none, true, none⟩

/-! ### Drawing tokens -/

/-- A reply under way, but for the tokens still due. -/
structure Generation where
  setup : Classifier.Setup
  state : Classifier.State
  /-- The number of tokens drawn from the engine. -/
  drawn : Nat
  failAt : Option Nat
  asksToStop : Bool
  maxTokens : Nat

/-- What comes of drawing a token. -/
structure Pulled where
  events : List StreamEvent
  notices : List SessionNotice
  /-- Whether a token was handed on. -/
  counted : Bool
  /-- The reply, if it goes on. -/
  next : Option Generation

namespace Generation

/-- Whether the engine stops at the token, the `n`th. -/
def stopsAt (g : Generation) (cancelled : Bool) (token : TokenId) (n : Nat) : Bool :=
  g.asksToStop && (token == g.setup.endOfTurn || decide (g.maxTokens < n) || cancelled)

/-- What the engine fails with at its `n`th token. -/
def failure (n : Nat) : SessionError :=
  .engine (.generation ("decode failed at token " ++ String.ofList (Integer.digits n)))

/-- What is said of outputs of the classifier, and how the reply goes on. -/
def said (g : Generation) (outputs : List Classifier.Output) (counted : Bool)
    (next : Option Generation) : Pulled :=
  ⟨g.setup.events outputs, (g.setup.notices outputs).map .reply, counted, next⟩

/-- The end of a reply that did not fail. -/
def ending (g : Generation) : Pulled :=
  g.said g.state.finish.2 false none

/-- Draws the token that is due, if there is one. -/
def pull (g : Generation) (cancelled : Bool) (due : Option TokenId) : Pulled :=
  let n := g.drawn + 1
  -- The engine fails before it looks for a token, so it fails at the end of the script too.
  if g.failAt = some n then ⟨(failure n).events cancelled, [], false, none⟩
  else
    match due with
    | none => g.ending
    | some token =>
      if g.stopsAt cancelled token n then g.ending
      else
        let (state, outputs) := g.setup.push g.state token
        -- An engine that never asks hands on the end of turn, and the classifier ends the reply.
        if state.finished then g.said (outputs ++ state.finish.2) true none
        else g.said outputs true (some { g with state, drawn := n })

end Generation

/-! ### Streams -/

/-- The events of one reply. -/
structure EventStream where
  /-- Events that wait to be taken. -/
  queue : List StreamEvent
  /-- Tokens still due from the engine. -/
  due : List TokenId
  /-- The reply, while it is under way. -/
  generation : Option Generation
  /-- The number of tokens handed on. -/
  generated : Nat

/-- What comes of asking a stream for an event. -/
structure Drawn where
  /-- The next event, if there is one. -/
  event : Option StreamEvent
  stream : EventStream
  notices : List SessionNotice

namespace EventStream

/-- The stream of a session that failed before its first token. -/
def failed (cancelled : Bool) (e : SessionError) : EventStream :=
  ⟨e.events cancelled, [], none, 0⟩

/-- A stream that has ended. -/
def ended (generated : Nat) : EventStream :=
  ⟨[], [], none, generated⟩

/-- Draws tokens until there is an event or the reply has ended. -/
def advance (cancelled : Bool) (g : Generation) (generated : Nat) : List TokenId → Drawn
  | [] =>
    let p := g.pull cancelled none
    ⟨p.events.head?, ⟨p.events.tail, [], none, generated⟩, p.notices⟩
  | token :: due =>
    let p := g.pull cancelled (some token)
    let generated := if p.counted then generated + 1 else generated
    match p.events with
    | e :: rest => ⟨some e, ⟨rest, due, p.next, generated⟩, p.notices⟩
    | [] =>
      match p.next with
      | some g =>
        let d := advance cancelled g generated due
        { d with notices := p.notices ++ d.notices }
      | none => ⟨none, ended generated, p.notices⟩

/-- Asks for the next event. -/
def next (s : EventStream) (cancelled : Bool) : Drawn :=
  match s.queue with
  | e :: rest => ⟨some e, { s with queue := rest }, []⟩
  | [] =>
    match s.generation with
    | some g => advance cancelled g s.generated s.due
    | none => ⟨none, s, []⟩

end EventStream

/-! ### Consumers -/

/-- A consumer of events, together with all of the world that it may change. -/
structure Consumer (σ : Type) where
  /-- Takes an event; says whether more are wanted. -/
  take : σ → StreamEvent → σ × Bool
  /-- Hears what there is to tell the operator. -/
  hear : σ → List SessionNotice → σ
  /-- Whether the relay is shutting down. -/
  cancelled : σ → Bool

namespace Consumer

/-- Hands events to a consumer until it wants no more; says whether it does. -/
def deliver (c : Consumer σ) : σ → List StreamEvent → σ × Bool
  | world, [] => (world, true)
  | world, e :: rest =>
    match c.take world e with
    | (world, true) => c.deliver world rest
    | (world, false) => (world, false)

/-- Hands the events of a reply to a consumer; returns the world it leaves and the number of tokens
handed on. -/
def consume (c : Consumer σ) :
    List TokenId → Option Generation → List StreamEvent → Nat → σ → σ × Nat
  | due, generation, queue, generated, world =>
    match c.deliver world queue with
    | (world, false) => (world, generated)
    | (world, true) =>
      match generation with
      | none => (world, generated)
      | some g =>
        match due with
        | [] =>
          let p := g.pull (c.cancelled world) none
          ((c.deliver (c.hear world p.notices) p.events).1, generated)
        | token :: due =>
          let p := g.pull (c.cancelled world) (some token)
          c.consume due p.next p.events (if p.counted then generated + 1 else generated)
            (c.hear world p.notices)

end Consumer

namespace EventStream

/-- Hands the events of a stream to a consumer, who answers each with whether it wants more. Whether
the relay is shutting down is read from the world before each token. -/
def consume (s : EventStream) (c : Consumer σ) (world : σ) : σ × Nat :=
  c.consume s.due s.generation s.queue s.generated world

/-- What a consumer has that takes everything, latest first. -/
structure Collected where
  events : List StreamEvent
  notices : List SessionNotice

/-- A consumer that takes everything. -/
def collector (cancelled : Bool) : Consumer Collected where
  take got e := ({ got with events := e :: got.events }, true)
  hear got notices := { got with notices := notices.reverse ++ got.notices }
  cancelled _ := cancelled

/-- All events that are left, what there is to tell the operator, and the stream after them. -/
def drain (s : EventStream) (cancelled : Bool) :
    List StreamEvent × List SessionNotice × EventStream :=
  let (got, generated) := s.consume (collector cancelled) ⟨[], []⟩
  (got.events.reverse, got.notices.reverse, ended generated)

end EventStream

end ChatRelay
