import ChatRelay.Session.Run

/-!
# A client of the registry

A client that holds at most one session, and in it at most one stream, and that takes one step at a
time. A step that does not fit what the client holds changes nothing and is refused.
-/

namespace ChatRelay.Client

/-- What a client holds. -/
inductive Hold where
  | idle
  | session
  | stream (s : EventStream)

/-- A step of a client. -/
inductive Step where
  | run (request : GenerateRequest) (reactions : Reactions)
  | begin
  /-- Two sessions contend for the engine while the relay is shut down. -/
  | contend
  | stream (messages : List Message) (tools : List ToolDefinition)
  | endSession
  /-- The client breaks down: what it holds is dropped while it unwinds. -/
  | breakDown
  | next
  | drain
  | generated
  | dropStream
  | shutdown
  | cancel
  | status

/-- Why a step is refused. -/
inductive Misuse where
  | streamOpen
  | busy
  | noStream
  | noSession
deriving DecidableEq, Repr

/-- The name of a misuse. -/
def Misuse.name : Misuse → String
  | streamOpen => "StreamOpen"
  | busy => "Busy"
  | noStream => "NoStream"
  | noSession => "NoSession"

/-- What a step answers. -/
inductive Answer where
  | done
  | misuse (m : Misuse)
  | rejected (e : SessionError)
  | ran (received : List StreamEvent) (outcome : Option ShutdownOutcome) (broken : Bool)
  | contended (outcome : ShutdownOutcome) (second : Except SessionError Unit)
  | event (e : Option StreamEvent)
  | events (es : List StreamEvent)
  | generated (n : Nat)
  | outcome (o : ShutdownOutcome)
  | cancelled (first : Bool)
  | status (summary : String) (maxTokens : Nat) (d : Dialect) (prompt : List TokenId)

/-- The registry and what the client holds of it. -/
structure State where
  registry : Registry
  hold : Hold

/-- What comes of a step: the state after it, its answer, and what there is to tell the operator. -/
structure Result extends State where
  answer : Answer
  notices : List SessionNotice

/-- A step of which there is nothing to tell. -/
def quietly (answer : Answer) (r : Registry) (hold : Hold) : Result :=
  ⟨⟨r, hold⟩, answer, []⟩

/-- Two sessions at once: the first begins, the second passes the first look at the flag and waits
for the engine, the relay is asked to shut down, and the first session ends. -/
def contend (r : Registry) : Answer × Registry :=
  match r.begin with
  | (.error e, r) => (.rejected e, r)
  | (.ok (), r) =>
    let (outcome, r) := r.requestShutdown
    let (second, r) := (r.endSession false).beginLocked
    (.contended outcome second, r)

/-- A step that fits whatever the client holds. -/
def anywhere (st : State) : Step → Option Result
  | .shutdown =>
    let (o, r) := st.registry.requestShutdown
    some (quietly (.outcome o) r st.hold)
  | .cancel =>
    let (first, r) := st.registry.cancel
    some (quietly (.cancelled first) r st.hold)
  | .status =>
    let r := st.registry
    some (quietly (.status r.summary r.maxTokens r.dialect r.usage.lastPrompt) r st.hold)
  | _ => none

/-- A step outside a session. -/
def stepIdle (r : Registry) : Step → Result
  | .run request reactions =>
    let run := r.run request reactions
    ⟨⟨run.registry, .idle⟩, .ran run.received run.outcome run.broken, run.notices⟩
  | .begin =>
    match r.begin with
    | (.ok (), r) => quietly .done r .session
    | (.error e, r) => quietly (.rejected e) r .idle
  | .contend =>
    let (answer, r) := contend r
    quietly answer r .idle
  | .next | .drain | .generated | .dropStream => quietly (.misuse .noStream) r .idle
  | _ => quietly (.misuse .noSession) r .idle

/-- A step inside a session, but outside a stream. -/
def stepSession (r : Registry) : Step → Result
  | .stream messages tools =>
    let notices := r.promptNotices messages tools
    let (s, r) := r.stream messages tools
    ⟨⟨r, .stream s⟩, .done, notices⟩
  | .endSession => quietly .done (r.endSession false) .idle
  | .breakDown => quietly .done (r.endSession true) .idle
  | .next | .drain | .generated | .dropStream => quietly (.misuse .noStream) r .session
  | _ => quietly (.misuse .busy) r .session

/-- A step inside a stream. -/
def stepStream (r : Registry) (s : EventStream) : Step → Result
  | .next =>
    let d := s.next r.cancelled
    ⟨⟨r, .stream d.stream⟩, .event d.event, d.notices⟩
  | .drain =>
    let (es, notices, s) := s.drain r.cancelled
    ⟨⟨r, .stream s⟩, .events es, notices⟩
  | .generated => quietly (.generated s.generated) r (.stream s)
  | .dropStream => quietly .done r .session
  | .breakDown => quietly .done (r.endSession true) .idle
  | .begin => quietly (.misuse .busy) r (.stream s)
  | _ => quietly (.misuse .streamOpen) r (.stream s)

/-- Takes a step. -/
def step (st : State) (s : Step) : Result :=
  match anywhere st s with
  | some result => result
  | none =>
    match st.hold with
    | .idle => stepIdle st.registry s
    | .session => stepSession st.registry s
    | .stream stream => stepStream st.registry stream s

/-- Takes steps one after the other. -/
def steps : State → List Step → List Result
  | _, [] => []
  | st, s :: rest =>
    let result := step st s
    result :: steps result.toState rest

end ChatRelay.Client
