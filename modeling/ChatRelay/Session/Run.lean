import ChatRelay.Session.Registry

/-!
# Running a request

One request from beginning to end: a session is begun, every event is handed to a consumer, and the
session is ended when the events are over or the consumer has gone. A request that cannot begin is
one error event. The consumer may ask for a shutdown, cancel, leave or break down at an event of its
choice.
-/

namespace ChatRelay

/-- At which events, counted from one, a consumer does something. -/
structure Reactions where
  /-- Leaves after so many events; at least one is taken. -/
  stopAfter : Option Nat
  /-- Asks the relay to shut down. -/
  shutdownAt : Option Nat
  /-- Sets the cancellation flag. -/
  cancelAt : Option Nat
  /-- Breaks down. -/
  breakAt : Option Nat
deriving DecidableEq, Repr

/-- A consumer that takes all events. -/
def Reactions.none : Reactions := ⟨.none, .none, .none, .none⟩

/-- A run: the registry, and what its consumer has seen. -/
structure Run where
  registry : Registry
  /-- The events that the consumer has received, latest first. -/
  log : List StreamEvent
  /-- The number of events received. -/
  count : Nat
  /-- What came of the consumer's request to shut down. -/
  outcome : Option ShutdownOutcome
  /-- Whether the consumer broke down. -/
  broken : Bool
  /-- What there was to tell the operator, latest first. -/
  told : List SessionNotice

namespace Run

/-- A run that has not begun. -/
def start (r : Registry) : Run :=
  ⟨r, [], 0, none, false, []⟩

/-- The events that the consumer has received. -/
def received (run : Run) : List StreamEvent :=
  run.log.reverse

/-- What there was to tell the operator. -/
def notices (run : Run) : List SessionNotice :=
  run.told.reverse

/-- Tells the operator. -/
def tell (run : Run) (notices : List SessionNotice) : Run :=
  { run with told := notices.reverse ++ run.told }

/-- Receives an event. -/
def receive (run : Run) (e : StreamEvent) : Run :=
  { run with log := e :: run.log, count := run.count + 1 }

/-- The consumer asks the relay to shut down. -/
def askShutdown (run : Run) : Run :=
  let (outcome, registry) := run.registry.requestShutdown
  { run with registry, outcome := some outcome }

/-- The consumer sets the cancellation flag. -/
def cancel (run : Run) : Run :=
  { run with registry := run.registry.cancel.2 }

/-- Hands an event to a consumer with reactions; says whether it wants more. -/
def take (reactions : Reactions) (run : Run) (e : StreamEvent) : Run × Bool :=
  let run := run.receive e
  let n := run.count
  let run := if reactions.shutdownAt = some n then run.askShutdown else run
  let run := if reactions.cancelAt = some n then run.cancel else run
  if reactions.breakAt = some n then ({ run with broken := true }, false)
  else (run, reactions.stopAfter.all (n < ·))

end Run

namespace Registry

/-- Runs a request for a consumer that takes events in its own way. -/
def runFor (r : Registry) (request : GenerateRequest) (take : Run → StreamEvent → Run × Bool) :
    Run :=
  match r.begin with
  | (.error e, r) => (take (.start r) (.failure e.message)).1
  | (.ok (), r) =>
    let notices := r.promptNotices request.messages request.tools
    let (stream, r) := r.stream request.messages request.tools
    let (run, _) :=
      stream.consume ⟨take, Run.tell, fun run => run.registry.cancelled⟩
        ((Run.start r).tell notices)
    { run with registry := run.registry.endSession run.broken }

/-- Runs a request for a consumer with reactions. -/
def run (r : Registry) (request : GenerateRequest) (reactions : Reactions) : Run :=
  r.runFor request (Run.take reactions)

end Registry

end ChatRelay
