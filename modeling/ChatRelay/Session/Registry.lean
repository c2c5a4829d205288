import ChatRelay.Session.EventStream
import ChatRelay.Codec.Vocabulary

/-!
# The registry

The registry owns the one engine, the cancellation flag and the mark that a reply is being
generated. The engine is behind a lock, and a session has the lock from `begin` to `endSession`.
Shutting down sets the flag and only then tries the lock: an idle engine is released at once, and a
busy one by the session that has it, when that session ends. Releasing resets and closes the engine.

A session that breaks down lets go of the lock like any other, but leaves it poisoned. Whoever takes
the lock next takes it all the same: what is behind it was put in order while the session unwound.
-/

namespace ChatRelay

/-- An inference engine. -/
structure Engine where
  codec : TokenCodec
  generator : Generator

/-! ### Usage -/

/-- Something that the engine is asked to do. -/
inductive EngineCall where
  | generate (prompt : List TokenId)
  | reset
  | close
deriving DecidableEq, Repr

/-- The prompt of a call, if the call is for a reply. -/
def EngineCall.prompt? : EngineCall → Option (List TokenId)
  | generate prompt => some prompt
  | reset | close => none

/-- What the engine has been asked for. -/
structure Usage where
  /-- All calls, latest first. -/
  calls : List EngineCall
deriving DecidableEq, Repr

namespace Usage

/-- The usage of an engine that nobody has called yet. -/
def none : Usage := ⟨[]⟩

/-- One more call. -/
def add (u : Usage) (call : EngineCall) : Usage := ⟨call :: u.calls⟩

/-- The number of replies asked for. -/
def invocations (u : Usage) : Nat := u.calls.countP (·.prompt?.isSome)

/-- The number of times the engine was reset. -/
def resets (u : Usage) : Nat := u.calls.count .reset

/-- The number of times the engine was closed. -/
def closes (u : Usage) : Nat := u.calls.count .close

/-- The prompt of the latest invocation. -/
def lastPrompt (u : Usage) : List TokenId := (u.calls.findSome? EngineCall.prompt?).getD []

end Usage

/-- What a request to shut down did with the engine. -/
inductive ShutdownOutcome where
  | releasedNow
  | deferred
  | alreadyReleased
deriving DecidableEq, Repr

/-- What comes of trying a lock. -/
inductive LockAttempt where
  | acquired
  /-- The lock was acquired too, but a session has broken down with it before. -/
  | poisoned
  | wouldBlock
deriving DecidableEq, Repr

/-- The owner of the engine. -/
structure Registry where
  dialect : Dialect
  maxTokens : Nat
  /-- The engine, until it is released. -/
  engine : Option Engine
  cancelled : Bool
  generating : Bool
  /-- Whether somebody has the engine's lock. -/
  busy : Bool
  /-- Whether a session has broken down while it had the lock. -/
  poisoned : Bool
  usage : Usage

namespace ShutdownOutcome

/-- The name of an outcome. -/
def name : ShutdownOutcome → String
  | releasedNow => "ReleasedNow"
  | deferred => "Deferred"
  | alreadyReleased => "AlreadyReleased"

end ShutdownOutcome

namespace Registry

/-- The token limit where none is set. -/
def defaultMaxTokens : Nat := 2048

/-- A registry with an idle engine. -/
def new (d : Dialect) (engine : Engine) (maxTokens : Nat) : Registry :=
  ⟨d, maxTokens, some engine, false, false, false, false, .none⟩

/-- A registry whose engine answers every request with one reply and the end of turn. -/
def canned (d : Dialect) (reply : String) (maxTokens : Nat) : Except EngineError Registry := do
  let v := Vocabulary.ofSpecials d.grammar.controlTokens
  let endOfTurn ← v.codec.specialTokenId d.grammar.endOfTurn
  .ok (new d ⟨v.codec, .ofScript (v.encode reply ++ [endOfTurn])⟩ maxTokens)

/-! ### The lock -/

/-- Takes the lock, once it is free. That it is poisoned is set aside. -/
def lock (r : Registry) : Registry := { r with busy := true }

/-- Takes the lock if it is free. -/
def tryLock (r : Registry) : LockAttempt × Registry :=
  if r.busy then (.wouldBlock, r)
  else (if r.poisoned then .poisoned else .acquired, r.lock)

/-- Lets go of the lock; `unwinding` if the session that has it breaks down. -/
def unlock (r : Registry) (unwinding : Bool) : Registry :=
  { r with busy := false, poisoned := r.poisoned || unwinding }

/-- Resets and closes the engine, if it is still there. -/
def release (r : Registry) : Registry :=
  match r.engine with
  | none => r
  | some _ => { r with engine := none, usage := (r.usage.add .reset).add .close }

/-- Whether the engine can be seen to be released; not while a session has it. -/
def isReleased (r : Registry) : Bool :=
  match r.tryLock.1 with
  | .acquired | .poisoned => r.engine.isNone
  | .wouldBlock => false

/-! ### Sessions -/

/-- Starts a session once the lock is free: the flag may have been set while it was not. -/
def beginLocked (r : Registry) : Except SessionError Unit × Registry :=
  let r := r.lock
  -- A shutdown that came while the lock was wanted has left the engine to be released here.
  if r.cancelled then (.error .shuttingDown, r.release.unlock false)
  else
    match r.engine with
    | none => (.error .engineReleased, r.unlock false)
    | some _ => (.ok (), { r with generating := true })

/-- Starts a session on a free engine. -/
def begin (r : Registry) : Except SessionError Unit × Registry :=
  if r.cancelled then (.error .shuttingDown, r) else r.beginLocked

/-- Ends the session; `unwinding` if it breaks down. -/
def endSession (r : Registry) (unwinding : Bool) : Registry :=
  let r := { r with generating := false }
  -- A shutdown during the session has left the engine to be released here.
  let r := if r.cancelled then r.release else r
  r.unlock unwinding

/-! ### Shutting down -/

/-- Sets the cancellation flag; says whether this call was the one that did it. -/
def cancel (r : Registry) : Bool × Registry :=
  (!r.cancelled, { r with cancelled := true })

/-- Asks the relay to shut down. -/
def requestShutdown (r : Registry) : ShutdownOutcome × Registry :=
  -- The flag comes first: a session that ends from now on sees it.
  match r.cancel.2.tryLock with
  | (.wouldBlock, r) => (.deferred, r)
  | (.acquired, r) | (.poisoned, r) =>
    (if r.engine.isSome then .releasedNow else .alreadyReleased, r.release.unlock false)

/-! ### Replies -/

/-- The prompt and classifier of a session, before the engine is invoked. -/
def prepare (r : Registry) (messages : List Message) (tools : List ToolDefinition) :
    Except SessionError (Engine × List TokenId × Classifier.Setup) :=
  match r.engine with
  | none => .error .engineReleased
  | some engine =>
    match Prompt.tokens r.dialect engine.codec messages tools with
    | .error (.invalid e) => .error (.invalid e)
    | .error (.engine e) => .error (.engine e)
    | .ok prompt =>
      match Classifier.setup r.dialect engine.codec (.ofDefinitions tools) with
      | .error e => .error (.engine e)
      | .ok setup =>
        match engine.generator.refusal with
        | some reason => .error (.engine (.generation reason))
        | none => .ok (engine, prompt, setup)

/-- What there is to tell the operator about the prompt of a reply. -/
def promptNotices (r : Registry) (messages : List Message) (tools : List ToolDefinition) :
    List SessionNotice :=
  if r.engine.isSome then (Prompt.notices r.dialect messages tools).map .prompt else []

/-- Starts a reply within the session. -/
def stream (r : Registry) (messages : List Message) (tools : List ToolDefinition) :
    EventStream × Registry :=
  match r.prepare messages tools with
  | .error e => (.failed r.cancelled e, r)
  | .ok (engine, prompt, setup) =>
    let g := engine.generator
    (⟨[], g.script, some ⟨setup, .initial prompt, 0, g.failAt, g.asksToStop, r.maxTokens⟩, 0⟩,
      { r with usage := r.usage.add (.generate prompt) })

/-- How the registry is shown to the operator. -/
def summary (r : Registry) : String :=
  "SessionRegistry \x7b dialect: " ++ r.dialect.title
    ++ ", shutting_down: " ++ String.ofList (Json.boolText r.cancelled)
    ++ ", generating: " ++ String.ofList (Json.boolText r.generating)
    ++ ", max_tokens: " ++ String.ofList (Integer.digits r.maxTokens) ++ ", .. \x7d"

end Registry

end ChatRelay
