import ChatRelay.Proofs.Session.Accounts

/-!
# Callers that interleave

The registry's operations, one action at a time, for any number of callers at once. Where a caller
is in its operation is its `Stage`, and `Stage.advance` is its next action on the registry; a caller
that waits for the lock has none while the lock is taken. Every action is one of the registry's own:
an operation that nobody interrupts is the operation of the registry (`alone_begin`,
`alone_endSession`, `alone_requestShutdown`).

Between operations a caller has a session or none. What came of the last operation is kept, and so
is how the lock was let go of last.
-/

namespace ChatRelay

/-- What came of the last operation of a caller. -/
inductive Reply where
  | none
  | refused (e : SessionError)
  | ended
  | outcome (o : ShutdownOutcome)
deriving DecidableEq, Repr

/-- An operation that a caller may start. -/
inductive Operation where
  | begin
  | endSession (unwinding : Bool)
  | requestShutdown
deriving DecidableEq, Repr

/-- Where a caller is. -/
inductive Stage where
  /-- Between operations, without a session. -/
  | idle (last : Reply)
  /-- `begin` is to read the flag. -/
  | arriving
  /-- `begin` is to take the lock. -/
  | waiting
  /-- `begin` has the lock and is to read the flag again. -/
  | checking
  /-- `begin` has found the flag set and is to release the engine. -/
  | refusing
  /-- `begin` has found the flag unset and is to mark the session. -/
  | entering
  /-- Between operations, with a session. -/
  | active
  /-- The end of a session is to clear the mark. -/
  | clearing (unwinding : Bool)
  /-- The end of a session is to read the flag. -/
  | looking (unwinding : Bool)
  /-- The end of a session has found the flag set and is to release the engine. -/
  | releasing (unwinding : Bool)
  /-- `requestShutdown` is to set the flag. -/
  | signalling
  /-- `requestShutdown` is to try the lock. -/
  | trying
  /-- `requestShutdown` has the lock and is to release the engine. -/
  | stopping
  /-- An operation is to let go of the lock; `overlooks` if it is the end of a session that has
  found the flag unset. -/
  | leaving (overlooks unwinding : Bool) (reply : Reply)
deriving DecidableEq, Repr

namespace Stage

/-- Whether a caller has the lock. -/
def holds : Stage → Bool
  | checking | refusing | entering | active | clearing _ | looking _ | releasing _ | stopping
  | leaving _ _ _ => true
  | idle _ | arriving | waiting | signalling | trying => false

/-- Whether a caller is between operations, and has no session. -/
def isIdle : Stage → Bool
  | idle _ => true
  | _ => false

/-- Whether a caller is between operations. -/
def isFinished : Stage → Bool
  | idle _ | active => true
  | _ => false

/-- Whether the engine is overlooked after an action, if it was or was not before. -/
def overlooks (before : Bool) : Stage → Bool
  | leaving overlooks _ _ => overlooks
  | _ => before

/-- Starts an operation, where it can be started. -/
def start : Stage → Operation → Option Stage
  | idle _, .begin => some arriving
  | idle _, .requestShutdown => some signalling
  | active, .endSession unwinding => some (clearing unwinding)
  | _, _ => none

/-- The next action of a caller; none if there is nothing to do or the lock is waited for. -/
def advance (r : Registry) : Stage → Option (Registry × Stage)
  | idle _ | active => none
  | arriving => some (r, if r.cancelled then idle (.refused .shuttingDown) else waiting)
  | waiting => if r.busy then none else some (r.lock, checking)
  | checking => some (r, if r.cancelled then refusing else entering)
  | refusing => some (r.release, leaving false false (.refused .shuttingDown))
  | entering =>
    match r.engine with
    | none => some (r, leaving false false (.refused .engineReleased))
    | some _ => some ({ r with generating := true }, active)
  | clearing unwinding => some ({ r with generating := false }, looking unwinding)
  | looking unwinding =>
    some (r, if r.cancelled then releasing unwinding else leaving true unwinding .ended)
  | releasing unwinding => some (r.release, leaving false unwinding .ended)
  | signalling => some (r.cancel.2, trying)
  | trying =>
    match r.tryLock with
    | (.wouldBlock, r) => some (r, idle (.outcome .deferred))
    | (.acquired, r) | (.poisoned, r) => some (r, stopping)
  | stopping =>
    some (r.release, leaving false false
      (.outcome (if r.engine.isSome then .releasedNow else .alreadyReleased)))
  | leaving _ unwinding reply => some (r.unlock unwinding, idle reply)

/-- Goes on alone, for so many actions at most. -/
def alone : Nat → Registry → Stage → Registry × Stage
  | 0, r, s => (r, s)
  | n + 1, r, s =>
    match s.advance r with
    | none => (r, s)
    | some (r, s) => alone n r s

/-! ### Operations that nobody interrupts -/

theorem alone_begin {r : Registry} (h : r.busy = false) :
    alone 5 r arriving =
      (r.begin.2, match r.begin.1 with
        | .ok () => active
        | .error e => idle (.refused e)) := by
  cases hcancelled : r.cancelled with
  | true => simp [alone, advance, Registry.begin, hcancelled]
  | false =>
    cases hengine : r.engine <;>
      simp [alone, advance, Registry.begin, Registry.beginLocked, h, hcancelled, hengine]

theorem alone_endSession (r : Registry) (unwinding : Bool) :
    alone 4 r (clearing unwinding) = (r.endSession unwinding, idle .ended) := by
  cases hcancelled : r.cancelled <;>
    simp [alone, advance, Registry.endSession, hcancelled]

theorem alone_requestShutdown (r : Registry) :
    alone 4 r signalling = (r.requestShutdown.2, idle (.outcome r.requestShutdown.1)) := by
  unfold Registry.requestShutdown
  cases htry : r.cancel.2.tryLock with
  | mk attempt after => cases attempt <;> simp [alone, advance, htry]

end Stage

/-! ### Systems -/

/-- What a caller may do: start an operation, go on with it, or use its session. -/
inductive Move where
  | start (op : Operation)
  | advance
  | stream (messages : List Message) (tools : List ToolDefinition)

/-- A registry and its callers. -/
structure System where
  registry : Registry
  stage : Nat → Stage
  /-- Whether the end of a session that had found the flag unset let go of the lock last. -/
  overlooked : Bool

namespace System

/-- A registry and callers that have not called yet. -/
def new (r : Registry) : System := ⟨r, fun _ => .idle .none, false⟩

/-- A system in which one caller is at another stage. -/
def moveTo (σ : System) (c : Nat) (s : Stage) : System :=
  { σ with stage := fun c' => if c' = c then s else σ.stage c' }

/-- What a move of a caller leads to; none if it cannot be made. -/
def step (σ : System) (c : Nat) : Move → Option System
  | .start op => ((σ.stage c).start op).map (σ.moveTo c)
  | .advance =>
    ((σ.stage c).advance σ.registry).map fun (r, s) =>
      { σ.moveTo c s with
        registry := r
        overlooked := (σ.stage c).overlooks σ.overlooked }
  | .stream messages tools =>
    match σ.stage c with
    | .active => some { σ with registry := (σ.registry.stream messages tools).2 }
    | _ => none

/-- The systems that callers can lead a registry to. -/
inductive Reachable (r : Registry) : System → Prop where
  | new : Reachable r (new r)
  | step {σ σ' : System} (h : Reachable r σ) (c : Nat) (m : Move) (hm : σ.step c m = some σ') :
    Reachable r σ'

/-- Makes moves one after the other, if they can all be made. -/
def run : System → List (Nat × Move) → Option System
  | σ, [] => some σ
  | σ, (c, m) :: rest => (σ.step c m).bind (run · rest)

theorem Reachable.run {r : Registry} {σ σ' : System} {schedule : List (Nat × Move)}
    (h : Reachable r σ) (hrun : σ.run schedule = some σ') : Reachable r σ' := by
  induction schedule generalizing σ with
  | nil =>
    obtain rfl := Option.some.inj hrun
    exact h
  | cons p rest ih =>
    obtain ⟨c, m⟩ := p
    obtain ⟨next, hnext, hrest⟩ := Option.bind_eq_some_iff.1 hrun
    exact ih (h.step c m hnext) hrest

end System

end ChatRelay
