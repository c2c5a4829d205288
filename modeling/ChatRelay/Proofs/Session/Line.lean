import ChatRelay.Proofs.Session.Departing

/-!
# Clients in line

The worker of the queue and its clients, one action at a time. A request that is put in line waits
until the worker takes it. The worker looks whether the client is still there, begins a session, and
sends every event of the reply as the client's channel has room; a client receives them, and leaves
when it likes. A worker whose client has no room waits, and one whose client is gone ends the
session. The session is the registry's own: `Registry.begin`, `Registry.stream`, `EventStream.next`
and `Registry.endSession`.

A client is a number and has one request and one channel. Who was put in line, taken out of it and
given a session is kept, in order. `Step` says what a move can do, case by case.
-/

namespace ChatRelay

/-! ### Moves -/

namespace Moves

variable {State Move : Type} {step : State → Move → Option State}

/-- The states that moves lead to. -/
inductive Reachable (step : State → Move → Option State) (start : State) : State → Prop where
  | new : Reachable step start start
  | step {σ σ' : State} (h : Reachable step start σ) (m : Move) (hm : step σ m = some σ') :
    Reachable step start σ'

/-- Makes moves one after the other, if they can all be made. -/
def run (step : State → Move → Option State) : State → List Move → Option State
  | σ, [] => some σ
  | σ, m :: rest => (step σ m).bind (run step · rest)

theorem Reachable.run {start σ σ' : State} {schedule : List Move} (h : Reachable step start σ)
    (hrun : Moves.run step σ schedule = some σ') : Reachable step start σ' := by
  induction schedule generalizing σ with
  | nil =>
    obtain rfl := Option.some.inj hrun
    exact h
  | cons m rest ih =>
    obtain ⟨next, hnext, hrest⟩ := Option.bind_eq_some_iff.1 hrun
    exact ih (h.step m hnext) hrest

end Moves

/-! ### Traffic -/

/-- What clients ask for, and how much may wait: requests in line, and events for each client. -/
structure Traffic where
  request : Nat → GenerateRequest
  capacity : Nat
  buffer : Nat
  capacity_pos : 0 < capacity
  buffer_pos : 0 < buffer

/-! ### Channels -/

/-- The events of a client on their way. -/
structure Channel where
  /-- What the client has received. -/
  received : List StreamEvent
  /-- What was sent and is still to be received. -/
  waiting : List StreamEvent
  connected : Bool
  /-- Whether there is still somebody to send to it. -/
  live : Bool

/-- What comes of sending an event. -/
inductive Sent where
  | sent (ch : Channel)
  /-- There is no room. -/
  | full
  /-- The client has left. -/
  | gone

namespace Channel

/-- A channel that nothing was sent to. -/
def new : Channel := ⟨[], [], true, true⟩

/-- One more event waits. -/
def put (ch : Channel) (e : StreamEvent) : Channel := { ch with waiting := ch.waiting ++ [e] }

/-- Sends an event, if there is room for it among so many. -/
def send (ch : Channel) (room : Nat) (e : StreamEvent) : Sent :=
  if ch.connected then if ch.waiting.length < room then .sent (ch.put e) else .full
  else .gone

/-- The first event that waits is received, and the others go on waiting. -/
def got (ch : Channel) (e : StreamEvent) (rest : List StreamEvent) : Channel :=
  { ch with received := ch.received ++ [e], waiting := rest }

/-- Receives the event that has waited longest. -/
def receive? (ch : Channel) : Option Channel :=
  match ch.connected, ch.waiting with
  | true, e :: rest => some (ch.got e rest)
  | _, _ => none

/-- The client leaves, and what waits for it is lost. -/
def leave (ch : Channel) : Channel := { ch with waiting := [], connected := false }

/-- Nothing will be sent any more. -/
def close (ch : Channel) : Channel := { ch with live := false }

end Channel

/-! ### The worker -/

/-- Where the worker is. -/
inductive Worker where
  | idle
  /-- It has taken a request, and is to look whether the client is still there. -/
  | looking (c : Nat)
  /-- It is to begin a session. -/
  | opening (c : Nat)
  /-- It has a session, and is to ask for the next event of the reply. -/
  | drawing (c : Nat) (s : EventStream)
  /-- It has a session, and is to send an event. -/
  | sending (c : Nat) (e : StreamEvent) (s : EventStream)
  /-- It is to end its session. -/
  | ending (c : Nat)
  /-- It has got no session, and is to say why. -/
  | refusing (c : Nat) (e : StreamEvent)
  /-- It is done with a request, and is to let go of the channel. -/
  | closing (c : Nat)

namespace Worker

/-- The client whose request the worker has taken. -/
def client? : Worker → Option Nat
  | idle => none
  | looking c | opening c | drawing c _ | sending c _ _ | ending c | refusing c _ | closing c =>
    some c

/-- The client that the worker has a session for. -/
def session? : Worker → Option Nat
  | drawing c _ | sending c _ _ | ending c => some c
  | idle | looking _ | opening _ | refusing _ _ | closing _ => none

/-- Whether the worker has still to decide on a session for the request that it has, if any. -/
def undecided : Worker → Bool
  | idle | looking _ | opening _ => true
  | drawing _ _ | sending _ _ _ | ending _ | refusing _ _ | closing _ => false

end Worker

/-! ### Systems -/

/-- A registry, its worker and the clients. -/
structure Line where
  registry : Registry
  worker : Worker
  channel : Nat → Channel
  /-- The clients whose requests are in line. -/
  waiting : List Nat
  /-- The clients that were put in line so far. -/
  submitted : List Nat
  /-- The clients that the worker is done with. -/
  served : List Nat
  /-- The clients whose sessions have begun. -/
  begun : List Nat
  /-- The clients whose sessions are over. -/
  ended : List Nat

namespace Line

/-- What may happen next. -/
inductive Move where
  /-- A client's request is put in line. -/
  | submit (c : Nat)
  /-- The worker does what it is to do. -/
  | work
  /-- A client receives an event. -/
  | receive (c : Nat)
  /-- A client leaves. -/
  | leave (c : Nat)
deriving DecidableEq

/-- A registry and nobody in line. -/
def new (r : Registry) : Line := ⟨r, .idle, fun _ => .new, [], [], [], [], []⟩

/-- The clients whose requests the worker has taken so far. -/
def taken (σ : Line) : List Nat := σ.served ++ σ.worker.client?.toList

/-- The line with another channel of a client. -/
def setChannel (σ : Line) (c : Nat) (ch : Channel) : Line :=
  { σ with channel := Function.update σ.channel c ch }

/-- The line with the worker elsewhere. -/
def moveTo (σ : Line) (w : Worker) : Line := { σ with worker := w }

/-- The worker begins a session, once the lock is free, or is refused one. -/
def openSession (t : Traffic) (σ : Line) (c : Nat) : Option Line :=
  if σ.registry.cancelled = false ∧ σ.registry.busy then none
  else
    match σ.registry.begin with
    | (.error e, r) => some { σ.moveTo (.refusing c (.failure e.message)) with registry := r }
    | (.ok (), r) =>
      let (s, r) := r.stream (t.request c).messages (t.request c).tools
      some { σ.moveTo (.drawing c s) with registry := r, begun := σ.begun ++ [c] }

/-- The worker sends an event, and goes on as the channel has taken it or the client is gone. -/
def sendEvent (t : Traffic) (σ : Line) (c : Nat) (e : StreamEvent) (next left : Worker) :
    Option Line :=
  match (σ.channel c).send t.buffer e with
  | .sent ch => some ((σ.setChannel c ch).moveTo next)
  | .full => none
  | .gone => some (σ.moveTo left)

/-- What the worker does next; none if it waits. -/
def work (t : Traffic) (σ : Line) : Option Line :=
  match σ.worker with
  | .idle =>
    match σ.waiting with
    | [] => none
    | c :: rest => some { σ.moveTo (.looking c) with waiting := rest }
  | .looking c => some (σ.moveTo (if (σ.channel c).connected then .opening c else .closing c))
  | .opening c => σ.openSession t c
  | .drawing c s =>
    let d := s.next σ.registry.cancelled
    match d.event with
    | some e => some (σ.moveTo (.sending c e d.stream))
    | none => some (σ.moveTo (.ending c))
  | .sending c e s => σ.sendEvent t c e (.drawing c s) (.ending c)
  | .refusing c e => σ.sendEvent t c e (.closing c) (.closing c)
  | .ending c =>
    some { σ.moveTo (.closing c) with
      registry := σ.registry.endSession false
      ended := σ.ended ++ [c] }
  | .closing c =>
    some { (σ.setChannel c (σ.channel c).close).moveTo .idle with served := σ.served ++ [c] }

/-- What a move leads to; none if it cannot be made. -/
def step (t : Traffic) (σ : Line) : Move → Option Line
  | .submit c =>
    if c ∉ σ.submitted ∧ σ.waiting.length < t.capacity then
      some { σ with waiting := σ.waiting ++ [c], submitted := σ.submitted ++ [c] }
    else none
  | .work => σ.work t
  | .receive c => (σ.channel c).receive?.map (σ.setChannel c)
  | .leave c =>
    if (σ.channel c).connected then some (σ.setChannel c (σ.channel c).leave) else none

/-- The lines that traffic can lead to. -/
abbrev Reachable (t : Traffic) (r : Registry) : Line → Prop := Moves.Reachable (step t) (new r)

/-- Makes moves one after the other, if they can all be made. -/
abbrev run (t : Traffic) : Line → List Move → Option Line := Moves.run (step t)

theorem channel_moveTo (σ : Line) (w : Worker) : (σ.moveTo w).channel = σ.channel := rfl

theorem setChannel_self (σ : Line) (c : Nat) (ch : Channel) :
    (σ.setChannel c ch).channel c = ch := Function.update_self ..

theorem setChannel_of_ne (σ : Line) {c d : Nat} (h : d ≠ c) (ch : Channel) :
    (σ.setChannel c ch).channel d = σ.channel d := Function.update_of_ne h ..

/-! ### What a move can do -/

/-- The moves by cases. -/
inductive Step (t : Traffic) (σ : Line) : Move → Line → Prop where
  | submit {c : Nat} (hnew : c ∉ σ.submitted) (hroom : σ.waiting.length < t.capacity) :
    Step t σ (.submit c)
      { σ with waiting := σ.waiting ++ [c], submitted := σ.submitted ++ [c] }
  | take {c : Nat} {rest : List Nat} (hw : σ.worker = .idle) (hwaiting : σ.waiting = c :: rest) :
    Step t σ .work { σ.moveTo (.looking c) with waiting := rest }
  | keep {c : Nat} (hw : σ.worker = .looking c) (hconnected : (σ.channel c).connected = true) :
    Step t σ .work (σ.moveTo (.opening c))
  | skip {c : Nat} (hw : σ.worker = .looking c) (hgone : (σ.channel c).connected = false) :
    Step t σ .work (σ.moveTo (.closing c))
  | refuse {c : Nat} {e : SessionError} {r : Registry} (hw : σ.worker = .opening c)
    (hbegin : σ.registry.begin = (.error e, r)) :
    Step t σ .work { σ.moveTo (.refusing c (.failure e.message)) with registry := r }
  | begin {c : Nat} {r r' : Registry} {s : EventStream} (hw : σ.worker = .opening c)
    (hbegin : σ.registry.begin = (.ok (), r))
    (hstream : r.stream (t.request c).messages (t.request c).tools = (s, r')) :
    Step t σ .work { σ.moveTo (.drawing c s) with registry := r', begun := σ.begun ++ [c] }
  | draw {c : Nat} {s : EventStream} {e : StreamEvent} (hw : σ.worker = .drawing c s)
    (he : (s.next σ.registry.cancelled).event = some e) :
    Step t σ .work (σ.moveTo (.sending c e (s.next σ.registry.cancelled).stream))
  | finish {c : Nat} {s : EventStream} (hw : σ.worker = .drawing c s)
    (hnone : (s.next σ.registry.cancelled).event = none) :
    Step t σ .work (σ.moveTo (.ending c))
  | send {c : Nat} {e : StreamEvent} {s : EventStream} (hw : σ.worker = .sending c e s)
    (hconnected : (σ.channel c).connected = true)
    (hroom : (σ.channel c).waiting.length < t.buffer) :
    Step t σ .work ((σ.setChannel c ((σ.channel c).put e)).moveTo (.drawing c s))
  | abandon {c : Nat} {e : StreamEvent} {s : EventStream} (hw : σ.worker = .sending c e s)
    (hgone : (σ.channel c).connected = false) : Step t σ .work (σ.moveTo (.ending c))
  | tell {c : Nat} {e : StreamEvent} (hw : σ.worker = .refusing c e)
    (hconnected : (σ.channel c).connected = true)
    (hroom : (σ.channel c).waiting.length < t.buffer) :
    Step t σ .work ((σ.setChannel c ((σ.channel c).put e)).moveTo (.closing c))
  | drop {c : Nat} {e : StreamEvent} (hw : σ.worker = .refusing c e)
    (hgone : (σ.channel c).connected = false) : Step t σ .work (σ.moveTo (.closing c))
  | close {c : Nat} (hw : σ.worker = .ending c) :
    Step t σ .work { σ.moveTo (.closing c) with
      registry := σ.registry.endSession false
      ended := σ.ended ++ [c] }
  | release {c : Nat} (hw : σ.worker = .closing c) :
    Step t σ .work { (σ.setChannel c (σ.channel c).close).moveTo .idle with
      served := σ.served ++ [c] }
  | receive {c : Nat} {e : StreamEvent} {rest : List StreamEvent}
    (hconnected : (σ.channel c).connected = true) (hwaiting : (σ.channel c).waiting = e :: rest) :
    Step t σ (.receive c) (σ.setChannel c ((σ.channel c).got e rest))
  | leave {c : Nat} (hconnected : (σ.channel c).connected = true) :
    Step t σ (.leave c) (σ.setChannel c (σ.channel c).leave)

variable {t : Traffic} {σ σ' : Line} {m : Move}

/-- What comes of sending an event, and what was the case. -/
theorem of_sendEvent {c : Nat} {e : StreamEvent} {next left : Worker}
    (h : σ.sendEvent t c e next left = some σ') :
    ((σ.channel c).connected = true ∧ (σ.channel c).waiting.length < t.buffer ∧
      σ' = (σ.setChannel c ((σ.channel c).put e)).moveTo next) ∨
    ((σ.channel c).connected = false ∧ σ' = σ.moveTo left) := by
  unfold sendEvent Channel.send at h
  split_ifs at h with hconnected hroom
  · exact .inl ⟨hconnected, hroom, (Option.some.inj h).symm⟩
  · exact .inr ⟨by simpa using hconnected, (Option.some.inj h).symm⟩

/-- The moves are those of the cases. -/
theorem Step.of_step (h : σ.step t m = some σ') : Step t σ m σ' := by
  cases m with
  | submit c =>
    simp only [step] at h
    split_ifs at h with hnew
    obtain rfl := Option.some.inj h
    exact .submit hnew.1 hnew.2
  | receive c =>
    obtain ⟨ch, hch, rfl⟩ := Option.map_eq_some_iff.1 h
    unfold Channel.receive? at hch
    split at hch
    · next hconnected hwaiting =>
      obtain rfl := Option.some.inj hch
      exact .receive hconnected hwaiting
    · cases hch
  | leave c =>
    simp only [step] at h
    split_ifs at h with hconnected
    obtain rfl := Option.some.inj h
    exact .leave hconnected
  | work =>
    simp only [step, work] at h
    split at h
    · next hw =>
      split at h
      · cases h
      · next hwaiting =>
        obtain rfl := Option.some.inj h
        exact .take hw hwaiting
    · next c hw =>
      obtain rfl := Option.some.inj h
      cases hconnected : (σ.channel c).connected with
      | true => exact .keep hw hconnected
      | false => exact .skip hw hconnected
    · next c hw =>
      unfold openSession at h
      split_ifs at h
      split at h
      · next hbegin =>
        obtain rfl := Option.some.inj h
        exact .refuse hw hbegin
      · next hbegin =>
        obtain rfl := Option.some.inj h
        exact .begin hw hbegin rfl
    · next hw =>
      split at h
      · next he =>
        obtain rfl := Option.some.inj h
        exact .draw hw he
      · next hnone =>
        obtain rfl := Option.some.inj h
        exact .finish hw hnone
    · next hw =>
      rcases of_sendEvent h with ⟨hconnected, hroom, rfl⟩ | ⟨hgone, rfl⟩
      · exact .send hw hconnected hroom
      · exact .abandon hw hgone
    · next hw =>
      rcases of_sendEvent h with ⟨hconnected, hroom, rfl⟩ | ⟨hgone, rfl⟩
      · exact .tell hw hconnected hroom
      · exact .drop hw hgone
    · next hw =>
      obtain rfl := Option.some.inj h
      exact .close hw
    · next hw =>
      obtain rfl := Option.some.inj h
      exact .release hw

/-- Nobody is put in line by another move. -/
theorem Step.submitted (hm : Step t σ m σ') (h : ∀ c, m ≠ .submit c) :
    σ'.submitted = σ.submitted := by
  cases hm with
  | @submit c => exact absurd rfl (h c)
  | _ => rfl

/-- What holds at first and is kept by every move holds of every line. -/
theorem Reachable.induct {r : Registry} {P : Line → Prop} (hnew : P (Line.new r))
    (hstep : ∀ {σ σ' : Line} {m : Move}, P σ → Step t σ m σ' → P σ') (h : Reachable t r σ) :
    P σ := by
  induction h with
  | new => exact hnew
  | step _ m hm ih => exact hstep ih (.of_step hm)

end Line

end ChatRelay
