import ChatRelay.Proofs.Session.Conditions
import ChatRelay.Proofs.Session.Drawing

/-!
# What a consumer does to a reply

As long as a consumer is quiet, it receives events and the rest of the run stays as it is
(`deliver_of_quiet`); that is all that is needed of a consumer that does nothing, of one that leaves
and of one that asks for a shutdown up to the event at which it does. `serve` is a run that also
says how many tokens were handed on.
-/

namespace ChatRelay

/-! ### Delivering events -/

namespace Consumer

variable {σ : Type} {c : Consumer σ} {world world' : σ} {e : StreamEvent}

theorem deliver_more (h : c.take world e = (world', true)) (es : List StreamEvent) :
    c.deliver world (e :: es) = c.deliver world' es := by
  rw [deliver, h]

theorem deliver_no_more (h : c.take world e = (world', false)) (es : List StreamEvent) :
    c.deliver world (e :: es) = (world', false) := by
  rw [deliver, h]

theorem deliver_single (c : Consumer σ) (world : σ) (e : StreamEvent) :
    (c.deliver world [e]).1 = (c.take world e).1 := by
  rw [deliver]
  split
  · next h => rw [h]; rfl
  · next h => rw [h]

end Consumer

namespace Reactions

/-- A consumer with reactions. -/
def consumer (reactions : Reactions) : Consumer Run :=
  ⟨Run.take reactions, Run.tell, fun run => run.registry.cancelled⟩

/-- A consumer that leaves at an event. -/
def leaving (j : Nat) : Reactions := ⟨some j, .none, .none, .none⟩

/-- A consumer that asks for a shutdown at an event. -/
def shutting (j : Nat) : Reactions := ⟨.none, some j, .none, .none⟩

/-- Whether a consumer does no more at an event than receive it. -/
def Quiet (reactions : Reactions) (n : Nat) : Prop :=
  reactions.shutdownAt ≠ some n ∧ reactions.cancelAt ≠ some n ∧ reactions.breakAt ≠ some n ∧
    reactions.stopAfter.all (n < ·) = true

theorem quiet_none (n : Nat) : Reactions.none.Quiet n := ⟨nofun, nofun, nofun, rfl⟩

theorem quiet_leaving {j n : Nat} (h : n < j) : (leaving j).Quiet n :=
  ⟨nofun, nofun, nofun, decide_eq_true h⟩

theorem quiet_shutting {j n : Nat} (h : n ≠ j) : (shutting j).Quiet n :=
  ⟨fun heq => h (Option.some.inj heq).symm, nofun, nofun, rfl⟩

end Reactions

namespace Run

/-- Receives events. -/
def receiveAll (run : Run) (es : List StreamEvent) : Run :=
  { run with log := es.reverse ++ run.log, count := run.count + es.length }

/-- A session is told that the relay shuts down, and has the engine still. -/
def defer (run : Run) : Run :=
  { run with registry := run.registry.cancel.2, outcome := some .deferred }

variable {run run' run'' : Run} {reactions : Reactions} {e : StreamEvent} {es es' : List StreamEvent}
  {j : Nat}

theorem receiveAll_nil (run : Run) : run.receiveAll [] = run := rfl

theorem receiveAll_cons (run : Run) (e : StreamEvent) (es : List StreamEvent) :
    run.receiveAll (e :: es) = (run.receive e).receiveAll es := by
  simp only [receiveAll, receive, List.reverse_cons, List.append_assoc, List.singleton_append,
    List.length_cons]
  congr 1
  omega

theorem take_of_quiet (h : reactions.Quiet (run.count + 1)) (e : StreamEvent) :
    run.take reactions e = (run.receive e, true) := by
  obtain ⟨hshutdown, hcancel, hbreak, hstop⟩ := h
  have hcount : (run.receive e).count = run.count + 1 := rfl
  simp only [take, hcount, if_neg hshutdown, if_neg hcancel, if_neg hbreak, hstop]

theorem deliver_of_quiet
    (h : ∀ n, run.count < n → n ≤ run.count + es.length → reactions.Quiet n) :
    reactions.consumer.deliver run es = (run.receiveAll es, true) := by
  induction es generalizing run with
  | nil => rfl
  | cons e es ih =>
    rw [List.length_cons] at h
    have hfirst := take_of_quiet (h (run.count + 1) (by omega) (by omega)) e
    have hrest : ∀ n, (run.receive e).count < n → n ≤ (run.receive e).count + es.length →
        reactions.Quiet n := by
      intro n hlt hle
      rw [show (run.receive e).count = run.count + 1 from rfl] at hlt hle
      exact h n (by omega) (by omega)
    rw [receiveAll_cons, ← ih hrest]
    exact Consumer.deliver_more hfirst es

/-- Whoever leaves at an event takes no more. -/
theorem deliver_leaving (hbefore : run.count < j) (hafter : j ≤ run.count + es.length) :
    (Reactions.leaving j).consumer.deliver run es =
      (run.receiveAll (es.take (j - run.count)), false) := by
  induction es generalizing run with
  | nil => exact absurd hafter (by simp only [List.length_nil]; omega)
  | cons e es ih =>
    rw [List.length_cons] at hafter
    have hcount : (run.receive e).count = run.count + 1 := rfl
    have hleft : j - run.count = j - (run.receive e).count + 1 := by omega
    rw [hleft, List.take_succ_cons, receiveAll_cons]
    by_cases hlast : run.count + 1 = j
    · have hgone : run.take (.leaving j) e = (run.receive e, false) := by
        simp [take, Reactions.leaving, receive, hlast]
      have hnone : j - (run.receive e).count = 0 := by omega
      rw [Consumer.deliver_no_more hgone, hnone, List.take_zero, receiveAll_nil]
    · have hstays : run.take (.leaving j) e = (run.receive e, true) :=
        take_of_quiet (Reactions.quiet_leaving (by omega)) e
      rw [Consumer.deliver_more hstays]
      exact ih (by omega) (by omega)

/-- Whoever asks for a shutdown during a session receives all events. -/
theorem deliver_shutting (hsession : run.registry.InSession) (hbefore : run.count < j)
    (hafter : j ≤ run.count + es.length) :
    (Reactions.shutting j).consumer.deliver run es = ((run.receiveAll es).defer, true) := by
  induction es generalizing run with
  | nil => exact absurd hafter (by simp only [List.length_nil]; omega)
  | cons e es ih =>
    rw [List.length_cons] at hafter
    have hcount : (run.receive e).count = run.count + 1 := rfl
    rw [receiveAll_cons]
    by_cases hnow : run.count + 1 = j
    · have hasked : run.take (.shutting j) e = ((run.receive e).defer, true) := by
        have hdeferred : (run.receive e).registry.requestShutdown =
            (.deferred, (run.receive e).registry.cancel.2) := hsession.requestShutdown
        simp [take, Reactions.shutting, hcount, hnow, askShutdown, hdeferred, defer]
      rw [Consumer.deliver_more hasked]
      -- The flag is set once; the events after it are like any others.
      refine deliver_of_quiet ?_
      intro n hlt _
      have : run.count + 1 < n := hlt
      exact Reactions.quiet_shutting (by omega)
    · have hquiet : run.take (.shutting j) e = (run.receive e, true) :=
        take_of_quiet (Reactions.quiet_shutting hnow) e
      rw [Consumer.deliver_more hquiet]
      exact ih hsession (by omega) (by omega)

/-! ### What a run comes to -/

/-- A run has received events, and its registry has become another. -/
structure Saw (run : Run) (es : List StreamEvent) (registry : Registry) (run' : Run) : Prop where
  received : run'.received = run.received ++ es
  registry : run'.registry = registry
  broken : run'.broken = run.broken

theorem saw_receiveAll (run : Run) (es : List StreamEvent) :
    run.Saw es run.registry (run.receiveAll es) := by
  refine ⟨?_, rfl, rfl⟩
  simp only [received, receiveAll, List.reverse_append, List.reverse_reverse]

theorem Saw.trans {registry registry' : Registry} (h : run.Saw es registry run')
    (h' : run'.Saw es' registry' run'') : run.Saw (es ++ es') registry' run'' where
  received := by rw [h'.received, h.received, List.append_assoc]
  registry := h'.registry
  broken := h'.broken.trans h.broken

theorem Saw.defer {registry : Registry} (h : run.Saw es registry run') :
    run.Saw es registry.cancel.2 run'.defer :=
  ⟨h.received, congrArg (fun r => r.cancel.2) h.registry, h.broken⟩

theorem Saw.tell {registry : Registry} (h : run.Saw es registry run')
    (notices : List SessionNotice) : run.Saw es registry (run'.tell notices) :=
  ⟨h.received, h.registry, h.broken⟩

end Run

/-! ### Consuming a reply -/

namespace Consumer

variable {σ : Type} {c : Consumer σ} {world world' : σ} {queue : List StreamEvent}
  {due : List TokenId} {g : Generation}

theorem consume_of_gone (h : c.deliver world queue = (world', false))
    (generation : Option Generation) (generated : Nat) :
    c.consume due generation queue generated world = (world', generated) := by
  unfold consume
  rw [h]

theorem consume_over (queue : List StreamEvent) (generated : Nat) (world : σ) :
    c.consume due none queue generated world = ((c.deliver world queue).1, generated) := by
  unfold consume
  split
  · next heq => rw [heq]
  · next heq => rw [heq]

theorem consume_token (h : c.deliver world queue = (world', true)) (t : TokenId) (generated : Nat) :
    c.consume (t :: due) (some g) queue generated world =
      c.consume due (g.pull (c.cancelled world') (some t)).next
        (g.pull (c.cancelled world') (some t)).events
        (if (g.pull (c.cancelled world') (some t)).counted then generated + 1 else generated)
        (c.hear world' (g.pull (c.cancelled world') (some t)).notices) := by
  rw [consume, h]

/-- The engine hands on a token. -/
theorem consume_handsOn (h : c.deliver world queue = (world', true)) (hasking : g.Asking)
    (hfail : g.failAt ≠ some (g.drawn + 1)) {t : TokenId} (ht : g.HandsOn (c.cancelled world') t)
    (generated : Nat) :
    c.consume (t :: due) (some g) queue generated world =
      c.consume due (some (g.after [t])) (g.eventsOf [t]) (generated + 1)
        (c.hear world' (g.pull (c.cancelled world') (some t)).notices) := by
  rw [consume_token h, Generation.pull_of_token hasking hfail ht]
  rfl

/-- The draw after which there is nothing to draw any more. -/
theorem consume_last (h : c.deliver world queue = (world', true))
    (hlast : g.Last (c.cancelled world') due) (generated : Nat) :
    c.consume due (some g) queue generated world =
      ((c.deliver (c.hear world' (g.pull (c.cancelled world') due.head?).notices)
        (g.pull (c.cancelled world') due.head?).events).1, generated) := by
  cases due with
  | nil =>
    unfold consume
    rw [h]
    rfl
  | cons t due =>
    have hcounted := hlast.counted
    have hnext := hlast.next
    rw [List.head?_cons] at hcounted hnext
    rw [consume_token h, hnext, hcounted, if_neg Bool.false_ne_true, consume_over]
    rfl

end Consumer

/-! ### A whole run -/

/-- The prompt and the classifier of a request, or why there are none. -/
def preparation (d : Dialect) (codec : TokenCodec) (request : GenerateRequest) :
    Except SessionError (List TokenId × Classifier.Setup) :=
  match Prompt.tokens d codec request.messages request.tools with
  | .error (.invalid e) => .error (.invalid e)
  | .error (.engine e) => .error (.engine e)
  | .ok prompt =>
    match Classifier.setup d codec (.ofDefinitions request.tools) with
    | .error e => .error (.engine e)
    | .ok s => .ok (prompt, s)

namespace Generation

/-- A reply before its first token. -/
def fresh (s : Classifier.Setup) (prompt : List TokenId) (failAt : Option Nat) (limit : Nat) :
    Generation := ⟨s, .initial prompt, 0, failAt, true, limit⟩

theorem asking_fresh (s : Classifier.Setup) (prompt : List TokenId) (failAt : Option Nat)
    (limit : Nat) : (fresh s prompt failAt limit).Asking := ⟨rfl, rfl⟩

end Generation

/-- A run at the end of its session. -/
def Run.ended (run : Run) : Run :=
  { run with registry := run.registry.endSession run.broken }

namespace Registry

/-- The registry during a session. -/
def inUse (r : Registry) : Registry := { r.lock with generating := true }

/-- A run, and the number of tokens that were handed on to the classifier. -/
def serve (r : Registry) (request : GenerateRequest) (reactions : Reactions) : Run × Nat :=
  match r.begin with
  | (.error e, r) => ((Run.take reactions (.start r) (.failure e.message)).1, 0)
  | (.ok (), r) =>
    let notices := r.promptNotices request.messages request.tools
    let (stream, r) := r.stream request.messages request.tools
    let (run, generated) := stream.consume reactions.consumer ((Run.start r).tell notices)
    (run.ended, generated)

theorem serve_fst (r : Registry) (request : GenerateRequest) (reactions : Reactions) :
    (r.serve request reactions).1 = r.run request reactions := by
  unfold serve run runFor
  rcases r.begin with ⟨e | ⟨⟩, r'⟩
  · rfl
  · rfl

variable {r : Registry} {codec : TokenCodec} {script : List TokenId} {failAt : Option Nat}

theorem prepare_eq {asks : Bool} (hengine : r.engine = some ⟨codec, ⟨script, failAt, asks, none⟩⟩)
    (request : GenerateRequest) :
    r.prepare request.messages request.tools =
      (preparation r.dialect codec request).map fun p =>
        (⟨codec, ⟨script, failAt, asks, none⟩⟩, p) := by
  rw [prepare, hengine, preparation]
  dsimp only
  rcases Prompt.tokens r.dialect codec request.messages request.tools with (e | e) | prompt
  · rfl
  · rfl
  · dsimp only
    cases Classifier.setup r.dialect codec (.ofDefinitions request.tools) <;> rfl

theorem begin_eq (hcancelled : r.cancelled = false) {engine : Engine}
    (hengine : r.engine = some engine) : r.begin = (.ok (), r.inUse) := by
  simp [begin, beginLocked, hcancelled, hengine, inUse]

/-- The registry during a session that has asked the engine for a reply. -/
def replying (r : Registry) (prompt : List TokenId) : Registry :=
  { r.inUse with usage := r.usage.add (.generate prompt) }

theorem stream_of_error (hcancelled : r.cancelled = false) {messages : List Message}
    {tools : List ToolDefinition} {e : SessionError} (he : r.prepare messages tools = .error e) :
    r.stream messages tools = (⟨[.failure e.message], [], none, 0⟩, r) := by
  rw [stream, he]
  simp only [EventStream.failed, SessionError.events, hcancelled, Bool.false_eq_true, if_false]

theorem stream_of_ok (hengine : r.engine = some ⟨codec, ⟨script, failAt, true, none⟩⟩)
    {request : GenerateRequest} {prompt : List TokenId} {s : Classifier.Setup}
    (hs : preparation r.dialect codec request = .ok (prompt, s)) :
    r.inUse.stream request.messages request.tools =
      (⟨[], script, some (.fresh s prompt failAt r.maxTokens), 0⟩, r.replying prompt) := by
  have hprepare : r.inUse.prepare request.messages request.tools =
      .ok (⟨codec, ⟨script, failAt, true, none⟩⟩, prompt, s) := by
    rw [prepare_eq (r := r.inUse) hengine]
    exact congrArg (Except.map _) hs
  rw [stream, hprepare]
  rfl

/-- A run during a session, before its first event. -/
def opened (r : Registry) (request : GenerateRequest) (session : Registry) : Run :=
  (Run.start session).tell (r.inUse.promptNotices request.messages request.tools)

/-- A run that has a session but no reply. -/
theorem serve_of_refused (hcancelled : r.cancelled = false) {engine : Engine}
    (hengine : r.engine = some engine) {request : GenerateRequest} {e : SessionError}
    (he : r.inUse.prepare request.messages request.tools = .error e) (reactions : Reactions) :
    r.serve request reactions =
      ((reactions.consumer.deliver (r.opened request r.inUse) [.failure e.message]).1.ended, 0) := by
  have hflag : r.inUse.cancelled = false := hcancelled
  rw [serve, begin_eq hcancelled hengine]
  simp only [stream_of_error hflag he, EventStream.consume, Consumer.consume_over]
  rfl

/-- A run that has a session but no prompt or no classifier. -/
theorem serve_of_error (hcancelled : r.cancelled = false)
    (hengine : r.engine = some ⟨codec, ⟨script, failAt, true, none⟩⟩) {request : GenerateRequest}
    {e : SessionError} (he : preparation r.dialect codec request = .error e)
    (reactions : Reactions) :
    r.serve request reactions =
      ((reactions.consumer.deliver (r.opened request r.inUse) [.failure e.message]).1.ended, 0) := by
  refine serve_of_refused hcancelled hengine ?_ reactions
  rw [prepare_eq (r := r.inUse) hengine]
  exact congrArg (Except.map _) he

/-- A run that has a prompt and a classifier. -/
theorem serve_of_ok (hcancelled : r.cancelled = false)
    (hengine : r.engine = some ⟨codec, ⟨script, failAt, true, none⟩⟩) {request : GenerateRequest}
    {prompt : List TokenId} {s : Classifier.Setup}
    (hs : preparation r.dialect codec request = .ok (prompt, s)) (reactions : Reactions) :
    r.serve request reactions =
      (reactions.consumer.consume script (some (.fresh s prompt failAt r.maxTokens)) [] 0
        (r.opened request (r.replying prompt))).map Run.ended id := by
  rw [serve, begin_eq hcancelled hengine]
  simp only [stream_of_ok hengine hs, EventStream.consume]
  rfl

end Registry

end ChatRelay
