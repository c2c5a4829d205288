import ChatRelay.Proofs.Session.Consuming

/-!
# Consumers that may go at any time

A consumer that asks for nothing but may leave or break down gets the events of a reply in order, up
to the one at which it goes (`taken`), whatever the engine does; and it leaves the registry alone
(`took_consume`). What it is the beginning of is `EventStream.rest`: all events of a reply, drawn
until there is nothing to draw any more.
-/

namespace ChatRelay

namespace Reactions

/-- A consumer that asks for nothing: it may leave or break down at an event, and that is all. -/
structure Departing (reactions : Reactions) : Prop where
  shutdownAt : reactions.shutdownAt = .none
  cancelAt : reactions.cancelAt = .none

/-- Whether a consumer goes at its `n`th event. -/
def goesAt (reactions : Reactions) (n : Nat) : Bool :=
  reactions.breakAt = some n || !reactions.stopAfter.all (n < ·)

/-- The events that a consumer takes, the first of which is its `n`th. -/
def taken (reactions : Reactions) : Nat → List StreamEvent → List StreamEvent
  | _, [] => []
  | n, e :: rest => if reactions.goesAt n then [e] else e :: reactions.taken (n + 1) rest

variable {reactions : Reactions} {n : Nat}

theorem taken_of_goes (h : reactions.goesAt n = true) (e : StreamEvent) (es : List StreamEvent) :
    reactions.taken n (e :: es) = [e] := by
  rw [taken, if_pos h]

theorem taken_of_stays (h : reactions.goesAt n = false) (e : StreamEvent)
    (es : List StreamEvent) : reactions.taken n (e :: es) = e :: reactions.taken (n + 1) es := by
  rw [taken, h, if_neg Bool.false_ne_true]

theorem Departing.quiet (hd : reactions.Departing) (h : reactions.goesAt n = false) :
    reactions.Quiet n := by
  obtain ⟨hbreak, hstop⟩ := Bool.or_eq_false_iff.1 h
  refine ⟨?_, ?_, of_decide_eq_false hbreak, by simpa using hstop⟩
  · simp [hd.shutdownAt]
  · simp [hd.cancelAt]

theorem departing_none : Reactions.none.Departing := ⟨rfl, rfl⟩

/-- A consumer that never goes takes everything. -/
theorem taken_none (n : Nat) (es : List StreamEvent) : Reactions.none.taken n es = es := by
  induction es generalizing n with
  | nil => rfl
  | cons e es ih => rw [taken_of_stays rfl, ih]

end Reactions

namespace EventStream

/-- All events of a stream that are left. -/
def rest (s : EventStream) : List StreamEvent :=
  s.queue ++
    match s.generation with
    | none => []
    | some g => g.rest s.due

/-- What drawing tokens comes to: the first event that is left and the others after it, or nothing if
there is none. -/
theorem rest_advance (g : Generation) (generated : Nat) (due : List TokenId) :
    (advance false g generated due).event.toList ++ (advance false g generated due).stream.rest =
      g.rest due ∧
    ((advance false g generated due).event = none →
      (advance false g generated due).stream.rest = []) := by
  induction due generalizing g generated with
  | nil =>
    simp only [advance, rest, Generation.rest]
    cases (g.pull false none).events <;> simp
  | cons t due ih =>
    simp only [advance, Generation.rest]
    cases hevents : (g.pull false (some t)).events with
    | cons e more =>
      refine ⟨?_, fun hnone => ?_⟩
      · cases hnext : (g.pull false (some t)).next <;> simp [rest]
      · cases hnone
    | nil =>
      cases hnext : (g.pull false (some t)).next with
      | none => simp [ended, rest]
      | some g' => exact ih g' _

theorem rest_next (s : EventStream) :
    (s.next false).event.toList ++ (s.next false).stream.rest = s.rest ∧
      ((s.next false).event = none → (s.next false).stream.rest = []) := by
  obtain ⟨queue, due, generation, generated⟩ := s
  cases queue with
  | cons e more => exact ⟨rfl, nofun⟩
  | nil =>
    cases generation with
    | none => exact ⟨rfl, fun _ => rfl⟩
    | some g => exact rest_advance g generated due

/-- The next event is the first of those that are left. -/
theorem rest_of_next {s : EventStream} {e : StreamEvent} (h : (s.next false).event = some e) :
    s.rest = e :: (s.next false).stream.rest := by
  rw [← s.rest_next.1, h]
  rfl

/-- Where there is no next event, none is left. -/
theorem rest_of_next_none {s : EventStream} (h : (s.next false).event = none) : s.rest = [] := by
  rw [← s.rest_next.1, h, s.rest_next.2 h]
  rfl

end EventStream

/-! ### Consuming -/

/-- A run has received what its consumer takes of events, and its registry is what it was. -/
structure Took (reactions : Reactions) (run : Run) (es : List StreamEvent) (run' : Run) : Prop where
  received : run'.received = run.received ++ reactions.taken (run.count + 1) es
  registry : run'.registry = run.registry

/-- Events that come after those of a queue, all of which were taken. -/
theorem Took.after_queue {reactions : Reactions} {run : Run} {queue es : List StreamEvent}
    {run' : Run} {notices : List SessionNotice}
    (hqueue : ∀ more, reactions.taken (run.count + 1) (queue ++ more) =
      queue ++ reactions.taken (run.count + queue.length + 1) more)
    (h : Took reactions ((run.receiveAll queue).tell notices) es run') :
    Took reactions run (queue ++ es) run' := by
  have hsaw := (run.saw_receiveAll queue).tell notices
  have hcount : ((run.receiveAll queue).tell notices).count = run.count + queue.length := rfl
  refine ⟨?_, h.registry⟩
  rw [h.received, hsaw.received, hcount, hqueue, List.append_assoc]

/-- The draws of a reply that nobody interrupts come one after the other. -/
theorem rest_cons (queue : List StreamEvent) (t : TokenId) (due : List TokenId) (g : Generation)
    (generated counted : Nat) :
    EventStream.rest ⟨queue, t :: due, some g, generated⟩ =
      queue ++ EventStream.rest
        ⟨(g.pull false (some t)).events, due, (g.pull false (some t)).next, counted⟩ := by
  simp only [EventStream.rest, Generation.rest]
  split <;> simp [*]

section
variable {reactions : Reactions} (hd : reactions.Departing) {run : Run}

include hd

/-- Whoever goes at an event has taken it. -/
theorem take_goes (h : reactions.goesAt (run.count + 1) = true) (e : StreamEvent) :
    ∃ run', run.take reactions e = (run', false) ∧ run'.received = run.received ++ [e] ∧
      run'.registry = run.registry := by
  have hcount : (run.receive e).count = run.count + 1 := rfl
  have hlog : (run.receive e).received = run.received ++ [e] := List.reverse_cons
  by_cases hbreak : reactions.breakAt = some (run.count + 1)
  · refine ⟨{ run.receive e with broken := true }, ?_, hlog, rfl⟩
    simp [Run.take, hd.shutdownAt, hd.cancelAt, hcount, hbreak]
  · have hstop : reactions.stopAfter.all (run.count + 1 < ·) = false := by
      simpa [Reactions.goesAt, hbreak] using h
    refine ⟨run.receive e, ?_, hlog, rfl⟩
    simp [Run.take, hd.shutdownAt, hd.cancelAt, hcount, hbreak, hstop]

/-- A consumer goes at one of the events, whatever would come after them, or takes all of them. -/
theorem deliver_departing (es : List StreamEvent) (run : Run) :
    (∃ run', reactions.consumer.deliver run es = (run', false) ∧ run'.registry = run.registry ∧
      ∀ more, run'.received = run.received ++ reactions.taken (run.count + 1) (es ++ more)) ∨
    (reactions.consumer.deliver run es = (run.receiveAll es, true) ∧
      ∀ more, reactions.taken (run.count + 1) (es ++ more) =
        es ++ reactions.taken (run.count + es.length + 1) more) := by
  induction es generalizing run with
  | nil => exact .inr ⟨rfl, fun _ => rfl⟩
  | cons e es ih =>
    cases hgoes : reactions.goesAt (run.count + 1) with
    | true =>
      obtain ⟨run', htake, hreceived, hregistry⟩ := take_goes hd hgoes e
      refine .inl ⟨run', Consumer.deliver_no_more htake es, hregistry, ?_⟩
      intro more
      rw [hreceived, List.cons_append, Reactions.taken_of_goes hgoes]
    | false =>
      have htake := Run.take_of_quiet (hd.quiet hgoes) e
      have hcount : (run.receive e).count = run.count + 1 := rfl
      rcases ih (run.receive e) with ⟨run', hdeliver, hregistry, hreceived⟩ | ⟨hdeliver, htaken⟩
      · refine .inl ⟨run', (Consumer.deliver_more htake es).trans hdeliver, hregistry, ?_⟩
        intro more
        have hlog : (run.receive e).received = run.received ++ [e] := List.reverse_cons
        rw [hreceived more, List.cons_append, Reactions.taken_of_stays hgoes, hlog, hcount,
          List.append_assoc]
        rfl
      · refine .inr ⟨?_, ?_⟩
        · rw [Run.receiveAll_cons]
          exact (Consumer.deliver_more htake es).trans hdeliver
        · intro more
          rw [List.cons_append, Reactions.taken_of_stays hgoes, ← hcount, htaken, hcount,
            List.length_cons, Nat.add_right_comm run.count 1]
          rfl

/-- Events that are handed over and nothing after them. -/
theorem took_deliver (es : List StreamEvent) (run : Run) :
    Took reactions run es (reactions.consumer.deliver run es).1 := by
  rcases deliver_departing hd es run with
    ⟨run', hdeliver, hregistry, hreceived⟩ | ⟨hdeliver, htaken⟩
  · rw [hdeliver]
    exact ⟨by simpa using hreceived [], hregistry⟩
  · have htaken := htaken []
    rw [List.append_nil] at htaken
    rw [hdeliver]
    refine ⟨?_, rfl⟩
    rw [(run.saw_receiveAll es).received, htaken, Reactions.taken, List.append_nil]

/-- A reply that is over leaves its queue. -/
theorem took_over (due : List TokenId) (queue : List StreamEvent) (generated : Nat) (run : Run) :
    Took reactions run (EventStream.rest ⟨queue, due, none, generated⟩)
      (reactions.consumer.consume due none queue generated run).1 := by
  rw [Consumer.consume_over, EventStream.rest]
  simpa using took_deliver hd queue run

/-- A consumer that asks for nothing takes the events of a stream until it goes, if ever, and leaves
the registry alone. -/
theorem took_consume (s : EventStream) {run : Run} (hcancelled : run.registry.cancelled = false) :
    Took reactions run s.rest (s.consume reactions.consumer run).1 := by
  obtain ⟨queue, due, generation, generated⟩ := s
  show Took _ _ _ (Consumer.consume _ due generation queue generated run).1
  -- What a draw says is the queue of what follows, so the queue varies with the tokens due.
  induction due generalizing generation queue generated run with
  | nil =>
    cases generation with
    | none => exact took_over hd [] queue generated run
    | some g =>
      rcases deliver_departing hd queue run with ⟨run', hgone, hregistry, htook⟩ | ⟨hstays, htaken⟩
      · rw [Consumer.consume_of_gone hgone]
        exact ⟨htook _, hregistry⟩
      · have hflag : reactions.consumer.cancelled (run.receiveAll queue) = false := hcancelled
        unfold Consumer.consume
        simp only [hstays, hflag]
        exact Took.after_queue htaken (took_deliver hd _ _)
  | cons t due ih =>
    cases generation with
    | none => exact took_over hd (t :: due) queue generated run
    | some g =>
      rcases deliver_departing hd queue run with ⟨run', hgone, hregistry, htook⟩ | ⟨hstays, htaken⟩
      · rw [Consumer.consume_of_gone hgone]
        exact ⟨htook _, hregistry⟩
      · have hflag : reactions.consumer.cancelled (run.receiveAll queue) = false := hcancelled
        have htold : ((run.receiveAll queue).tell
            (g.pull false (some t)).notices).registry.cancelled = false := hcancelled
        rw [Consumer.consume_token hstays, hflag, rest_cons]
        exact (ih htold _ _ _).after_queue htaken

end

/-! ### Whole runs -/

namespace Registry

/-- A registry between sessions that has its engine still. -/
structure Serving (d : Dialect) (engine : Engine) (maxTokens : Nat) (r : Registry) : Prop where
  idle : r.Idle
  cancelled : r.cancelled = false
  engine : r.engine = some engine
  dialect : r.dialect = d
  maxTokens : r.maxTokens = maxTokens

variable {r : Registry} {d : Dialect} {engine : Engine} {maxTokens : Nat}

theorem serving_new (d : Dialect) (engine : Engine) (maxTokens : Nat) :
    Serving d engine maxTokens (new d engine maxTokens) :=
  ⟨idle_new d engine maxTokens, rfl, rfl, rfl, rfl⟩

/-- All events of a request, whoever takes them. -/
def answer (d : Dialect) (engine : Engine) (maxTokens : Nat) (request : GenerateRequest) :
    List StreamEvent :=
  ((new d engine maxTokens).inUse.stream request.messages request.tools).1.rest

/-- A stream depends on what a registry serves and on nothing else of it. -/
theorem Serving.stream (h : r.Serving d engine maxTokens) (messages : List Message)
    (tools : List ToolDefinition) :
    (r.inUse.stream messages tools).1 =
      ((new d engine maxTokens).inUse.stream messages tools).1 := by
  have hprepare : r.inUse.prepare messages tools =
      (new d engine maxTokens).inUse.prepare messages tools := by
    simp only [prepare, inUse, lock, new, h.engine, h.dialect]
  have hcancelled : r.inUse.cancelled = (new d engine maxTokens).inUse.cancelled := h.cancelled
  have hlimit : r.inUse.maxTokens = (new d engine maxTokens).inUse.maxTokens := h.maxTokens
  unfold Registry.stream
  rw [hprepare, hcancelled, hlimit]
  split <;> rfl

theorem stream_usage (r : Registry) (messages : List Message) (tools : List ToolDefinition) :
    ∃ usage, (r.stream messages tools).2 = { r with usage } := by
  unfold Registry.stream
  split
  · exact ⟨r.usage, rfl⟩
  · exact ⟨_, rfl⟩

/-- A run whose consumer asks for nothing: it gets all events of the request up to the one at which
it goes, and the registry goes on serving. -/
theorem Serving.run (h : r.Serving d engine maxTokens) (request : GenerateRequest)
    {reactions : Reactions} (hd : reactions.Departing) :
    (r.run request reactions).received = reactions.taken 1 (answer d engine maxTokens request) ∧
      (r.run request reactions).registry.Serving d engine maxTokens := by
  obtain ⟨usage, husage⟩ := r.inUse.stream_usage request.messages request.tools
  set opened := r.opened request (r.inUse.stream request.messages request.tools).2
  set gone := ((r.inUse.stream request.messages request.tools).1.consume
    reactions.consumer opened).1
  have hrun : r.run request reactions = gone.ended := by
    rw [Registry.run, runFor, begin_eq h.cancelled h.engine]
    rfl
  have hopened : opened.registry = { r.inUse with usage } := husage
  have hfree : opened.registry.cancelled = false := by
    rw [hopened]
    exact h.cancelled
  have htook := took_consume hd (r.inUse.stream request.messages request.tools).1 hfree
  have hidle := (h.idle.run request reactions).1
  have hended : gone.ended.registry =
      ({ opened.registry with generating := false } : Registry).unlock gone.broken := by
    show gone.registry.endSession gone.broken = _
    rw [htook.registry, endSession_eq, if_neg (by simp [hfree])]
  have hreceived : gone.ended.received =
      reactions.taken 1 (r.inUse.stream request.messages request.tools).1.rest := htook.received
  rw [hopened] at hended
  refine ⟨?_, hidle, ?_, ?_, ?_, ?_⟩
  · rw [hrun, hreceived, h.stream, answer]
  · rw [hrun, hended]
    exact h.cancelled
  · rw [hrun, hended]
    exact h.engine
  · rw [hrun, hended]
    exact h.dialect
  · rw [hrun, hended]
    exact h.maxTokens

end Registry

end ChatRelay
