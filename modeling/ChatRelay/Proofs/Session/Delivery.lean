import ChatRelay.Proofs.Session.Line
import ChatRelay.Session.Queue

/-!
# Every client gets the events of its own request

Three things hold of every line. The clients are in order: those the worker has taken come before
those in line, and sessions begin in that order and one at a time (`Ordered`). The registry is the
one at the start, but for the marks of a session and for what its engine was asked (`Asks`), and the
marks are there exactly during a session (`Marked`). And every channel carries the events of its
client's request: what was received, what waits and what the worker has still to send are all of
them, in order, unless the client has left (`Carried`).

The events of a request are those of a run for a client that stays, which does not depend on what
the engine was asked before, so they are the events of the same request in any queue of clients that
stay (`runJobs_staying`).
-/

namespace ChatRelay

/-! ### What one request comes to -/

namespace Registry

/-- A registry whose engine nobody has. -/
structure Free (r : Registry) : Prop where
  busy : r.busy = false
  generating : r.generating = false

/-- Why a session is refused, if it is. -/
def refusal? (r : Registry) : Option SessionError :=
  if r.cancelled then some .shuttingDown
  else if r.engine.isNone then some .engineReleased
  else none

/-- The prompt that a request asks the engine with, if it gets that far. -/
def prompt? (r : Registry) (request : GenerateRequest) : Option (List TokenId) :=
  match r.prepare request.messages request.tools with
  | .ok (_, prompt, _) => some prompt
  | .error _ => none

/-- A registry whose engine was asked for more replies. -/
def asked (r : Registry) (prompts : List (List TokenId)) : Registry :=
  { r with usage := ⟨(prompts.map .generate).reverse ++ r.usage.calls⟩ }

/-- All events of a request whose client stays. -/
def answerTo (r : Registry) (request : GenerateRequest) : List StreamEvent :=
  (r.run request .none).received

variable {r : Registry} {request : GenerateRequest}

theorem asked_asked (r : Registry) (prompts more : List (List TokenId)) :
    (r.asked prompts).asked more = r.asked (prompts ++ more) := by
  simp [asked]

theorem Free.asked (h : r.Free) (prompts : List (List TokenId)) : (r.asked prompts).Free :=
  ⟨h.busy, h.generating⟩

/-- A session begins unless it is refused. A lock that was taken for nothing is let go of. -/
theorem begin_eq_refusal (r : Registry) :
    r.begin = match r.refusal? with
      | some e => (.error e, if r.cancelled then r else { r with busy := false })
      | none => (.ok (), r.inUse) := by
  unfold Registry.begin beginLocked refusal?
  cases hcancelled : r.cancelled with
  | true => rfl
  | false =>
    cases hengine : r.engine with
    | none => simp [lock, unlock, hcancelled, hengine]
    | some engine => simp [hcancelled, hengine, inUse]

theorem cancelled_of_refusal? (h : r.refusal? = none) : r.cancelled = false := by
  unfold refusal? at h
  split_ifs at h with hcancelled
  simpa using hcancelled

/-- The end of a session takes off its marks. -/
theorem endSession_of_up (h : r.cancelled = false) :
    r.endSession false = { r with busy := false, generating := false } := by
  rw [endSession_eq, if_neg (by simp [h])]
  simp [unlock]

/-- What the engine was asked before makes no difference to a reply. -/
theorem stream_asked (r : Registry) (prompts : List (List TokenId)) (request : GenerateRequest) :
    (r.asked prompts).stream request.messages request.tools =
      ((r.stream request.messages request.tools).1,
        r.asked (prompts ++ (r.prompt? request).toList)) := by
  have hprepare : (r.asked prompts).prepare request.messages request.tools =
      r.prepare request.messages request.tools := rfl
  unfold Registry.stream prompt?
  rw [hprepare]
  cases r.prepare request.messages request.tools with
  | error e => simp [asked]
  | ok p => simp [asked, Usage.add]

theorem answerTo_of_refused {e : SessionError} (he : r.refusal? = some e) :
    r.answerTo request = [.failure e.message] := by
  rw [answerTo, Registry.run, runFor, begin_eq_refusal, he]
  rfl

/-- A run with a session whose client stays: it gets all events of the stream, and the registry is as
before but for the prompt. -/
theorem run_of_begun (he : r.refusal? = none) (request : GenerateRequest) :
    (r.run request .none).received = (r.inUse.stream request.messages request.tools).1.rest ∧
      (r.run request .none).registry =
        { r.asked (r.prompt? request).toList with busy := false, generating := false } := by
  have hcancelled := cancelled_of_refusal? he
  have hstream : (r.inUse.stream request.messages request.tools).2 =
      r.inUse.asked (r.prompt? request).toList :=
    congrArg Prod.snd (r.inUse.stream_asked [] request)
  set opened := r.opened request (r.inUse.stream request.messages request.tools).2
  set gone := ((r.inUse.stream request.messages request.tools).1.consume
    Reactions.none.consumer opened).1
  have hrun : r.run request .none = gone.ended := by
    rw [Registry.run, runFor, begin_eq_refusal, he]
    rfl
  have hopened : opened.registry = r.inUse.asked (r.prompt? request).toList := hstream
  have hup : opened.registry.cancelled = false := by
    rw [hopened]
    exact hcancelled
  have htook := took_consume Reactions.departing_none
    (r.inUse.stream request.messages request.tools).1 hup
  have hbroken : gone.broken = false :=
    Consumer.consume_preserves (P := fun run : Run => run.broken = false)
      (fun run e hrun => by
        show (run.take .none e).1.broken = false
        rw [Run.take_of_quiet (Reactions.quiet_none _)]
        exact hrun)
      (fun _ _ hrun => hrun) _ _ _ _ rfl
  refine ⟨?_, ?_⟩
  · have hreceived := htook.received
    rw [Reactions.taken_none] at hreceived
    rw [hrun]
    exact hreceived
  · rw [hrun]
    show gone.registry.endSession gone.broken = _
    rw [hbroken, htook.registry, endSession_of_up hup, hopened]
    rfl

theorem answerTo_of_begun (he : r.refusal? = none) :
    r.answerTo request = (r.inUse.stream request.messages request.tools).1.rest :=
  (run_of_begun he request).1

/-- A client that stays gets from the queue what its request comes to, whatever the engine was asked
before it. -/
theorem runJob_asked (h : r.Free) (prompts : List (List TokenId)) (request : GenerateRequest) :
    ((r.asked prompts).runJob ⟨request, none⟩).received = r.answerTo request ∧
      ∃ more, ((r.asked prompts).runJob ⟨request, none⟩).registry = r.asked (prompts ++ more) := by
  have hjob : (r.asked prompts).runJob ⟨request, none⟩ = (r.asked prompts).run request .none := by
    rw [runJob, if_neg nofun]
    rfl
  rw [hjob]
  have hmarks : ∀ more, ({ r.asked more with busy := false, generating := false } : Registry) =
      r.asked more := by
    intro more
    rw [asked, h.busy, h.generating]
  cases he : r.refusal? with
  | some e =>
    have hagain : (r.asked prompts).refusal? = some e := he
    refine ⟨(answerTo_of_refused hagain).trans (answerTo_of_refused he).symm, [], ?_⟩
    have hback : (if (r.asked prompts).cancelled then r.asked prompts
        else { r.asked prompts with busy := false }) = r.asked prompts := by
      split
      · rfl
      · rw [asked, h.busy]
    rw [Registry.run, runFor, begin_eq_refusal, hagain, List.append_nil]
    exact hback
  | none =>
    have hsame : (r.inUse.asked prompts).stream request.messages request.tools =
      ((r.inUse.stream request.messages request.tools).1, _) := stream_asked r.inUse prompts request
    obtain ⟨hreceived, hregistry⟩ := run_of_begun (r := r.asked prompts) he request
    refine ⟨?_, (r.prompt? request).toList, ?_⟩
    · rw [hreceived, answerTo_of_begun he]
      exact congrArg (fun p => p.1.rest) hsame
    · rw [hregistry, asked_asked]
      exact hmarks _

/-- Clients that stay and are worked off one after the other get what their requests come to. -/
theorem runJobs_staying (h : r.Free) (requests : List GenerateRequest) :
    (r.runJobs (requests.map fun request => ⟨request, none⟩)).map Run.received =
      requests.map r.answerTo := by
  suffices hall : ∀ prompts, ((r.asked prompts).runJobs
      (requests.map fun request => ⟨request, none⟩)).map Run.received =
        requests.map r.answerTo from hall []
  -- By induction on the requests, each of which leaves the engine with prompts more.
  induction requests with
  | nil => exact fun _ => rfl
  | cons request requests ih =>
    intro prompts
    obtain ⟨hreceived, more, hregistry⟩ := runJob_asked h prompts request
    rw [List.map_cons, runJobs, List.map_cons, List.map_cons, hreceived, hregistry, ih]

end Registry

/-! ### Channels -/

namespace Channel

/-- The channel of a client that is to get certain events, some of which are still to be sent. -/
structure Carries (ch : Channel) (all owed : List StreamEvent) : Prop where
  received : ch.received <+: all
  rest : ch.connected = true → ch.received ++ (ch.waiting ++ owed) = all
  lost : ch.connected = false → ch.waiting = []

variable {ch : Channel} {all owed owed' : List StreamEvent} {e : StreamEvent}

/-- To a client that has left nothing is owed. -/
theorem Carries.gone (h : ch.Carries all owed) (hgone : ch.connected = false)
    (owed' : List StreamEvent) : ch.Carries all owed' :=
  ⟨h.received, fun hconnected => by simp [hgone] at hconnected, h.lost⟩

theorem Carries.send (h : ch.Carries all (e :: owed)) (hconnected : ch.connected = true) :
    (ch.put e).Carries all owed where
  received := h.received
  rest := fun _ => by simpa [put] using h.rest hconnected
  lost := fun hgone => by simp [put, hconnected] at hgone

theorem Carries.receive {more : List StreamEvent} (h : ch.Carries all owed)
    (hconnected : ch.connected = true) (hwaiting : ch.waiting = e :: more) :
    (ch.got e more).Carries all owed := by
  have hall : ch.received ++ [e] ++ (more ++ owed) = all := by
    simpa [hwaiting] using h.rest hconnected
  exact ⟨⟨_, hall⟩, fun _ => hall, fun hgone => by simp [got, hconnected] at hgone⟩

theorem Carries.leave (h : ch.Carries all owed) : ch.leave.Carries all owed :=
  ⟨h.received, nofun, fun _ => rfl⟩

theorem Carries.close (h : ch.Carries all owed) : ch.close.Carries all owed :=
  ⟨h.received, h.rest, h.lost⟩

/-- A client to which nothing more comes has received everything. -/
theorem Carries.eq (h : ch.Carries all []) (hconnected : ch.connected = true)
    (hwaiting : ch.waiting = []) : ch.received = all := by
  simpa [hwaiting] using h.rest hconnected

end Channel

/-- What a worker has still to send of all events of its client. -/
def Worker.owes (all : List StreamEvent) : Worker → List StreamEvent
  | looking _ | opening _ => all
  | drawing _ s => s.rest
  | sending _ e s => e :: s.rest
  | refusing _ e => [e]
  | idle | ending _ | closing _ => []

namespace Line

variable {t : Traffic} {r : Registry} {σ σ' : Line} {m : Move}

/-! ### The order of clients -/

/-- Clients are taken, served and given sessions in the order in which they were put in line. -/
structure Ordered (σ : Line) : Prop where
  submitted : σ.taken ++ σ.waiting = σ.submitted
  nodup : σ.submitted.Nodup
  begun : σ.begun.Sublist σ.taken
  undecided : σ.worker.undecided = true → σ.begun.Sublist σ.served
  ended : σ.ended ++ σ.worker.session?.toList = σ.begun

/-- Where the worker keeps its client and its session, everybody keeps the place. -/
theorem Ordered.congr (h : σ.Ordered)
    (hplaces : σ'.served = σ.served ∧ σ'.waiting = σ.waiting ∧ σ'.submitted = σ.submitted ∧
      σ'.begun = σ.begun ∧ σ'.ended = σ.ended)
    (hclient : σ'.worker.client? = σ.worker.client?)
    (hsession : σ'.worker.session? = σ.worker.session?)
    (hundecided : σ'.worker.undecided = true → σ.worker.undecided = true) : σ'.Ordered := by
  obtain ⟨hserved, hwaiting, hsubmitted, hbegun, hended⟩ := hplaces
  have htaken : σ'.taken = σ.taken := by rw [taken, taken, hserved, hclient]
  refine ⟨?_, ?_, ?_, ?_, ?_⟩
  · rw [htaken, hwaiting, hsubmitted]
    exact h.submitted
  · rw [hsubmitted]
    exact h.nodup
  · rw [htaken, hbegun]
    exact h.begun
  · rw [hbegun, hserved]
    exact fun hw => h.undecided (hundecided hw)
  · rw [hended, hsession, hbegun]
    exact h.ended

theorem Ordered.step (h : σ.Ordered) (hm : Step t σ m σ') : σ'.Ordered := by
  have hsame : σ'.served = σ.served ∧ σ'.waiting = σ.waiting ∧ σ'.submitted = σ.submitted ∧
      σ'.begun = σ.begun ∧ σ'.ended = σ.ended → σ'.worker.client? = σ.worker.client? →
      σ'.worker.session? = σ.worker.session? →
      (σ'.worker.undecided = true → σ.worker.undecided = true) → σ'.Ordered := h.congr
  cases hm with
  | @submit c hnew =>
    refine ⟨?_, ?_, h.begun, h.undecided, h.ended⟩
    · show σ.taken ++ (σ.waiting ++ [c]) = σ.submitted ++ [c]
      rw [← h.submitted, List.append_assoc]
    · show (σ.submitted ++ [c]).Nodup
      exact List.nodup_append.2 ⟨h.nodup, by simp, by
        rintro a ha b hb rfl
        exact hnew (List.mem_singleton.1 hb ▸ ha)⟩
  | @take c rest hw hwaiting =>
    have hserved : σ.taken = σ.served := by simp [taken, hw, Worker.client?]
    have hbegun : σ.begun.Sublist σ.served := h.undecided (by rw [hw]; rfl)
    refine ⟨?_, h.nodup, hbegun.trans (List.sublist_append_left ..), fun _ => hbegun, ?_⟩
    · show σ.served ++ [c] ++ rest = σ.submitted
      rw [← h.submitted, hserved, hwaiting, List.append_assoc]
      rfl
    · have hended := h.ended
      rwa [hw] at hended
  | keep hw =>
    exact hsame ⟨rfl, rfl, rfl, rfl, rfl⟩ (by rw [hw]; rfl) (by rw [hw]; rfl) fun _ => by rw [hw]; rfl
  | @begin c _ _ s hw =>
    have hbegun : σ.begun.Sublist σ.served := h.undecided (by rw [hw]; rfl)
    refine ⟨?_, h.nodup, hbegun.append (.refl [c]), nofun, ?_⟩
    · have hsubmitted := h.submitted
      rw [taken, hw] at hsubmitted
      exact hsubmitted
    · have hended := h.ended
      rw [hw] at hended
      show σ.ended ++ [c] = σ.begun ++ [c]
      rw [← hended]
      simp [Worker.session?]
  | skip hw | refuse hw | draw hw | finish hw | send hw | abandon hw | tell hw | drop hw =>
    exact hsame ⟨rfl, rfl, rfl, rfl, rfl⟩ (by rw [hw]; rfl) (by rw [hw]; rfl) nofun
  | @close c hw =>
    refine ⟨?_, h.nodup, ?_, nofun, ?_⟩
    · have hsubmitted := h.submitted
      rw [taken, hw] at hsubmitted
      exact hsubmitted
    · have hbegun := h.begun
      rw [taken, hw] at hbegun
      exact hbegun
    · have hended := h.ended
      rw [hw] at hended
      show σ.ended ++ [c] ++ [] = σ.begun
      rw [List.append_nil, ← hended]
      rfl
  | @release c hw =>
    have htaken : σ.taken = σ.served ++ [c] := by rw [taken, hw]; rfl
    have hbegun : σ.begun.Sublist (σ.served ++ [c]) := htaken ▸ h.begun
    refine ⟨?_, h.nodup, ?_, fun _ => hbegun, ?_⟩
    · show σ.served ++ [c] ++ [] ++ σ.waiting = σ.submitted
      rw [List.append_nil, ← htaken, h.submitted]
    · show σ.begun.Sublist (σ.served ++ [c] ++ [])
      rwa [List.append_nil]
    · have hended := h.ended
      rwa [hw] at hended
  | receive => exact hsame ⟨rfl, rfl, rfl, rfl, rfl⟩ rfl rfl id
  | leave => exact hsame ⟨rfl, rfl, rfl, rfl, rfl⟩ rfl rfl id

theorem Reachable.ordered (h : Reachable t r σ) : σ.Ordered :=
  h.induct ⟨rfl, .nil, .refl [], fun _ => .refl [], rfl⟩ Ordered.step

/-- Who was served is not served again. -/
theorem Ordered.not_mem_served (h : σ.Ordered) {c : Nat} (hc : σ.worker.client? = some c) :
    c ∉ σ.served := by
  have hnodup : σ.taken.Nodup := (List.nodup_append.1 (h.submitted ▸ h.nodup)).1
  intro hmem
  rw [taken, hc, Option.toList_some] at hnodup
  exact (List.nodup_append.1 hnodup).2.2 c hmem c (List.mem_singleton_self c) rfl

theorem Ordered.mem_submitted (h : σ.Ordered) {c : Nat} (hc : σ.worker.client? = some c) :
    c ∈ σ.submitted := by
  rw [← h.submitted, taken, hc]
  simp

/-- Sessions are for clients that were put in line. -/
theorem Ordered.begun_subset (h : σ.Ordered) : σ.begun ⊆ σ.submitted := by
  intro c hc
  rw [← h.submitted]
  exact List.mem_append_left _ (h.begun.subset hc)

/-! ### The registry -/

/-- The prompts that the engine is asked with for clients. -/
def prompts (t : Traffic) (r : Registry) (cs : List Nat) : List (List TokenId) :=
  cs.filterMap fun c => r.prompt? (t.request c)

theorem prompts_concat (t : Traffic) (r : Registry) (cs : List Nat) (c : Nat) :
    prompts t r (cs ++ [c]) = prompts t r cs ++ (r.prompt? (t.request c)).toList := by
  rw [prompts, List.filterMap_append]
  cases h : r.prompt? (t.request c) <;> simp [prompts, h]

/-- The registry is the one at the start, but for the marks of a session and for what its engine was
asked. -/
structure Asks (t : Traffic) (r : Registry) (σ : Line) : Prop where
  registry : ∃ busy generating, σ.registry =
    { r.asked (prompts t r σ.begun) with busy := busy, generating := generating }
  session : σ.worker.session?.isSome = true → r.refusal? = none

theorem Asks.cancelled (h : Asks t r σ) : σ.registry.cancelled = r.cancelled := by
  obtain ⟨_, _, hregistry⟩ := h.registry
  rw [hregistry]
  rfl

/-- A session asks the engine with the relay up. -/
theorem Asks.up (h : Asks t r σ) (hsession : σ.worker.session?.isSome = true) :
    σ.registry.cancelled = false := by
  rw [h.cancelled]
  exact Registry.cancelled_of_refusal? (h.session hsession)

theorem Asks.refusal? (h : Asks t r σ) : σ.registry.refusal? = r.refusal? := by
  obtain ⟨_, _, hregistry⟩ := h.registry
  rw [hregistry]
  rfl

theorem Asks.inUse (h : Asks t r σ) : σ.registry.inUse = r.inUse.asked (prompts t r σ.begun) := by
  obtain ⟨_, _, hregistry⟩ := h.registry
  rw [hregistry]
  rfl

section Opening

variable {c : Nat} {e : SessionError} {r₁ r₂ : Registry} {s : EventStream}

/-- Where a session is refused, it would have been at the start. -/
theorem Asks.of_refused (h : Asks t r σ) (hbegin : σ.registry.begin = (.error e, r₁)) :
    r.refusal? = some e ∧
      r₁ = if σ.registry.cancelled then σ.registry else { σ.registry with busy := false } := by
  rw [Registry.begin_eq_refusal, h.refusal?] at hbegin
  split at hbegin
  · next he =>
    obtain ⟨herror, hsame⟩ := Prod.mk.inj hbegin
    exact ⟨he.trans (congrArg some (Except.error.inj herror)), hsame.symm⟩
  · cases (Prod.mk.inj hbegin).1

/-- Where a session begins, it would have begun at the start. -/
theorem Asks.of_begun (h : Asks t r σ) (hbegin : σ.registry.begin = (.ok (), r₁)) :
    r.refusal? = none ∧ r₁ = r.inUse.asked (prompts t r σ.begun) := by
  rw [Registry.begin_eq_refusal, h.refusal?] at hbegin
  split at hbegin
  · cases (Prod.mk.inj hbegin).1
  · next hnone => exact ⟨hnone, (Prod.mk.inj hbegin).2.symm.trans h.inUse⟩

/-- The stream of a session that begins has all events of its request. -/
theorem Asks.rest_of_begin (h : Asks t r σ) (hbegin : σ.registry.begin = (.ok (), r₁))
    (hstream : r₁.stream (t.request c).messages (t.request c).tools = (s, r₂)) :
    s.rest = r.answerTo (t.request c) := by
  obtain ⟨hnone, rfl⟩ := h.of_begun hbegin
  rw [Registry.stream_asked] at hstream
  obtain rfl := (Prod.mk.inj hstream).1
  exact (Registry.answerTo_of_begun hnone).symm

end Opening

theorem Asks.step (h : Asks t r σ) (hm : Step t σ m σ') : Asks t r σ' := by
  have hsame : σ'.registry = σ.registry → σ'.begun = σ.begun →
      (σ'.worker.session?.isSome = true → σ.worker.session?.isSome = true) → Asks t r σ' := by
    intro hregistry hbegun hsession
    refine ⟨?_, fun hsome => h.session (hsession hsome)⟩
    rw [hregistry, hbegun]
    exact h.registry
  cases hm with
  | submit | receive | leave => exact hsame rfl rfl id
  | take | keep | skip | drop | tell | release => exact hsame rfl rfl nofun
  | draw hw | finish hw | send hw | abandon hw => exact hsame rfl rfl fun _ => by rw [hw]; rfl
  | refuse hw hbegin =>
    refine ⟨?_, nofun⟩
    obtain ⟨busy, generating, hregistry⟩ := h.registry
    obtain ⟨-, hback⟩ := h.of_refused hbegin
    split at hback
    · exact ⟨busy, generating, hback.trans hregistry⟩
    · refine ⟨false, generating, ?_⟩
      rw [hback, hregistry]
      rfl
  | @begin c r₁ r₂ s hw hbegin hstream =>
    obtain ⟨hnone, rfl⟩ := h.of_begun hbegin
    rw [Registry.stream_asked] at hstream
    obtain rfl := (Prod.mk.inj hstream).2
    refine ⟨⟨true, true, ?_⟩, fun _ => hnone⟩
    show r.inUse.asked _ = _
    rw [prompts_concat]
    rfl
  | @close c hw =>
    refine ⟨⟨false, false, ?_⟩, nofun⟩
    obtain ⟨_, _, hregistry⟩ := h.registry
    show σ.registry.endSession false = _
    rw [Registry.endSession_of_up (h.up (by rw [hw]; rfl)), hregistry]
    rfl

theorem Reachable.asks (h : Reachable t r σ) : Asks t r σ :=
  h.induct ⟨⟨r.busy, r.generating, rfl⟩, nofun⟩ Asks.step

/-- As long as nobody was put in line the registry is the one at the start. -/
theorem Reachable.registry_eq (h : Reachable t r σ) (hnil : σ.submitted = []) :
    σ.registry = r := by
  induction h with
  | new => rfl
  | @step σ σ' hreach m hm ih =>
    -- Only a worker that has taken a request does anything to the registry.
    have hnone : ∀ {c : Nat}, σ.submitted = [] → σ.worker.client? ≠ some c :=
      fun hempty hc => List.not_mem_nil (hempty ▸ (Reachable.ordered hreach).mem_submitted hc)
    cases Step.of_step hm with
    | @submit c => exact absurd hnil (by simp)
    | refuse hw | begin hw | close hw => exact absurd (congrArg Worker.client? hw) (hnone hnil)
    | take | keep | skip | draw | finish | send | abandon | tell | drop | release | receive
    | leave => exact ih hnil

/-- The registry is marked exactly during a session. -/
structure Marked (σ : Line) : Prop where
  busy : σ.registry.busy = σ.worker.session?.isSome
  generating : σ.registry.generating = σ.worker.session?.isSome

theorem Marked.step (hasks : Asks t r σ) (h : σ.Marked) (hm : Step t σ m σ') : σ'.Marked := by
  have hsame : σ'.registry.busy = σ.registry.busy → σ'.registry.generating = σ.registry.generating →
      σ'.worker.session?.isSome = σ.worker.session?.isSome → σ'.Marked :=
    fun hbusy hgenerating hsession =>
      ⟨by rw [hbusy, hsession, h.busy], by rw [hgenerating, hsession, h.generating]⟩
  cases hm with
  | submit | receive | leave => exact hsame rfl rfl rfl
  | take hw | keep hw | skip hw | draw hw | finish hw | send hw | abandon hw | tell hw | drop hw
  | release hw => exact hsame rfl rfl (by rw [hw]; rfl)
  | refuse hw hbegin =>
    have hbusy := h.busy
    rw [hw] at hbusy
    obtain ⟨-, hback⟩ := hasks.of_refused hbegin
    split at hback
    · obtain rfl := hback
      exact hsame rfl rfl (by rw [hw]; rfl)
    · obtain rfl := hback
      exact hsame hbusy.symm rfl (by rw [hw]; rfl)
  | begin hw hbegin hstream =>
    obtain ⟨-, rfl⟩ := hasks.of_begun hbegin
    rw [Registry.stream_asked] at hstream
    obtain rfl := (Prod.mk.inj hstream).2
    exact ⟨rfl, rfl⟩
  | close hw =>
    have hended := Registry.endSession_of_up (hasks.up (by rw [hw]; rfl))
    exact ⟨congrArg Registry.busy hended, congrArg Registry.generating hended⟩

/-- What is still to be sent to a client. -/
def owed (t : Traffic) (r : Registry) (σ : Line) (c : Nat) : List StreamEvent :=
  if σ.worker.client? = some c then σ.worker.owes (r.answerTo (t.request c))
  else if c ∈ σ.served then []
  else r.answerTo (t.request c)

/-- Every channel carries the events of its client's request, and is let go of when the worker is
done with it. -/
structure Carried (t : Traffic) (r : Registry) (σ : Line) : Prop where
  carries : ∀ c, (σ.channel c).Carries (r.answerTo (t.request c)) (σ.owed t r c)
  live : ∀ c, (σ.channel c).live = true ↔ c ∉ σ.served

theorem Carried.current (h : Carried t r σ) {w : Worker} (hw : σ.worker = w) {c : Nat}
    (hc : w.client? = some c) :
    (σ.channel c).Carries (r.answerTo (t.request c)) (w.owes (r.answerTo (t.request c))) := by
  subst hw
  have hcarries := h.carries c
  rwa [owed, if_pos hc] at hcarries

/-- A worker that stays with its client leaves all others alone. -/
theorem Carried.of_current (h : Carried t r σ) {w : Worker} (hw : σ.worker = w) {c : Nat}
    (hc : w.client? = some c) (hc' : σ'.worker.client? = some c) (hserved : σ'.served = σ.served)
    (hothers : ∀ d, d ≠ c → σ'.channel d = σ.channel d)
    (hlive : (σ'.channel c).live = (σ.channel c).live)
    (hthis : (σ'.channel c).Carries (r.answerTo (t.request c))
      (σ'.worker.owes (r.answerTo (t.request c)))) : Carried t r σ' where
  carries d := by
    by_cases hd : d = c
    · subst hd
      rwa [owed, if_pos hc']
    · have hcarries := h.carries d
      have hne : some c ≠ some d := fun heq => hd (Option.some.inj heq).symm
      rw [owed, hw, hc, if_neg hne] at hcarries
      rw [hothers d hd, owed, hc', if_neg hne, hserved]
      exact hcarries
  live d := by
    rw [hserved, ← h.live d]
    by_cases hd : d = c
    · rw [hd, hlive]
    · rw [hothers d hd]

/-- A client that receives or leaves changes its own channel and nothing else. -/
theorem Carried.setChannel (h : Carried t r σ) {c : Nat} {ch : Channel}
    (hlive : ch.live = (σ.channel c).live)
    (hch : ∀ owed, (σ.channel c).Carries (r.answerTo (t.request c)) owed →
      ch.Carries (r.answerTo (t.request c)) owed) : Carried t r (σ.setChannel c ch) where
  carries d := by
    by_cases hd : d = c
    · subst hd
      rw [setChannel_self]
      exact hch _ (h.carries d)
    · rw [setChannel_of_ne σ hd]
      exact h.carries d
  live d := by
    by_cases hd : d = c
    · subst hd
      rw [setChannel_self, hlive]
      exact h.live d
    · rw [setChannel_of_ne σ hd]
      exact h.live d

theorem Carried.step (hordered : σ.Ordered) (hasks : Asks t r σ) (h : Carried t r σ)
    (hm : Step t σ m σ') : Carried t r σ' := by
  cases hm with
  | submit => exact ⟨h.carries, h.live⟩
  | receive hconnected hwaiting =>
    exact h.setChannel rfl fun owed howed => howed.receive hconnected hwaiting
  | leave => exact h.setChannel rfl fun owed howed => howed.leave
  | @take c rest hw hwaiting =>
    have hnew : c ∉ σ.served := by
      have hnodup := hordered.nodup
      rw [← hordered.submitted, taken, hw, hwaiting] at hnodup
      intro hmem
      exact (List.nodup_append.1 hnodup).2.2 c (List.mem_append_left _ hmem) c (List.mem_cons_self ..) rfl
    refine ⟨?_, h.live⟩
    intro d
    have hcarries := h.carries d
    rw [owed, hw, if_neg nofun] at hcarries
    show (σ.channel d).Carries _ (if some c = some d then r.answerTo (t.request d) else _)
    by_cases hd : c = d
    · subst hd
      rw [if_neg hnew] at hcarries
      rwa [if_pos rfl]
    · rw [if_neg fun heq => hd (Option.some.inj heq)]
      exact hcarries
  | @release c hw =>
    have hthis := h.current hw rfl
    refine ⟨?_, ?_⟩
    · intro d
      rw [owed, if_neg nofun]
      show (Function.update σ.channel c _ d).Carries _ (if d ∈ σ.served ++ [c] then _ else _)
      by_cases hd : d = c
      · subst hd
        rw [Function.update_self, if_pos (by simp)]
        exact hthis.close
      · have hcarries := h.carries d
        have hne : (Worker.closing c).client? ≠ some d := fun heq => hd (Option.some.inj heq).symm
        rw [owed, hw, if_neg hne] at hcarries
        rw [Function.update_of_ne hd]
        simpa [hd] using hcarries
    · intro d
      show (Function.update σ.channel c _ d).live = true ↔ d ∉ σ.served ++ [c]
      by_cases hd : d = c
      · subst hd
        simp [Channel.close]
      · rw [Function.update_of_ne hd]
        simpa [hd] using h.live d
  | @keep c hw =>
    have hthis := h.current hw rfl
    exact h.of_current hw rfl rfl rfl (fun _ _ => rfl) rfl hthis
  | @skip c hw hgone | @abandon c _ _ hw hgone | @drop c _ hw hgone =>
    have hthis := h.current hw rfl
    exact h.of_current hw rfl rfl rfl (fun _ _ => rfl) rfl (hthis.gone hgone _)
  | @refuse c e r₁ hw hbegin =>
    have hthis := h.current hw rfl
    have hall : r.answerTo (t.request c) = [.failure e.message] :=
      Registry.answerTo_of_refused (hasks.of_refused hbegin).1
    rw [Worker.owes, hall] at hthis
    refine h.of_current hw rfl rfl rfl (fun _ _ => rfl) rfl ?_
    rw [hall]
    exact hthis
  | @begin c r₁ r₂ s hw hbegin hstream =>
    have hthis := h.current hw rfl
    rw [Worker.owes, ← hasks.rest_of_begin hbegin hstream] at hthis
    refine h.of_current hw rfl rfl rfl (fun _ _ => rfl) rfl ?_
    rw [← hasks.rest_of_begin hbegin hstream]
    exact hthis
  | @draw c s e hw he =>
    have hthis := h.current hw rfl
    have hflag := hasks.up (by rw [hw]; rfl)
    rw [hflag] at he
    rw [Worker.owes, EventStream.rest_of_next he] at hthis
    refine h.of_current hw rfl rfl rfl (fun _ _ => rfl) rfl ?_
    rw [hflag]
    exact hthis
  | @finish c s hw hnone =>
    have hthis := h.current hw rfl
    have hflag := hasks.up (by rw [hw]; rfl)
    rw [hflag] at hnone
    rw [Worker.owes, EventStream.rest_of_next_none hnone] at hthis
    exact h.of_current hw rfl rfl rfl (fun _ _ => rfl) rfl hthis
  | @send c e s hw hconnected =>
    have hthis := h.current hw rfl
    refine h.of_current hw rfl rfl rfl (fun d hd => setChannel_of_ne σ hd _)
      ?_ ?_
    · rw [channel_moveTo, setChannel_self]
      rfl
    · rw [channel_moveTo, setChannel_self]
      exact hthis.send hconnected
  | @tell c e hw hconnected =>
    have hthis := h.current hw rfl
    refine h.of_current hw rfl rfl rfl (fun d hd => setChannel_of_ne σ hd _)
      ?_ ?_
    · rw [channel_moveTo, setChannel_self]
      rfl
    · rw [channel_moveTo, setChannel_self]
      exact hthis.send hconnected
  | @close c hw =>
    have hthis := h.current hw rfl
    exact h.of_current hw rfl rfl rfl (fun _ _ => rfl) rfl hthis

end Line

end ChatRelay
