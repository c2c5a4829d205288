import ChatRelay.Proofs.Http.EventBody
import ChatRelay.Proofs.Session.Delivery

/-!
# Nothing reaches the engine past the gate

A request is let through if it is a `POST` to `/generate`, carries the configured credentials and has
a body that asks for a reply to at least one message (`Admits`); nothing else is
(`route_eq_generate_iff`). Any other request is answered at once by what it is (`Turned`) and leaves
the relay as it was.

A `Desk` is a relay at work: requests arrive in any order, at any time, while the worker works off the
line and clients receive and leave. What is put in line are the requests that are let through, in
the order in which they came, and the engine is asked for replies to these and to nothing else
(`reachable_guarded`). A queue that nobody works off takes none of them: what is let through is then
refused, and nothing is changed by it.
-/

namespace ChatRelay.Http

/-! ### One request -/

/-- A request with the credentials that the relay asks for. Without any, there is none. -/
def Authorized (credentials : Option Credentials) (request : Request) : Prop :=
  ∃ c, credentials = some c ∧ c.accepts (request.header "authorization") = true

/-- A request that is let through, and what it asks for. -/
structure Admits (credentials : Option Credentials) (request : Request) (g : GenerateRequest) :
    Prop where
  method : request.method = "POST"
  path : request.path = "/generate"
  authorized : Authorized credentials request
  body : GenerateRequest.parse? (Utf8.units request.body) = some g
  messages : g.messages ≠ []

/-- The answer to a request that is not let through, by the method, the path, the credentials and the
body, in this order. -/
structure Turned (r : Relay) (request : Request) (response : Response) : Prop where
  preflight : request.method = "OPTIONS" → response = .preflight ∧ response.status = 200
  health : request.method = "GET" → request.path = "/health" →
    response = .json 200 r.health ∧ response.status = 200
  unauthorized : request.method = "POST" → request.path = "/generate" →
    ¬ Authorized r.credentials request →
      response = .unauthorized "Incorrect username or password" ∧ response.status = 401 ∧
        ("www-authenticate", "Basic") ∈ response.headers
  malformed : request.method = "POST" → request.path = "/generate" →
    Authorized r.credentials request →
      GenerateRequest.parse? (Utf8.units request.body) = none →
        response = .error 400 "Invalid JSON format" ∧ response.status = 400
  silent : request.method = "POST" → request.path = "/generate" →
    Authorized r.credentials request → ∀ g,
      GenerateRequest.parse? (Utf8.units request.body) = some g →
        response = .error 400 "No messages provided" ∧ response.status = 400
  unknown : request.method ≠ "OPTIONS" → ¬ (request.method = "GET" ∧ request.path = "/health") →
    ¬ (request.method = "POST" ∧ request.path = "/generate") →
      response = .error 404 "Not found" ∧ response.status = 404

namespace Relay

variable {r : Relay} {request : Request} {g : GenerateRequest}

theorem authorizes_iff (r : Relay) (request : Request) :
    r.authorizes request = true ↔ Authorized r.credentials request := by
  rw [authorizes, Option.any_eq_true]
  rfl

/-- Behind the credentials the body decides. -/
theorem readRequest?_eq_ok_iff {body : List UInt8} :
    readRequest? body = .ok g ↔
      GenerateRequest.parse? (Utf8.units body) = some g ∧ g.messages ≠ [] := by
  unfold readRequest?
  split
  · next hparse => simp [hparse]
  · next request hparse =>
    rw [hparse]
    split
    · next hnil =>
      constructor
      · nofun
      · rintro ⟨heq, hne⟩
        exact absurd (Option.some.inj heq ▸ hnil) hne
    · next hne =>
      constructor
      · intro heq
        obtain rfl := Except.ok.inj heq
        exact ⟨rfl, hne⟩
      · rintro ⟨heq, -⟩
        rw [Option.some.inj heq]

theorem route_post (hmethod : request.method = "POST") (hpath : request.path = "/generate") :
    r.route request =
      if r.authorizes request then
        match readRequest? request.body with
        | .ok generate => .generate generate
        | .error response => .answer response
      else .reject := by
  have hoptions : request.method ≠ "OPTIONS" := by rw [hmethod]; decide
  have hhealth : ¬ (request.method = "GET" ∧ request.path = "/health") := by rw [hmethod]; simp
  exact (if_neg hoptions).trans ((if_neg hhealth).trans (if_pos ⟨hmethod, hpath⟩))

/-- What is let through are the requests with the right method and path, credentials and body. -/
theorem route_eq_generate_iff : r.route request = .generate g ↔ Admits r.credentials request g := by
  constructor
  · intro hroute
    by_cases hpost : request.method = "POST" ∧ request.path = "/generate"
    · obtain ⟨hmethod, hpath⟩ := hpost
      rw [route_post hmethod hpath] at hroute
      split at hroute
      · next hauthorized =>
        split at hroute
        · next generate hread =>
          obtain rfl : generate = g := Route.generate.inj hroute
          obtain ⟨hbody, hmessages⟩ := readRequest?_eq_ok_iff.1 hread
          exact ⟨hmethod, hpath, (r.authorizes_iff request).1 hauthorized, hbody, hmessages⟩
        · cases hroute
      · cases hroute
    · rw [route, if_neg hpost] at hroute
      split_ifs at hroute
  · rintro ⟨hmethod, hpath, hauthorized, hbody, hmessages⟩
    rw [route_post hmethod hpath, if_pos ((r.authorizes_iff request).2 hauthorized),
      readRequest?_eq_ok_iff.2 ⟨hbody, hmessages⟩]

theorem response_of_answer {response : Response} (hroute : r.route request = .answer response) :
    (r.handle request).response = response := by
  rw [handle, hroute]

theorem response_of_reject (hroute : r.route request = .reject) :
    (r.handle request).response = .unauthorized "Incorrect username or password" := by
  rw [handle, hroute]

/-- Whatever is not let through leaves the relay as it was. -/
theorem relay_of_not_admits (h : ∀ g, ¬ Admits r.credentials request g) :
    (r.handle request).relay = r := by
  unfold handle
  split
  · rfl
  · rfl
  · next g hroute => exact absurd (route_eq_generate_iff.1 hroute) (h g)

/-- Whatever is not let through is answered by what it is. -/
theorem turned_of_not_admits (h : ∀ g, ¬ Admits r.credentials request g) :
    Turned r request (r.handle request).response where
  preflight hmethod := by
    rw [response_of_answer (if_pos hmethod)]
    exact ⟨rfl, rfl⟩
  health hmethod hpath := by
    have hroute : r.route request = .answer (.json 200 r.health) := by
      rw [route, if_neg (by rw [hmethod]; decide), if_pos ⟨hmethod, hpath⟩]
    rw [response_of_answer hroute]
    exact ⟨rfl, rfl⟩
  unauthorized hmethod hpath hnot := by
    have hroute : r.route request = .reject := by
      rw [route_post hmethod hpath, if_neg fun hauthorized => hnot ((r.authorizes_iff _).1 hauthorized)]
    rw [response_of_reject hroute]
    exact ⟨rfl, rfl, List.mem_cons_self ..⟩
  malformed hmethod hpath hauthorized hbody := by
    have hroute : r.route request = .answer (.error 400 "Invalid JSON format") := by
      rw [route_post hmethod hpath, if_pos ((r.authorizes_iff _).2 hauthorized), readRequest?, hbody]
    rw [response_of_answer hroute]
    exact ⟨rfl, rfl⟩
  silent hmethod hpath hauthorized g hbody := by
    have hnil : g.messages = [] := by
      by_contra hmessages
      exact h g ⟨hmethod, hpath, hauthorized, hbody, hmessages⟩
    have hroute : r.route request = .answer (.error 400 "No messages provided") := by
      rw [route_post hmethod hpath, if_pos ((r.authorizes_iff _).2 hauthorized), readRequest?, hbody]
      simp only [hnil, if_true]
    rw [response_of_answer hroute]
    exact ⟨rfl, rfl⟩
  unknown hoptions hhealth hgenerate := by
    have hroute : r.route request = .answer (.error 404 "Not found") := by
      rw [route, if_neg hoptions, if_neg hhealth, if_neg hgenerate]
    rw [response_of_answer hroute]
    exact ⟨rfl, rfl⟩

/-- A request that is let through to a queue that nobody works off. -/
theorem handle_of_dead (hadmits : Admits r.credentials request g) (hdead : r.queueOpen = false) :
    (r.handle request).response = .error 503 "Generation queue closed" ∧
      (r.handle request).relay = r := by
  rw [handle, route_eq_generate_iff.2 hadmits]
  simp [hdead]

end Relay

/-! ### Requests that arrive -/

/-- A relay's credentials and queue, and the requests that clients make. -/
structure Site where
  credentials : Option Credentials
  queueOpen : Bool
  request : Nat → Request
  capacity : Nat
  buffer : Nat
  capacity_pos : 0 < capacity
  buffer_pos : 0 < buffer

/-- How a client is answered. -/
inductive Answer where
  | whole (response : Response)
  /-- With the events of the reply, as they come. -/
  | stream
deriving DecidableEq

/-- Whether an answer is a stream. -/
def Answer.isStream : Answer → Bool
  | whole _ => false
  | stream => true

namespace Site

/-- What a body asks for; nothing if it is no request for a reply. -/
def asks (s : Site) (c : Nat) : GenerateRequest :=
  match readRequest? (s.request c).body with
  | .ok g => g
  | .error _ => ⟨[], none⟩

/-- What comes to the queue. -/
def traffic (s : Site) : Traffic := ⟨s.asks, s.capacity, s.buffer, s.capacity_pos, s.buffer_pos⟩

/-- Whether a client's request is let through. -/
def Admits (s : Site) (c : Nat) : Prop := Http.Admits s.credentials (s.request c) (s.asks c)

theorem asks_of_admits {s : Site} {c : Nat} {g : GenerateRequest}
    (h : Http.Admits s.credentials (s.request c) g) : s.asks c = g := by
  rw [asks, Relay.readRequest?_eq_ok_iff.2 ⟨h.body, h.messages⟩]

theorem admits_iff {s : Site} {c : Nat} :
    s.Admits c ↔ ∃ g, Http.Admits s.credentials (s.request c) g := by
  constructor
  · exact fun h => ⟨_, h⟩
  · rintro ⟨g, h⟩
    rw [Admits, asks_of_admits h]
    exact h

end Site

/-- A relay at work: the line, and how clients were answered, in the order in which they came. -/
structure Desk where
  line : Line
  answers : List (Nat × Answer)

namespace Desk

/-- A relay that nobody has come to. -/
def new (r : Registry) : Desk := ⟨.new r, []⟩

/-- The clients that have come. -/
def arrived (σ : Desk) : List Nat := σ.answers.map (·.1)

/-- The clients that are answered with a stream. -/
def streamed (σ : Desk) : List Nat := (σ.answers.filter (·.2.isStream)).map (·.1)

/-- The relay as a request finds it. -/
def relay (s : Site) (σ : Desk) : Relay := ⟨σ.line.registry, s.credentials, s.queueOpen⟩

/-- The desk after a client was answered. -/
def answer (σ : Desk) (line : Line) (c : Nat) (a : Answer) : Desk := ⟨line, σ.answers ++ [(c, a)]⟩

/-- What may happen next. -/
inductive Move where
  /-- A client's request comes in. -/
  | arrive (c : Nat)
  /-- The worker or a client goes on. -/
  | go (m : Line.Move)

/-- A client's request comes in. One that is let through is put in line, once there is room. -/
def arrive (s : Site) (σ : Desk) (c : Nat) : Option Desk :=
  if c ∈ σ.arrived then none
  else
    match (σ.relay s).route (s.request c), s.queueOpen with
    | .generate _, true =>
      (σ.line.step s.traffic (.submit c)).map fun line => σ.answer line c .stream
    | _, _ =>
      let handled := (σ.relay s).handle (s.request c)
      some (σ.answer { σ.line with registry := handled.relay.registry } c
        (.whole handled.response))

/-- What a move leads to; none if it cannot be made. Only what arrives is put in line. -/
def step (s : Site) (σ : Desk) : Move → Option Desk
  | .arrive c => σ.arrive s c
  | .go (.submit _) => none
  | .go m => (σ.line.step s.traffic m).map fun line => { σ with line }

/-- The desks that clients can lead a relay to. -/
abbrev Reachable (s : Site) (r : Registry) : Desk → Prop := Moves.Reachable (step s) (new r)

/-- Makes moves one after the other, if they can all be made. -/
abbrev run (s : Site) : Desk → List Move → Option Desk := Moves.run (step s)

variable {s : Site} {r : Registry} {σ σ' : Desk} {c : Nat}

/-! ### What a request does -/

/-- A request that is let through to an open queue is put in line. -/
theorem arrive_of_admits (hadmits : s.Admits c) (hopen : s.queueOpen = true)
    (hnew : c ∉ σ.arrived) :
    σ.arrive s c =
      (σ.line.step s.traffic (.submit c)).map fun line => σ.answer line c .stream := by
  have hroute : (σ.relay s).route (s.request c) = .generate (s.asks c) :=
    Relay.route_eq_generate_iff.2 hadmits
  rw [arrive, if_neg hnew, hroute, hopen]

/-- Any other request leaves the relay as it was. -/
theorem relay_of_not (h : ¬ (s.Admits c ∧ s.queueOpen = true)) :
    ((σ.relay s).handle (s.request c)).relay = σ.relay s := by
  by_cases hadmits : s.Admits c
  · have hclosed : s.queueOpen = false := by simpa [hadmits] using h
    exact (Relay.handle_of_dead (r := σ.relay s) hadmits hclosed).2
  · exact Relay.relay_of_not_admits fun g hg => hadmits (Site.admits_iff.2 ⟨g, hg⟩)

/-- And it changes nothing in line. -/
theorem arrive_of_not (h : ¬ (s.Admits c ∧ s.queueOpen = true)) (hnew : c ∉ σ.arrived) :
    σ.arrive s c =
      some (σ.answer σ.line c (.whole ((σ.relay s).handle (s.request c)).response)) := by
  rw [arrive, if_neg hnew]
  split
  · next g hroute hopen =>
    refine absurd ⟨?_, hopen⟩ h
    exact Site.admits_iff.2 ⟨g, Relay.route_eq_generate_iff.1 hroute⟩
  · simp only [relay_of_not h]
    rfl

/-! ### What holds of every desk -/

/-- The line is one that traffic leads to, those in it are the clients that are answered with a stream,
in the order in which they came, and these are the ones that are let through to an open queue. -/
structure Kept (s : Site) (r : Registry) (σ : Desk) : Prop where
  line : Line.Reachable s.traffic r σ.line
  submitted : σ.line.submitted = σ.streamed
  stream_iff : ∀ c a, (c, a) ∈ σ.answers → (a = .stream ↔ s.Admits c ∧ s.queueOpen = true)

theorem mem_streamed : c ∈ σ.streamed ↔ (c, Answer.stream) ∈ σ.answers := by
  simp only [streamed, List.mem_map, List.mem_filter, Prod.exists, exists_and_right, exists_eq_right]
  constructor
  · rintro ⟨a, hmem, ha⟩
    cases a with
    | whole => cases ha
    | stream => exact hmem
  · exact fun hmem => ⟨_, hmem, rfl⟩

theorem mem_arrived : c ∈ σ.arrived ↔ ∃ a, (c, a) ∈ σ.answers := by
  simp [arrived]

theorem Kept.mem_submitted_iff (h : Kept s r σ) :
    c ∈ σ.line.submitted ↔ c ∈ σ.arrived ∧ s.Admits c ∧ s.queueOpen = true := by
  rw [h.submitted, mem_streamed, mem_arrived]
  constructor
  · exact fun hmem => ⟨⟨_, hmem⟩, (h.stream_iff c _ hmem).1 rfl⟩
  · rintro ⟨⟨a, hmem⟩, hlet⟩
    rwa [(h.stream_iff c a hmem).2 hlet] at hmem

/-- An answer more. -/
theorem Kept.answer {line : Line} {a : Answer} (h : Kept s r σ)
    (hline : Line.Reachable s.traffic r line)
    (hsubmitted : line.submitted = σ.streamed ++ if a.isStream then [c] else [])
    (ha : a = .stream ↔ s.Admits c ∧ s.queueOpen = true) : Kept s r (σ.answer line c a) where
  line := hline
  submitted := by
    show line.submitted = ((σ.answers ++ [(c, a)]).filter (·.2.isStream)).map (·.1)
    rw [hsubmitted, List.filter_append, List.map_append]
    cases a <;> rfl
  stream_iff d b hmem := by
    rcases List.mem_append.1 hmem with hmem | hmem
    · exact h.stream_iff d b hmem
    · obtain ⟨rfl, rfl⟩ := Prod.mk.inj (List.mem_singleton.1 hmem)
      exact ha

theorem Kept.arrive (h : Kept s r σ) (hm : σ.arrive s c = some σ') : Kept s r σ' := by
  have hnew : c ∉ σ.arrived := by
    intro hmem
    rw [Desk.arrive, if_pos hmem] at hm
    cases hm
  by_cases hlet : s.Admits c ∧ s.queueOpen = true
  · rw [arrive_of_admits hlet.1 hlet.2 hnew] at hm
    obtain ⟨line, hline, rfl⟩ := Option.map_eq_some_iff.1 hm
    refine h.answer (h.line.step _ hline) ?_ (by simp [hlet])
    cases Line.Step.of_step hline
    show σ.line.submitted ++ [c] = _
    rw [h.submitted]
    rfl
  · rw [arrive_of_not hlet hnew] at hm
    obtain rfl := Option.some.inj hm
    refine h.answer h.line ?_ (by simp [hlet])
    rw [h.submitted]
    exact (List.append_nil _).symm

theorem Kept.go (h : Kept s r σ) {m : Line.Move} (hne : ∀ c, m ≠ .submit c) {line : Line}
    (hm : σ.line.step s.traffic m = some line) : Kept s r { σ with line } where
  line := h.line.step m hm
  submitted := ((Line.Step.of_step hm).submitted hne).trans h.submitted
  stream_iff := h.stream_iff

theorem Kept.step (h : Kept s r σ) {m : Move} (hm : σ.step s m = some σ') : Kept s r σ' := by
  cases m with
  | arrive c => exact h.arrive hm
  | go m =>
    cases m with
    | submit c => cases hm
    | work | receive c | leave c =>
      obtain ⟨line, hline, rfl⟩ := Option.map_eq_some_iff.1 hm
      refine h.go ?_ hline
      nofun

theorem Reachable.kept (h : Reachable s r σ) : Kept s r σ := by
  induction h with
  | new => exact ⟨.new, rfl, fun _ _ => nofun⟩
  | step _ m hm ih => exact ih.step hm

/-- What a client that comes to a desk finds. -/
structure Meets (s : Site) (σ : Desk) (c : Nat) : Prop where
  /-- A request that is let through is put in line, after the others. -/
  queued : s.Admits c → s.queueOpen = true → σ.line.waiting.length < s.capacity →
    σ.arrive s c = some (σ.answer { σ.line with
      waiting := σ.line.waiting ++ [c]
      submitted := σ.line.submitted ++ [c] } c .stream)
  /-- It waits as long as there is no room. -/
  waits : s.Admits c → s.queueOpen = true → ¬ σ.line.waiting.length < s.capacity →
    σ.arrive s c = none
  /-- Where nobody works off the queue, it is refused, and the line stays as it is. -/
  refused : s.Admits c → s.queueOpen = false →
    σ.arrive s c = some (σ.answer σ.line c (.whole (.error 503 "Generation queue closed")))
  /-- Any other request is answered by what it is, and the line stays as it is. -/
  turned : ¬ s.Admits c → ∃ response, Turned (σ.relay s) (s.request c) response ∧
    σ.arrive s c = some (σ.answer σ.line c (.whole response))

theorem Kept.meets (h : Kept s r σ) (hnew : c ∉ σ.arrived) : Meets s σ c where
  queued hadmits hopen hroom := by
    have hsubmitted : c ∉ σ.line.submitted := fun hmem => hnew (h.mem_submitted_iff.1 hmem).1
    rw [arrive_of_admits hadmits hopen hnew, Line.step, if_pos ⟨hsubmitted, hroom⟩]
    rfl
  waits hadmits hopen hfull := by
    rw [arrive_of_admits hadmits hopen hnew, Line.step, if_neg fun hroom => hfull hroom.2]
    rfl
  refused hadmits hclosed := by
    have hdead := (Relay.handle_of_dead (r := σ.relay s) hadmits hclosed).1
    rw [arrive_of_not (by simp [hclosed]) hnew, hdead]
  turned hnot := by
    refine ⟨_, Relay.turned_of_not_admits ?_, arrive_of_not (fun hlet => hnot hlet.1) hnew⟩
    exact fun g hadmits => hnot (Site.admits_iff.2 ⟨g, hadmits⟩)

/-- Without credentials nothing is let through. -/
theorem not_admits_of_locked (hlocked : s.credentials = none) (c : Nat) : ¬ s.Admits c := by
  rintro ⟨-, -, ⟨credentials, hsome, -⟩, -, -⟩
  rw [hlocked] at hsome
  cases hsome

/-- What holds of a relay at any time, whatever comes to it. -/
structure Guarded (s : Site) (r : Registry) (σ : Desk) : Prop where
  /-- In line are exactly the requests that were let through to an open queue, as they came. -/
  submitted : σ.line.submitted = σ.streamed ∧
    ∀ c, c ∈ σ.line.submitted ↔ c ∈ σ.arrived ∧ s.Admits c ∧ s.queueOpen = true
  /-- The engine was asked for the replies of some of these, and for nothing else. -/
  asked : σ.line.begun ⊆ σ.line.submitted ∧
    σ.line.registry.usage = (r.asked (Line.prompts s.traffic r σ.line.begun)).usage
  /-- As long as there are none, the registry is as it was at the start. -/
  untouched : σ.line.submitted = [] → σ.line.registry = r
  meets : ∀ c, c ∉ σ.arrived → Meets s σ c
  /-- Without a name or a password, nothing is ever put in line. -/
  locked : ∀ config : ServerConfig, s.credentials = Credentials.ofConfig config.auth →
    config.auth.username = none ∨ config.auth.password = none →
      σ.line.submitted = [] ∧ σ.line.begun = [] ∧ σ.line.registry = r

/-- Whatever requests come, in whatever order and while whatever is going on, only those that are let
through are put in line, and only for these the engine is asked; all others are answered by what they
are and change nothing. -/
theorem reachable_guarded {s : Site} {r : Registry} {σ : Desk} (h : Reachable s r σ) :
    Guarded s r σ where
  submitted := ⟨h.kept.submitted, fun _ => h.kept.mem_submitted_iff⟩
  asked := by
    obtain ⟨_, _, hregistry⟩ := h.kept.line.asks.registry
    refine ⟨h.kept.line.ordered.begun_subset, ?_⟩
    rw [hregistry]
  untouched := h.kept.line.registry_eq
  meets _ := h.kept.meets
  locked config hcredentials hmissing := by
    have hlocked : s.credentials = none := by
      rw [hcredentials, Credentials.ofConfig]
      rcases hmissing with hnone | hnone
      · simp [hnone]
      · simp [hnone]
    have hnil : σ.line.submitted = [] := by
      refine List.eq_nil_iff_forall_not_mem.2 ?_
      exact fun c hc => not_admits_of_locked hlocked c (h.kept.mem_submitted_iff.1 hc).2.1
    refine ⟨hnil, ?_, h.kept.line.registry_eq hnil⟩
    exact List.subset_nil.1 (hnil ▸ h.kept.line.ordered.begun_subset)

/-- Four requests of which only the third is let through. -/
def mixed : Site where
  credentials := some ⟨"u", "p"⟩
  queueOpen := true
  request
    | 0 => { Relay.posted with method := "OPTIONS" }
    | 1 => { Relay.posted with headers := [] }
    | 2 => Relay.posted
    | _ => { Relay.posted with path := "/" }
  capacity := 1
  buffer := 1
  capacity_pos := by decide
  buffer_pos := by decide

/-- They all come, and the worker begins a session while the last is on its way. -/
def arriving : List Move :=
  [.arrive 0, .arrive 1, .arrive 2, .go .work, .go .work, .go .work, .arrive 3]

theorem reachable_guarded_mixed :
    ∃ σ, Reachable mixed Relay.listening.registry σ ∧
      Guarded mixed Relay.listening.registry σ ∧
      σ.arrived = [0, 1, 2, 3] ∧ σ.line.submitted = [2] ∧ σ.line.begun = [2] := by
  have hrun : ((run mixed (.new Relay.listening.registry) arriving).map fun σ =>
      (σ.arrived, σ.line.submitted, σ.line.begun)) = some ([0, 1, 2, 3], [2], [2]) := by
    decide +kernel
  obtain ⟨σ, hσ, hseen⟩ := Option.map_eq_some_iff.1 hrun
  have hreach : Reachable mixed Relay.listening.registry σ := Moves.Reachable.new.run hσ
  simp only [Prod.mk.injEq] at hseen
  exact ⟨σ, hreach, reachable_guarded hreach, hseen⟩

/-- A relay whose queue nobody works off, and a request with all that it takes. -/
def abandoned : Site where
  credentials := some ⟨"u", "p"⟩
  queueOpen := false
  request := fun _ => Relay.posted
  capacity := 1
  buffer := 1
  capacity_pos := by decide
  buffer_pos := by decide

/-- What is let through is not put in line where nobody works it off. -/
theorem admitted_not_submitted_of_closed :
    abandoned.Admits 0 ∧ ∃ σ, Reachable abandoned Relay.listening.registry σ ∧
      σ.answers = [(0, .whole (.error 503 "Generation queue closed"))] ∧
      σ.line.submitted = [] := by
  have hroute : Relay.listening.route Relay.posted = .generate Registry.greeting := rfl
  have hadmits : abandoned.Admits 0 :=
    Site.admits_iff.2 ⟨_, Relay.route_eq_generate_iff.1 hroute⟩
  have hnew : Reachable abandoned Relay.listening.registry (new Relay.listening.registry) := .new
  have harrive := (hnew.kept.meets (c := 0) List.not_mem_nil).refused hadmits rfl
  exact ⟨hadmits, _, hnew.step (.arrive 0) harrive, rfl, rfl⟩

end Desk

end ChatRelay.Http
