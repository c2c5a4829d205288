import ChatRelay.Http.Credentials
import ChatRelay.Http.Response
import ChatRelay.Session.Run

/-!
# The relay

Requests and what becomes of them. `Relay.route` decides: it answers at once, or it lets a request
for a reply through. Only the latter touches the queue and the engine, and it takes the right method
and path, configured credentials that the headers carry, and a body with at least one message, which
are looked at in this order.
-/

namespace ChatRelay.Http

/-- What the relay keeps between requests. -/
structure Relay where
  registry : Registry
  /-- Without credentials nobody is let in. -/
  credentials : Option Credentials
  /-- Whether anybody works off the queue. -/
  queueOpen : Bool

/-- What becomes of a request. -/
inductive Route where
  | answer (r : Response)
  /-- The credentials are missing or wrong. -/
  | reject
  | generate (request : GenerateRequest)

/-- What there is to tell the operator. -/
inductive Notice where
  | noCredentials
  | rejected
  | session (n : SessionNotice)
deriving DecidableEq

/-- The words for a notice. -/
def Notice.message : Notice → String
  | noCredentials => "[HTTP] No credentials configured, every generate request will be rejected"
  | rejected => "[HTTP] Rejected request with bad credentials"
  | session n => n.message

/-! ### Bodies -/

/-- Reads a body as JSON. -/
def readJson? (body : List UInt8) : Except Response Json :=
  match (Json.Tree.read? (Utf8.units body)).bind (Json.Tree.json? Json.Tree.depthLimit) with
  | some v => .ok v
  | none => .error (.error 400 "Invalid JSON format")

/-- Reads a body as a request for a reply, to a conversation that has begun. -/
def readRequest? (body : List UInt8) : Except Response GenerateRequest :=
  match GenerateRequest.parse? (Utf8.units body) with
  | none => .error (.error 400 "Invalid JSON format")
  | some request =>
    if request.messages = [] then .error (.error 400 "No messages provided") else .ok request

namespace Relay

/-- A relay to a registry's engine. -/
def new (registry : Registry) (config : ServerConfig) : Relay :=
  ⟨registry, Credentials.ofConfig config.auth, true⟩

/-- What there is to tell the operator when a relay starts. -/
def startNotices (r : Relay) : List Notice :=
  if r.credentials.isNone then [.noCredentials] else []

/-- Whether a request carries the right credentials. -/
def authorizes (r : Relay) (request : Request) : Bool :=
  r.credentials.any (·.accepts (request.header "authorization"))

/-- The state of the relay, as JSON. -/
def health (r : Relay) : Json :=
  .object [("status", .str "ok"), ("generating", .bool r.registry.generating),
    ("shutting_down", .bool r.registry.cancelled)]

/-- What becomes of a request. -/
def route (r : Relay) (request : Request) : Route :=
  if request.method = "OPTIONS" then .answer .preflight
  else if request.method = "GET" ∧ request.path = "/health" then .answer (.json 200 r.health)
  else if request.method = "POST" ∧ request.path = "/generate" then
    if r.authorizes request then
      match readRequest? request.body with
      | .ok generate => .generate generate
      | .error response => .answer response
    else .reject
  else .answer (.error 404 "Not found")

/-- What comes of a request: the answer, what there is to tell the operator, and the relay after it.
-/
structure Handled where
  response : Response
  notices : List Notice
  relay : Relay

/-- Answers a request whose client reads the answer to its end. -/
def handle (r : Relay) (request : Request) : Handled :=
  match r.route request with
  | .answer response => ⟨response, [], r⟩
  | .reject => ⟨.unauthorized "Incorrect username or password", [.rejected], r⟩
  | .generate generate =>
    if r.queueOpen then
      let run := r.registry.run generate .none
      ⟨.lines (String.join (run.received.map StreamEvent.line)), run.notices.map .session,
        { r with registry := run.registry }⟩
    else ⟨.error 503 "Generation queue closed", [], r⟩

end Relay

end ChatRelay.Http
