import ChatRelay.Json.Text

/-!
# Responses

What the relay answers with. Every response may be read by pages of any origin, and says so in its
headers. A body is JSON, empty, or a stream of lines of JSON.
-/

namespace ChatRelay.Http

/-- A response. -/
structure Response where
  status : Nat
  headers : List (String × String)
  body : String
deriving DecidableEq, Repr

namespace Response

/-- The headers that let pages of any origin read the response. -/
def sharing : List (String × String) :=
  [("access-control-allow-origin", "*"),
    ("access-control-allow-methods", "GET, POST, OPTIONS"),
    ("access-control-allow-headers", "content-type, authorization")]

/-- A response with a JSON body. -/
def json (status : Nat) (body : Json) : Response :=
  ⟨status, ("content-type", "application/json") :: sharing, body.compact⟩

/-- A response that says what went wrong. -/
def error (status : Nat) (message : String) : Response :=
  json status (.object [("error", .str message)])

/-- A response that asks for credentials. -/
def unauthorized (message : String) : Response :=
  let r := error 401 message
  { r with headers := ("www-authenticate", "Basic") :: r.headers }

/-- A response without a body. -/
def empty (status : Nat) : Response :=
  ⟨status, sharing, ""⟩

/-- The answer to a page that asks what it may do. -/
def preflight : Response :=
  empty 200

/-- A stream of lines. -/
def lines (body : String) : Response :=
  ⟨200, ("content-type", "text/event-stream") :: ("cache-control", "no-cache")
    :: ("x-accel-buffering", "no") :: sharing, body⟩

end Response

end ChatRelay.Http
