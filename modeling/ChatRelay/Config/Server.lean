import ChatRelay.Chat.Dialect
import ChatRelay.Config.ModelSize

/-!
# The server's configuration

What can be set, and the value of each setting when nothing sets it. The JSON form has a record for
the server and one each for its credentials and its model; every field may be left out, and null
stands for absence where a setting may be absent. `Config.Layers` says which of several sources
wins.
-/

namespace ChatRelay

/-- The model to serve. What is absent is taken from the size's profile. -/
structure ModelConfig where
  path : Option String
  size : ModelSize
  gpu : Bool
  contextSize : Option Nat
  batchSize : Option Nat
  threads : Option Nat
  gpuLayers : Option Int
deriving DecidableEq, Repr

/-- The name and password that a client has to send. -/
structure AuthConfig where
  username : Option String
  password : Option String
deriving DecidableEq, Repr

/-- The configuration of a server. -/
structure ServerConfig where
  host : String
  port : Nat
  dialect : Dialect
  auth : AuthConfig
  maxTokens : Nat
  /-- The requests that may wait in line. -/
  queueCapacity : Nat
  /-- The events that may wait for a slow client. -/
  eventBuffer : Nat
  logDir : String
  logLevel : String
  model : ModelConfig
deriving DecidableEq, Repr

/-! ### Shared JSON forms -/

namespace Json

/-- Reads a natural number of at most that size. -/
def Tree.natural? (high : Nat) : Tree.Reader Nat := fun depth t =>
  (Tree.integer? 0 high depth t).map Int.toNat

/-- A value that may be absent, as JSON. -/
def optionText (write : α → List Char) : Option α → List Char
  | none => ['n', 'u', 'l', 'l']
  | some a => write a

/-- A natural number as JSON. -/
def naturalText (n : Nat) : List Char := Integer.digits n

end Json

/-! ### The model -/

namespace ModelConfig

/-- A medium model without a GPU. -/
def initial : ModelConfig := ⟨none, .medium, false, none, none, none, none⟩

instance : Inhabited ModelConfig := ⟨initial⟩

/-- The size whose profile counts: without a GPU it is the small one. -/
def effectiveSize (m : ModelConfig) : ModelSize :=
  if m.gpu then m.size else .small

/-- What the model is loaded with: what is set, over the profile. -/
def params (m : ModelConfig) : ModelParams :=
  let profile := m.effectiveSize.profile
  { contextSize := m.contextSize.getD profile.contextSize
    batchSize := m.batchSize.getD profile.batchSize
    threads := m.threads.getD profile.threads
    gpuLayers := m.gpuLayers.getD profile.gpuLayers }

/-- The largest size of a context, of a batch or of the crew of threads. -/
def maxSize : Nat := 0xFFFFFFFF

/-- Reads a model. -/
def read? : Json.Tree.Reader ModelConfig :=
  Json.Tree.record? ["path", "size", "gpu", "context_size", "batch_size", "threads", "gpu_layers"]
    fun depth field => do
      let path ← Json.Tree.optional (Json.Tree.string? depth) (field "path")
      let size ← Json.Tree.withDefault initial.size (ModelSize.read? depth) (field "size")
      let gpu ← Json.Tree.withDefault initial.gpu (Json.Tree.bool? depth) (field "gpu")
      let context ← Json.Tree.optional (Json.Tree.natural? maxSize depth) (field "context_size")
      let batch ← Json.Tree.optional (Json.Tree.natural? maxSize depth) (field "batch_size")
      let threads ← Json.Tree.optional (Json.Tree.natural? maxSize depth) (field "threads")
      let layers ←
        Json.Tree.optional (Json.Tree.integer? (-0x80000000) 0x7FFFFFFF depth) (field "gpu_layers")
      some ⟨path, size, gpu, context, batch, threads, layers⟩

/-- A model as JSON. -/
def write (m : ModelConfig) : List Char :=
  Json.recordText [
    ("path", Json.optionText (fun s => Json.stringText s.toList) m.path),
    ("size", m.size.write),
    ("gpu", Json.boolText m.gpu),
    ("context_size", Json.optionText Json.naturalText m.contextSize),
    ("batch_size", Json.optionText Json.naturalText m.batchSize),
    ("threads", Json.optionText Json.naturalText m.threads),
    ("gpu_layers", Json.optionText Integer.text m.gpuLayers)]

end ModelConfig

/-! ### Credentials -/

namespace AuthConfig

/-- No credentials. -/
def initial : AuthConfig := ⟨none, none⟩

instance : Inhabited AuthConfig := ⟨initial⟩

/-- Whether a request can be let in at all. -/
def isConfigured (a : AuthConfig) : Bool :=
  a.username.isSome && a.password.isSome

/-- Reads credentials. -/
def read? : Json.Tree.Reader AuthConfig :=
  Json.Tree.record? ["username", "password"] fun depth field => do
    let username ← Json.Tree.optional (Json.Tree.string? depth) (field "username")
    let password ← Json.Tree.optional (Json.Tree.string? depth) (field "password")
    some ⟨username, password⟩

/-- Credentials as JSON. -/
def write (a : AuthConfig) : List Char :=
  let text := Json.optionText fun s : String => Json.stringText s.toList
  Json.recordText [("username", text a.username), ("password", text a.password)]

end AuthConfig

/-! ### The server -/

namespace ServerConfig

/-- The configuration when nothing is set. -/
def initial : ServerConfig :=
  { host := "0.0.0.0"
    port := 8443
    dialect := .gemma
    auth := .initial
    maxTokens := 2048
    queueCapacity := 16
    eventBuffer := 64
    logDir := "logs"
    logLevel := "info"
    model := .initial }

instance : Inhabited ServerConfig := ⟨initial⟩

/-- The largest port. -/
def maxPort : Nat := 0xFFFF

/-- The largest count of tokens, requests or events. -/
def maxCount : Nat := 0xFFFFFFFFFFFFFFFF

/-- Reads a configuration. -/
def read? : Json.Tree.Reader ServerConfig :=
  Json.Tree.record? ["host", "port", "dialect", "auth", "max_tokens", "queue_capacity",
      "event_buffer", "log_dir", "log_level", "model"] fun depth field => do
    let host ← Json.Tree.withDefault initial.host (Json.Tree.string? depth) (field "host")
    let port ←
      Json.Tree.withDefault initial.port (Json.Tree.natural? maxPort depth) (field "port")
    let dialect ← Json.Tree.withDefault initial.dialect (Dialect.read? depth) (field "dialect")
    let auth ← Json.Tree.withDefault initial.auth (AuthConfig.read? depth) (field "auth")
    let tokens ←
      Json.Tree.withDefault initial.maxTokens (Json.Tree.natural? maxCount depth)
        (field "max_tokens")
    let capacity ←
      Json.Tree.withDefault initial.queueCapacity (Json.Tree.natural? maxCount depth)
        (field "queue_capacity")
    let buffer ←
      Json.Tree.withDefault initial.eventBuffer (Json.Tree.natural? maxCount depth)
        (field "event_buffer")
    let dir ← Json.Tree.withDefault initial.logDir (Json.Tree.string? depth) (field "log_dir")
    let level ←
      Json.Tree.withDefault initial.logLevel (Json.Tree.string? depth) (field "log_level")
    let model ← Json.Tree.withDefault initial.model (ModelConfig.read? depth) (field "model")
    some ⟨host, port, dialect, auth, tokens, capacity, buffer, dir, level, model⟩

/-- A configuration as JSON. -/
def write (c : ServerConfig) : List Char :=
  Json.recordText [
    ("host", Json.stringText c.host.toList),
    ("port", Json.naturalText c.port),
    ("dialect", c.dialect.write),
    ("auth", c.auth.write),
    ("max_tokens", Json.naturalText c.maxTokens),
    ("queue_capacity", Json.naturalText c.queueCapacity),
    ("event_buffer", Json.naturalText c.eventBuffer),
    ("log_dir", Json.stringText c.logDir.toList),
    ("log_level", Json.stringText c.logLevel.toList),
    ("model", c.model.write)]

/-- Reads the text of a configuration. -/
def parse? (cs : List Char) : Option ServerConfig :=
  (Json.Tree.ofChars? cs).bind (read? Json.Tree.depthLimit)

/-- The address to listen at. -/
def bindAddress (c : ServerConfig) : String :=
  c.host ++ ":" ++ String.ofList (Json.naturalText c.port)

end ServerConfig

end ChatRelay
