import ChatRelay.Config.Layers
import ChatRelay.Proofs.Json.Reading

/-!
# Settings one by one

A configuration is a value for each `Setting`, those of the credentials and of the model included
(`ServerConfig.ofSettings`, `get_ofSettings`). A `Layer` says which settings a source sets, and to
what: a file those for which it has a field, the environment those of its variables, the overrides
those they name. Each of the three changes a configuration in what its layer sets and in nothing
else (`get_of_load`, `get_of_apply`, `get_applyOverrides`).
-/

namespace ChatRelay

/-- A part of a configuration that is set by itself. -/
inductive Setting where
  | host
  | port
  | dialect
  | username
  | password
  | maxTokens
  | queueCapacity
  | eventBuffer
  | logDir
  | logLevel
  | modelPath
  | modelSize
  | gpu
  | contextSize
  | batchSize
  | threads
  | gpuLayers
deriving DecidableEq, Repr

/-- What a setting can be set to. -/
def Setting.Value : Setting → Type
  | .host | .logDir | .logLevel => String
  | .port | .maxTokens | .queueCapacity | .eventBuffer => Nat
  | .dialect => Dialect
  | .modelSize => ModelSize
  | .gpu => Bool
  | .username | .password | .modelPath => Option String
  | .contextSize | .batchSize | .threads => Option Nat
  | .gpuLayers => Option Int

namespace ServerConfig

/-- The value of a setting. -/
def get (c : ServerConfig) : (s : Setting) → s.Value
  | .host => c.host
  | .port => c.port
  | .dialect => c.dialect
  | .username => c.auth.username
  | .password => c.auth.password
  | .maxTokens => c.maxTokens
  | .queueCapacity => c.queueCapacity
  | .eventBuffer => c.eventBuffer
  | .logDir => c.logDir
  | .logLevel => c.logLevel
  | .modelPath => c.model.path
  | .modelSize => c.model.size
  | .gpu => c.model.gpu
  | .contextSize => c.model.contextSize
  | .batchSize => c.model.batchSize
  | .threads => c.model.threads
  | .gpuLayers => c.model.gpuLayers

/-- The configuration with these values. -/
def ofSettings (value : (s : Setting) → s.Value) : ServerConfig where
  host := value .host
  port := value .port
  dialect := value .dialect
  auth := ⟨value .username, value .password⟩
  maxTokens := value .maxTokens
  queueCapacity := value .queueCapacity
  eventBuffer := value .eventBuffer
  logDir := value .logDir
  logLevel := value .logLevel
  model := ⟨value .modelPath, value .modelSize, value .gpu, value .contextSize, value .batchSize,
    value .threads, value .gpuLayers⟩

theorem get_ofSettings (value : (s : Setting) → s.Value) (s : Setting) :
    (ofSettings value).get s = value s := by
  cases s <;> rfl

/-- There is nothing to a configuration but its settings. -/
theorem eq_ofSettings {c : ServerConfig} {value : (s : Setting) → s.Value}
    (h : ∀ s, c.get s = value s) : c = ofSettings value := by
  obtain rfl : c.get = value := funext h
  rfl

end ServerConfig

/-- The settings that a source sets, and what it sets them to. -/
abbrev Layer := (s : Setting) → Option s.Value

namespace Setting

open Json.Tree

/-! ### The file -/

/-- A field of a file's record. -/
def serverField? (t : Json.Tree) (name : String) : Option Json.Tree :=
  t.field? ["host", "port", "dialect", "auth", "max_tokens", "queue_capacity", "event_buffer",
    "log_dir", "log_level", "model"] name

/-- A field of the credentials in a file. -/
def authField? (t : Json.Tree) (name : String) : Option Json.Tree :=
  (serverField? t "auth").bind (·.field? ["username", "password"] name)

/-- A field of the model in a file. -/
def modelField? (t : Json.Tree) (name : String) : Option Json.Tree :=
  (serverField? t "model").bind
    (·.field? ["path", "size", "gpu", "context_size", "batch_size", "threads", "gpu_layers"] name)

/-- Where a file says what a setting is. -/
def field? (t : Json.Tree) : Setting → Option Json.Tree
  | .host => serverField? t "host"
  | .port => serverField? t "port"
  | .dialect => serverField? t "dialect"
  | .username => authField? t "username"
  | .password => authField? t "password"
  | .maxTokens => serverField? t "max_tokens"
  | .queueCapacity => serverField? t "queue_capacity"
  | .eventBuffer => serverField? t "event_buffer"
  | .logDir => serverField? t "log_dir"
  | .logLevel => serverField? t "log_level"
  | .modelPath => modelField? t "path"
  | .modelSize => modelField? t "size"
  | .gpu => modelField? t "gpu"
  | .contextSize => modelField? t "context_size"
  | .batchSize => modelField? t "batch_size"
  | .threads => modelField? t "threads"
  | .gpuLayers => modelField? t "gpu_layers"

/-- The levels of nesting that are left inside a file's record. -/
def levels : Nat := depthLimit - 1

/-- What a field says that a setting is. Null says nothing. -/
def ofTree? : (s : Setting) → Json.Tree → Option s.Value
  | .host | .logDir | .logLevel => string? levels
  | .port => natural? ServerConfig.maxPort levels
  | .maxTokens | .queueCapacity | .eventBuffer => natural? ServerConfig.maxCount levels
  | .dialect => Dialect.read? levels
  | .modelSize => ModelSize.read? (levels - 1)
  | .gpu => bool? (levels - 1)
  | .username | .password | .modelPath => fun t => (string? (levels - 1) t).map some
  | .contextSize | .batchSize | .threads => fun t =>
    (natural? ModelConfig.maxSize (levels - 1) t).map some
  | .gpuLayers => fun t => (integer? (-0x80000000) 0x7FFFFFFF (levels - 1) t).map some

/-! ### The environment -/

/-- The variable that sets a setting, if there is one. -/
def setBy? : Setting → Option EnvVariable
  | .host => some .host
  | .port => some .port
  | .dialect => some .dialect
  | .username => some .username
  | .password => some .password
  | .logLevel => some .logLevel
  | .modelPath => some .modelPath
  | .modelSize => some .modelSize
  | .gpu => some .gpuArchitecture
  | _ => none

/-- What the value of its variable says that a setting is. The empty architecture says nothing. -/
def ofText? : (s : Setting) → String → Option s.Value
  | .host, value | .logLevel, value => some value
  | .port, value =>
    (Integer.parse 0 ServerConfig.maxPort value.toList).toOption.map Int.toNat
  | .dialect, value => (Dialect.parse value).toOption
  | .modelSize, value => (ModelSize.parse value).toOption
  | .username, value | .password, value | .modelPath, value => some (some value)
  | .gpu, value => if value = "" then none else some true
  | .maxTokens, _ | .queueCapacity, _ | .eventBuffer, _ | .logDir, _ | .contextSize, _
  | .batchSize, _ | .threads, _ | .gpuLayers, _ => none

end Setting

namespace Layer

/-- What a file sets. -/
def ofFile : ConfigFile → Layer
  | .content bytes => fun s => do
    let cs ← Utf8.decodeChars? bytes
    let t ← Json.Tree.ofChars? cs
    let field ← s.field? t
    s.ofTree? field
  | .notGiven | .missing => fun _ => none

/-- What the environment sets. -/
def ofEnvironment (env : Environment) : Layer := fun s => do
  let v ← s.setBy?
  let value ← env v.key
  s.ofText? value

/-- What the overrides set. -/
def ofOverrides (o : ConfigOverrides) : Layer
  | .host => o.host
  | .port => o.port
  | .dialect => o.dialect
  | .maxTokens => o.maxTokens
  | .logDir => o.logDir
  | .logLevel => o.logLevel
  | .modelPath => o.modelPath.map some
  | .modelSize => o.modelSize
  | _ => none

end Layer

/-! ### What a file changes -/

section

open Json.Tree

variable {t : Json.Tree}

theorem AuthConfig.of_read? {depth : Nat} {a : AuthConfig} (h : read? depth t = some a) :
    let stated := fun name =>
      (t.field? ["username", "password"] name).bind fun t => (string? (depth - 1) t).map some
    a.username = (stated "username").getD none ∧ a.password = (stated "password").getD none := by
  obtain ⟨-, h⟩ := read_of_record? h
  simp only [Option.bind_eq_bind, Option.bind_eq_some_iff] at h
  obtain ⟨username, husername, password, hpassword, h⟩ := h
  obtain rfl := Option.some.inj h
  exact ⟨eq_getD_of_optional rfl husername, eq_getD_of_optional rfl hpassword⟩

/-- What the fields of a model's record say. -/
structure ModelConfig.ReadFrom (m : ModelConfig) (depth : Nat)
    (field : String → Option Json.Tree) : Prop where
  path : m.path = ((field "path").bind fun t => (string? depth t).map some).getD none
  size : m.size = ((field "size").bind (ModelSize.read? depth)).getD .medium
  gpu : m.gpu = ((field "gpu").bind (bool? depth)).getD false
  contextSize : m.contextSize =
    ((field "context_size").bind fun t => (natural? maxSize depth t).map some).getD none
  batchSize : m.batchSize =
    ((field "batch_size").bind fun t => (natural? maxSize depth t).map some).getD none
  threads : m.threads =
    ((field "threads").bind fun t => (natural? maxSize depth t).map some).getD none
  gpuLayers : m.gpuLayers = ((field "gpu_layers").bind fun t =>
    (integer? (-0x80000000) 0x7FFFFFFF depth t).map some).getD none

theorem ModelConfig.of_read? {depth : Nat} {m : ModelConfig} (h : read? depth t = some m) :
    m.ReadFrom (depth - 1)
      (t.field? ["path", "size", "gpu", "context_size", "batch_size", "threads", "gpu_layers"]) := by
  obtain ⟨-, h⟩ := read_of_record? h
  simp only [Option.bind_eq_bind, Option.bind_eq_some_iff] at h
  obtain ⟨path, hpath, size, hsize, gpu, hgpu, context, hcontext, batch, hbatch, threads, hthreads,
    layers, hlayers, h⟩ := h
  obtain rfl := Option.some.inj h
  exact {
    path := eq_getD_of_optional rfl hpath
    size := eq_getD_of_withDefault hsize
    gpu := eq_getD_of_withDefault hgpu
    contextSize := eq_getD_of_optional rfl hcontext
    batchSize := eq_getD_of_optional rfl hbatch
    threads := eq_getD_of_optional rfl hthreads
    gpuLayers := eq_getD_of_optional rfl hlayers }

/-- A setting is what its field in the file says, and else what it is initially. -/
theorem ServerConfig.get_of_read? {c : ServerConfig} (h : read? depthLimit t = some c)
    (s : Setting) :
    c.get s = ((s.field? t).bind s.ofTree?).getD (ServerConfig.initial.get s) := by
  obtain ⟨-, h⟩ := read_of_record? h
  simp only [Option.bind_eq_bind, Option.bind_eq_some_iff] at h
  obtain ⟨host, hhost, port, hport, dialect, hdialect, auth, hauth, tokens, htokens, capacity,
    hcapacity, buffer, hbuffer, dir, hdir, level, hlevel, model, hmodel, h⟩ := h
  obtain rfl := Option.some.inj h
  cases s with
  | host => exact eq_getD_of_withDefault hhost
  | port => exact eq_getD_of_withDefault hport
  | dialect => exact eq_getD_of_withDefault hdialect
  | maxTokens => exact eq_getD_of_withDefault htokens
  | queueCapacity => exact eq_getD_of_withDefault hcapacity
  | eventBuffer => exact eq_getD_of_withDefault hbuffer
  | logDir => exact eq_getD_of_withDefault hdir
  | logLevel => exact eq_getD_of_withDefault hlevel
  | username => exact eq_getD_of_nested hauth fun _ h => (AuthConfig.of_read? h).1
  | password => exact eq_getD_of_nested hauth fun _ h => (AuthConfig.of_read? h).2
  | modelPath => exact eq_getD_of_nested hmodel fun _ h => (ModelConfig.of_read? h).path
  | modelSize => exact eq_getD_of_nested hmodel fun _ h => (ModelConfig.of_read? h).size
  | gpu => exact eq_getD_of_nested hmodel fun _ h => (ModelConfig.of_read? h).gpu
  | contextSize => exact eq_getD_of_nested hmodel fun _ h => (ModelConfig.of_read? h).contextSize
  | batchSize => exact eq_getD_of_nested hmodel fun _ h => (ModelConfig.of_read? h).batchSize
  | threads => exact eq_getD_of_nested hmodel fun _ h => (ModelConfig.of_read? h).threads
  | gpuLayers => exact eq_getD_of_nested hmodel fun _ h => (ModelConfig.of_read? h).gpuLayers

theorem get_of_load {file : ConfigFile} {c : ServerConfig} (h : file.load = .ok c) (s : Setting) :
    c.get s = (Layer.ofFile file s).getD (ServerConfig.initial.get s) := by
  cases file with
  | notGiven =>
    obtain rfl := Except.ok.inj h
    rfl
  | missing => cases h
  | content bytes =>
    rw [ConfigFile.load] at h
    split at h
    · cases h
    next cs hcs =>
    split at h
    · cases h
    next config hparse =>
    obtain rfl := Except.ok.inj h
    obtain ⟨t, ht, hread⟩ := Option.bind_eq_some_iff.1 hparse
    simp only [Layer.ofFile, hcs, ht, Option.bind_eq_bind, Option.bind_some]
    exact ServerConfig.get_of_read? hread s

end

/-! ### What the environment and the overrides change -/

variable {v : EnvVariable} {value : String} {c c' : ServerConfig}

/-- A variable sets its own setting to what it says, if it says anything, and no other. -/
theorem get_of_apply (h : v.apply value c = .ok c') (s : Setting) :
    c'.get s = if s.setBy? = some v then (s.ofText? value).getD (c.get s) else c.get s := by
  cases v with
  | modelSize =>
    rw [EnvVariable.apply] at h
    split at h
    · next size hparse =>
      obtain rfl := Except.ok.inj h
      cases s with
      | modelSize =>
        show size = (ModelSize.parse value).toOption.getD c.model.size
        rw [hparse]
        rfl
      | _ => rfl
    · cases h
  | dialect =>
    rw [EnvVariable.apply] at h
    split at h
    · next dialect hparse =>
      obtain rfl := Except.ok.inj h
      cases s with
      | dialect =>
        show dialect = (Dialect.parse value).toOption.getD c.dialect
        rw [hparse]
        rfl
      | _ => rfl
    · cases h
  | port =>
    rw [EnvVariable.apply] at h
    split at h
    · next port hparse =>
      obtain rfl := Except.ok.inj h
      cases s with
      | port =>
        show port.toNat = ((Integer.parse 0 ServerConfig.maxPort value.toList).toOption.map
          Int.toNat).getD c.port
        rw [hparse]
        rfl
      | _ => rfl
    · cases h
  | gpuArchitecture =>
    obtain rfl := Except.ok.inj h
    cases s with
    | gpu =>
      show (value ≠ "" || c.model.gpu) = (if value = "" then none else some true).getD c.model.gpu
      split <;> simp_all
    | _ => rfl
  | _ =>
    obtain rfl := Except.ok.inj h
    cases s <;> rfl

theorem get_applyOverrides (o : ConfigOverrides) (c : ServerConfig) (s : Setting) :
    (c.applyOverrides o).get s = (Layer.ofOverrides o s).getD (c.get s) := by
  cases s with
  | modelPath =>
    show o.modelPath.or c.model.path = (o.modelPath.map some).getD c.model.path
    cases o.modelPath <;> rfl
  | _ => rfl

end ChatRelay
