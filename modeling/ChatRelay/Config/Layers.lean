import ChatRelay.Config.Server
import ChatRelay.Text.Integer
import ChatRelay.Text.Utf8

/-!
# Where a configuration comes from

A configuration is built in layers: what is set by default, then a file, then environment variables,
then overrides given on the command line. Each layer changes what it sets and nothing else, so the
last layer to set something wins. The result is checked once, at the end.

A variable that cannot be read is an error even if an override would have replaced it. Until then
the variables before it have taken effect; `applyEnvironment` keeps them beside the error.
-/

namespace ChatRelay

/-! ### Errors -/

/-- Why the value of a variable could not be read. -/
inductive SettingError where
  | size (cause : ModelSize.Unknown)
  | dialect (cause : Dialect.Unknown)
  | port (cause : IntegerError)
deriving DecidableEq, Repr

/-- What is said of such a value. -/
def SettingError.message : SettingError → String
  | .size e => e.message
  | .dialect e => e.message
  | .port e => e.message

/-- The environment variables that set something, in the order they are read. -/
inductive EnvVariable where
  | username
  | password
  | modelSize
  | gpuArchitecture
  | dialect
  | host
  | port
  | modelPath
  | logLevel
deriving DecidableEq, Repr

/-- Why a configuration cannot be served. -/
inductive ConfigViolation where
  | noPort
  | noTokens
  | noRoom
  | halfCredentials
deriving DecidableEq, Repr

/-- Why there is no configuration. -/
inductive ConfigError where
  /-- The file is missing or is not UTF-8. -/
  | unreadable
  /-- The file's text is not a configuration. -/
  | malformed
  /-- A variable has a value that cannot be read. -/
  | badVariable (key : EnvVariable) (value : String) (cause : SettingError)
  /-- The result cannot be served. -/
  | invalid (violation : ConfigViolation)
deriving DecidableEq, Repr

namespace EnvVariable

/-- All variables, in the order they are read. -/
def all : List EnvVariable :=
  [username, password, modelSize, gpuArchitecture, dialect, host, port, modelPath, logLevel]

/-- The name of the variable. -/
def key : EnvVariable → String
  | username => "AI_USERNAME"
  | password => "AI_PASSWORD"
  | modelSize => "MODEL_SIZE"
  | gpuArchitecture => "CUDA_ARCH"
  | dialect => "LLAMA_STREAM_DIALECT"
  | host => "LLAMA_STREAM_HOST"
  | port => "LLAMA_STREAM_PORT"
  | modelPath => "LLAMA_STREAM_MODEL_PATH"
  | logLevel => "LLAMA_STREAM_LOG_LEVEL"

end EnvVariable

/-- What is wrong, in the names of the settings. -/
def ConfigViolation.message : ConfigViolation → String
  | .noPort => "port must not be 0"
  | .noTokens => "max_tokens must be at least 1"
  | .noRoom => "queue_capacity and event_buffer must be at least 1"
  | .halfCredentials =>
    "set both " ++ EnvVariable.username.key ++ " and " ++ EnvVariable.password.key ++ ", or neither"

/-- The words for an error. The system's and the reader's own words about a file are not kept. -/
def ConfigError.message : ConfigError → Option String
  | .unreadable | .malformed => none
  | .badVariable key value cause =>
    some ("Invalid value " ++ Text.quote value ++ " for " ++ key.key ++ ": " ++ cause.message)
  | .invalid violation => some ("Invalid configuration: " ++ violation.message)

/-! ### The file -/

/-- The configuration file that was asked for. -/
inductive ConfigFile where
  | notGiven
  | missing
  | content (bytes : List UInt8)
deriving DecidableEq, Repr

/-- The first two layers: the defaults, and the file over them. -/
def ConfigFile.load : ConfigFile → Except ConfigError ServerConfig
  | .notGiven => .ok .initial
  | .missing => .error .unreadable
  | .content bytes =>
    match Utf8.decodeChars? bytes with
    | none => .error .unreadable
    | some cs =>
      match ServerConfig.parse? cs with
      | none => .error .malformed
      | some config => .ok config

/-! ### The environment -/

/-- The value of each variable that is set. -/
abbrev Environment := String → Option String

/-- Sets what a variable sets. A GPU is there if its architecture is named. -/
def EnvVariable.apply (value : String) (c : ServerConfig) :
    EnvVariable → Except SettingError ServerConfig
  | username => .ok { c with auth := { c.auth with username := some value } }
  | password => .ok { c with auth := { c.auth with password := some value } }
  | modelSize =>
    match ModelSize.parse value with
    | .ok s => .ok { c with model := { c.model with size := s } }
    | .error e => .error (.size e)
  | gpuArchitecture => .ok { c with model := { c.model with gpu := value ≠ "" || c.model.gpu } }
  | dialect =>
    match Dialect.parse value with
    | .ok d => .ok { c with dialect := d }
    | .error e => .error (.dialect e)
  | host => .ok { c with host := value }
  | port =>
    match Integer.parse 0 ServerConfig.maxPort value.toList with
    | .ok n => .ok { c with port := n.toNat }
    | .error e => .error (.port e)
  | modelPath => .ok { c with model := { c.model with path := some value } }
  | logLevel => .ok { c with logLevel := value }

/-- Sets what these variables set, up to the first that cannot be read. -/
def applyVariables (env : Environment) :
    List EnvVariable → ServerConfig → ServerConfig × Option ConfigError
  | [], c => (c, none)
  | v :: rest, c =>
    match env v.key with
    | none => applyVariables env rest c
    | some value =>
      match v.apply value c with
      | .ok c => applyVariables env rest c
      | .error cause => (c, some (.badVariable v value cause))

namespace ServerConfig

/-- The third layer: the environment. -/
def applyEnvironment (env : Environment) (c : ServerConfig) : ServerConfig × Option ConfigError :=
  applyVariables env EnvVariable.all c

end ServerConfig

/-! ### Overrides -/

/-- What the command line sets. -/
structure ConfigOverrides where
  host : Option String := none
  port : Option Nat := none
  dialect : Option Dialect := none
  maxTokens : Option Nat := none
  logDir : Option String := none
  logLevel : Option String := none
  modelPath : Option String := none
  modelSize : Option ModelSize := none
deriving DecidableEq, Repr

namespace ServerConfig

/-- The last layer: the overrides. -/
def applyOverrides (o : ConfigOverrides) (c : ServerConfig) : ServerConfig :=
  { c with
    host := o.host.getD c.host
    port := o.port.getD c.port
    dialect := o.dialect.getD c.dialect
    maxTokens := o.maxTokens.getD c.maxTokens
    logDir := o.logDir.getD c.logDir
    logLevel := o.logLevel.getD c.logLevel
    model := { c.model with
      path := o.modelPath.or c.model.path
      size := o.modelSize.getD c.model.size } }

/-! ### The check -/

/-- The first reason why a configuration cannot be served, if there is one. -/
def violation? (c : ServerConfig) : Option ConfigViolation :=
  if c.port = 0 then some .noPort
  else if c.maxTokens = 0 then some .noTokens
  else if c.queueCapacity = 0 ∨ c.eventBuffer = 0 then some .noRoom
  else if c.auth.username.isSome != c.auth.password.isSome then some .halfCredentials
  else none

/-- Whether a configuration can be served. -/
def validate (c : ServerConfig) : Except ConfigError Unit :=
  match c.violation? with
  | some v => .error (.invalid v)
  | none => .ok ()

/-- What the check reports of a configuration that can be served: the size that is asked for needs a
GPU, and there is none. -/
def notices (c : ServerConfig) : List String :=
  if c.violation?.isNone ∧ c.model.gpu = false ∧ c.model.size ≠ .small then
    ["No GPU configured (" ++ EnvVariable.gpuArchitecture.key
      ++ " unset), using the small model profile instead of " ++ c.model.size.title]
  else []

/-- All layers and the check. -/
def load (file : ConfigFile) (env : Environment) (overrides : ConfigOverrides) :
    Except ConfigError ServerConfig :=
  match file.load with
  | .error e => .error e
  | .ok fromFile =>
    match fromFile.applyEnvironment env with
    | (_, some e) => .error e
    | (fromEnv, none) =>
      let config := fromEnv.applyOverrides overrides
      match config.validate with
      | .error e => .error e
      | .ok () => .ok config

end ServerConfig

end ChatRelay
