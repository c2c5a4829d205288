import ChatRelay.Config.Layers

/-!
# The command line

Options that name a configuration file and override its settings. Each takes a value, which follows
it as the next word or after an equals sign. An option given twice counts as it was given last.
-/

namespace ChatRelay.CommandLine

/-- Why a command line cannot be read. -/
inductive UsageError where
  | unknown (word : String)
  | missing (option : String)
  | badSetting (option value : String) (cause : SettingError)
  | badCount (option value : String) (cause : IntegerError)
deriving DecidableEq, Repr

/-- The words for a command line that cannot be read. -/
def UsageError.message : UsageError → String
  | unknown word => "unexpected argument " ++ Text.quote word
  | missing option => "a value is required for " ++ option
  | badSetting option value cause =>
    "invalid value " ++ Text.quote value ++ " for " ++ option ++ ": " ++ cause.message
  | badCount option value cause =>
    "invalid value " ++ Text.quote value ++ " for " ++ option ++ ": " ++ cause.message

/-- What a command line asks for. -/
structure Options where
  configFile : Option String := none
  overrides : ConfigOverrides := {}
deriving DecidableEq, Repr

/-- Reads a count for an option. -/
def count (high : Nat) (option value : String) : Except UsageError Nat :=
  match Integer.parse 0 high value.toList with
  | .ok n => .ok n.toNat
  | .error e => .error (.badCount option value e)

/-- Sets what an option sets; nothing for a word that is no option. -/
def set? (o : Options) (option value : String) : Option (Except UsageError Options) :=
  let setting (overrides : ConfigOverrides) : Options := { o with overrides }
  match option with
  | "--config" => some (.ok { o with configFile := some value })
  | "--host" => some (.ok (setting { o.overrides with host := some value }))
  | "--port" => some do
    let n ← count ServerConfig.maxPort option value
    .ok (setting { o.overrides with port := some n })
  | "--dialect" => some <|
    match Dialect.parse value with
    | .ok d => .ok (setting { o.overrides with dialect := some d })
    | .error e => .error (.badSetting option value (.dialect e))
  | "--max-tokens" => some do
    let n ← count ServerConfig.maxCount option value
    .ok (setting { o.overrides with maxTokens := some n })
  | "--log-dir" => some (.ok (setting { o.overrides with logDir := some value }))
  | "--log-level" => some (.ok (setting { o.overrides with logLevel := some value }))
  | "--model-path" => some (.ok (setting { o.overrides with modelPath := some value }))
  | "--model-size" => some <|
    match ModelSize.parse value with
    | .ok s => .ok (setting { o.overrides with modelSize := some s })
    | .error e => .error (.badSetting option value (.size e))
  | _ => none

/-- Whether a word is an option. -/
def isOption (word : String) : Bool :=
  (set? {} word "").isSome

/-- Sets what an option sets, or refuses the word. -/
def set (o : Options) (option value : String) : Except UsageError Options :=
  (set? o option value).getD (.error (.unknown option))

/-- Reads the words of a command line. -/
def readWords : Options → List String → Except UsageError Options
  | o, [] => .ok o
  | o, word :: rest =>
    match Text.splitOnce '=' word.toList with
    | some (option, value) => do
      let o ← set o (String.ofList option) (String.ofList value)
      readWords o rest
    | none =>
      if !isOption word then .error (.unknown word)
      else
        match rest with
        | [] => .error (.missing word)
        | value :: rest => do
          let o ← set o word value
          readWords o rest

/-- Reads a command line. -/
def parse (words : List String) : Except UsageError Options :=
  readWords {} words

end ChatRelay.CommandLine
