import ChatRelay.Config.CommandLine
import ChatRelay.Http.Relay

/-!
# The program

Loads the configuration and then answers requests for a reply, one JSON body a line, with the lines
of the reply. No inference engine is built in: the engine here gives one canned reply.
-/

namespace ChatRelay.Program

/-- The reply of the engine that is built in. -/
def cannedReply : String := "Hello! This reply comes from the built-in mock engine."

/-- Reads the configuration file that was asked for. -/
def readFile (path : Option String) : IO ConfigFile := do
  match path with
  | none => return .notGiven
  | some path =>
    match ← (IO.FS.readBinFile path).toBaseIO with
    | .ok bytes => return .content bytes.toList
    | .error _ => return .missing

/-- Reads the environment variables that set something. -/
def readEnvironment : IO Environment := do
  let values ← EnvVariable.all.mapM fun v => do return (v.key, ← IO.getEnv v.key)
  return fun key => (values.lookup key).join

/-- Answers a body; the answer to one that is no request is the body of its response. -/
def answer (r : Registry) (body : List UInt8) : String × List SessionNotice × Registry :=
  match Http.readRequest? body with
  | .error response => (response.body ++ "\n", [], r)
  | .ok request =>
    let run := r.run request .none
    (String.join (run.received.map StreamEvent.line), run.notices, run.registry)

/-- Answers lines until the input ends. -/
partial def serve (r : Registry) (input output : IO.FS.Stream) : IO Unit := do
  let line ← input.getLine
  if line.isEmpty then return ()
  let (text, notices, r) := answer r (Utf8.encode line)
  for notice in notices do IO.eprintln notice.message
  output.putStr text
  output.flush
  serve r input output

/-- Loads the configuration that the words ask for. -/
def load (words : List String) : IO (Except String ServerConfig) := do
  match CommandLine.parse words with
  | .error e => return .error e.message
  | .ok options =>
    let file ← readFile (options.configFile.or (← IO.getEnv "LLAMA_STREAM_CONFIG"))
    let env ← readEnvironment
    return (ServerConfig.load file env options.overrides).mapError fun e =>
      "Failed to load configuration: " ++ e.message.getD "the file cannot be read"

end ChatRelay.Program

open ChatRelay in
/-- Runs the program; a configuration that cannot be served ends it with status 1. -/
def main (words : List String) : IO UInt32 := do
  match ← Program.load words with
  | .error message =>
    IO.eprintln message
    return 1
  | .ok config =>
    match Registry.canned config.dialect Program.cannedReply config.maxTokens with
    | .error e =>
      IO.eprintln e.message
      return 1
    | .ok registry =>
      for notice in config.notices do IO.eprintln notice
      Program.serve registry (← IO.getStdin) (← IO.getStdout)
      return 0
