import ChatRelay.Text.Utf8
import ChatRelay.Text.Blank
import ChatRelay.Text.Quoted
import ChatRelay.Text.Base64
import ChatRelay.Text.Integer
import ChatRelay.Decimal.Notation
import ChatRelay.Json.Text
import ChatRelay.Json.Numeral
import ChatRelay.Json.Record
import ChatRelay.Chat.Dialect
import ChatRelay.Chat.Message
import ChatRelay.Chat.Event
import ChatRelay.Tools.Whitelist
import ChatRelay.Tools.Binding
import ChatRelay.Tools.CallSyntax
import ChatRelay.Codec.Vocabulary
import ChatRelay.Codec.Faults
import ChatRelay.Prompt.Render
import ChatRelay.Stream.Classifier
import ChatRelay.Session.Cancellation
import ChatRelay.Session.Client
import ChatRelay.Session.Queue
import ChatRelay.Config.Layers
import ChatRelay.Http.Relay
import ChatRelay.Main
import ChatRelay.Proofs.Text.Decoding
import ChatRelay.Proofs.Text.Lines
import ChatRelay.Proofs.Json.Members
import ChatRelay.Proofs.Json.RoundTrip
import ChatRelay.Proofs.Tools.Expressions
import ChatRelay.Proofs.Tools.JsonCalls
import ChatRelay.Proofs.Tools.Binding
import ChatRelay.Proofs.Tools.CallGrammar
import ChatRelay.Proofs.Tools.Rereading
import ChatRelay.Proofs.Tools.Arguments
import ChatRelay.Proofs.Tools.CallLines
import ChatRelay.Proofs.Tools.Batches
import ChatRelay.Proofs.Codec.Tokenizing
import ChatRelay.Proofs.Stream.Frames
import ChatRelay.Proofs.Stream.Replies
import ChatRelay.Proofs.Stream.ByteRuns
import ChatRelay.Proofs.Prompt.CallsReadBack
import ChatRelay.Proofs.Prompt.Skeleton
import ChatRelay.Proofs.Prompt.Sayings
import ChatRelay.Proofs.Session.Accounts
import ChatRelay.Proofs.Session.Lifecycle
import ChatRelay.Proofs.Session.Interrupted
import ChatRelay.Proofs.Stream.ToolEvents
import ChatRelay.Proofs.Stream.Gathering
import ChatRelay.Proofs.Session.Schedule
import ChatRelay.Proofs.Session.Shutdown
import ChatRelay.Proofs.Stream.Reachable
import ChatRelay.Proofs.Http.EventBody
import ChatRelay.Proofs.Session.Departing
import ChatRelay.Proofs.Session.EndOfTurn
import ChatRelay.Proofs.Session.Sequences
import ChatRelay.Proofs.Session.Line
import ChatRelay.Proofs.Session.Delivery
import ChatRelay.Proofs.Session.Progress
import ChatRelay.Proofs.Http.Gate
import ChatRelay.Proofs.Codec.Lossless
import ChatRelay.Proofs.Prompt.Rendering
import ChatRelay.Proofs.Stream.Skipping
import ChatRelay.Proofs.Codec.Searching
import ChatRelay.Proofs.Stream.SettingUp
import ChatRelay.Proofs.Prompt.Acceptance
import ChatRelay.Proofs.Session.Refusal
import ChatRelay.Proofs.Prompt.Growth
import ChatRelay.Proofs.Prompt.Merging
import ChatRelay.Proofs.Http.Credentials
import ChatRelay.Proofs.Config.Precedence
import ChatRelay.Proofs.Chat.Requests
