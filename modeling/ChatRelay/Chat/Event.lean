import ChatRelay.Json.Record
import ChatRelay.Json.Text

/-!
# Stream events

What a reply is made of when it reaches the client: pieces of text, control tokens, tool calls and
errors, each one line of JSON.
-/

namespace ChatRelay

/-- One piece of a reply. The events made here carry at most one of the three marks. -/
structure StreamEvent where
  text : String
  special : Bool
  tool : Bool
  error : Bool
deriving DecidableEq, Repr

namespace StreamEvent

/-- A piece of text. -/
def plain (text : String) : StreamEvent := ⟨text, false, false, false⟩

/-- A control token that the relay has no use for itself. -/
def control (text : String) : StreamEvent := ⟨text, true, false, false⟩

/-- Tool calls: a JSON array of calls, or the raw text in which none could be read. -/
def toolCalls (text : String) : StreamEvent := ⟨text, false, true, false⟩

/-- The end of a reply that failed. -/
def failure (message : String) : StreamEvent := ⟨"Error: " ++ message, false, false, true⟩

/-- An event as JSON. -/
def write (e : StreamEvent) : List Char :=
  Json.recordText [("text", Json.stringText e.text.toList), ("is_special", Json.boolText e.special),
    ("is_tool", Json.boolText e.tool), ("is_error", Json.boolText e.error)]

/-- An event as one line. -/
def line (e : StreamEvent) : String :=
  String.ofList (e.write ++ ['\n'])

/-- Reads an event; all fields are required. -/
def read? : Json.Tree.Reader StreamEvent :=
  Json.Tree.record? ["text", "is_special", "is_tool", "is_error"] fun depth field => do
    let text ← Json.Tree.required (Json.Tree.string? depth) (field "text")
    let special ← Json.Tree.required (Json.Tree.bool? depth) (field "is_special")
    let tool ← Json.Tree.required (Json.Tree.bool? depth) (field "is_tool")
    let error ← Json.Tree.required (Json.Tree.bool? depth) (field "is_error")
    some ⟨text, special, tool, error⟩

/-- Reads the text of an event. -/
def parse? (cs : List Char) : Option StreamEvent :=
  (Json.Tree.ofChars? cs).bind (read? Json.Tree.depthLimit)

end StreamEvent

end ChatRelay
