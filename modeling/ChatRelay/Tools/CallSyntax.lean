import ChatRelay.Tools.ExpressionSyntax
import ChatRelay.Tools.JsonSyntax

/-!
# The two call syntaxes

What both syntaxes offer: reading all calls in a text, where what cannot be read is dropped with a
notice and a text without any call is an error that carries the text, and writing one call the way
the model would have written it.
-/

namespace ChatRelay

/-- How a model writes its calls. -/
inductive CallSyntax where
  | expression
  | json
deriving DecidableEq, Repr

namespace CallSyntax

/-- What there is to say about calls read or written. -/
inductive Notice where
  | droppedLine (line : List Char) (fault : ExpressionSyntax.LineFault)
  | droppedCall (fault : JsonSyntax.Fault)
  | written (n : ExpressionSyntax.Notice)
deriving DecidableEq

/-- The words for a notice. -/
def Notice.message : Notice → String
  | droppedLine line fault =>
    String.ofList ("[TOOLS] Dropping tool call ".toList ++ Text.quoted line ++ [':', ' '])
      ++ fault.message line
  | droppedCall fault => "[TOOLS] Dropping tool call: " ++ fault.message
  | written n => n.message

/-- A text in which no call could be read. -/
structure NoCall where
  text : String
deriving DecidableEq, Repr

/-- The words for a text without a call. -/
def NoCall.message (e : NoCall) : String :=
  "Invalid tool call: " ++ e.text

/-- What each piece of a text was read as: a call, or the notice that it was dropped. -/
def readings (whitelist : Whitelist) (text : List Char) :
    CallSyntax → List (Except Notice ToolCall)
  | expression => (ExpressionSyntax.readLines text).map fun r => r.2.mapError (.droppedLine r.1)
  | json => (JsonSyntax.readAll whitelist text).map (·.mapError .droppedCall)

/-- The call of a reading, if it is one. -/
def call? : Except Notice ToolCall → Option ToolCall
  | .ok call => some call
  | .error _ => none

/-- The notice of a reading, if it was dropped. -/
def notice? : Except Notice ToolCall → Option Notice
  | .ok _ => none
  | .error n => some n

/-- The calls in a text. -/
def parse (s : CallSyntax) (whitelist : Whitelist) (text : List Char) :
    Except NoCall (List ToolCall) :=
  match (s.readings whitelist text).filterMap call? with
  | [] => .error ⟨String.ofList text⟩
  | calls => .ok calls

/-- What was dropped from a text. -/
def dropped (s : CallSyntax) (whitelist : Whitelist) (text : List Char) : List Notice :=
  (s.readings whitelist text).filterMap notice?

/-- A call as the model would have written it. -/
def write : CallSyntax → ToolCall → List Char
  | expression, call => ExpressionSyntax.write call
  | json, call => JsonSyntax.write call

/-- What there is to say about writing a call. -/
def writeNotices : CallSyntax → ToolCall → List Notice
  | expression, call => (ExpressionSyntax.notices call).map .written
  | json, _ => []

end CallSyntax

end ChatRelay
