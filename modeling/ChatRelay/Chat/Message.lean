import ChatRelay.Json.Record
import ChatRelay.Json.Text

/-!
# Conversations

The messages of a conversation, the tools a model may call, and the request that carries both. The
JSON form of each record lists its fields in one fixed order and leaves out what is absent; reading
takes the fields in any order, fills in the defaults, and takes null for absence where absence is
allowed.
-/

namespace ChatRelay

/-- Who says a message. -/
inductive Role where
  | system
  | user
  | assistant
  | tool
deriving DecidableEq, Repr

/-- A function call: a name and arguments by name. -/
structure ToolCall where
  name : String
  arguments : List (String × Json)
deriving DecidableEq

/-- A message. The calls belong to assistant messages; the content of a tool message is JSON. -/
structure Message where
  role : Role
  content : String
  toolCalls : Option (List ToolCall)
deriving DecidableEq

/-- A tool as its caller declares it: any JSON value. -/
structure ToolDefinition where
  value : Json
deriving DecidableEq

/-- A request for a reply to a conversation. -/
structure GenerateRequest where
  messages : List Message
  declaredTools : Option (List ToolDefinition)
deriving DecidableEq

/-! ### Roles -/

namespace Role

/-- All roles. -/
def all : List Role := [system, user, assistant, tool]

/-- The name in JSON. -/
def name : Role → String
  | system => "system"
  | user => "user"
  | assistant => "assistant"
  | tool => "tool"

/-- Reads the exact name in JSON. -/
def read? : Json.Tree.Reader Role :=
  Json.Tree.oneOf? all name

/-- The name as JSON. -/
def write (r : Role) : List Char :=
  Json.stringText r.name.toList

end Role

/-! ### Tool calls -/

namespace ToolCall

/-- A call with these arguments, of which the last of several with one name counts. -/
def ofArguments (name : String) (arguments : List (String × Json)) : ToolCall :=
  ⟨name, Json.ofMembers arguments⟩

/-- Reads a call; the arguments may be left out. -/
def read? : Json.Tree.Reader ToolCall :=
  Json.Tree.record? ["name", "arguments"] fun depth field => do
    let name ← Json.Tree.required (Json.Tree.string? depth) (field "name")
    let arguments ← Json.Tree.withDefault [] (Json.Tree.members? depth) (field "arguments")
    some ⟨name, arguments⟩

/-- A call as JSON. -/
def write (c : ToolCall) : List Char :=
  Json.recordText [("name", Json.stringText c.name.toList),
    ("arguments", Json.write (.obj c.arguments))]

/-- A list of calls as JSON: the form in which calls are handed on. -/
def writeAll (calls : List ToolCall) : List Char :=
  Json.arrayText (calls.map write)

end ToolCall

/-! ### Messages -/

namespace Message

/-- A message without calls. -/
def plain (role : Role) (content : String) : Message :=
  ⟨role, content, none⟩

/-- The message with these calls. -/
def withToolCalls (m : Message) (calls : List ToolCall) : Message :=
  { m with toolCalls := some calls }

/-- Reads a message; only the role is required. -/
def read? : Json.Tree.Reader Message :=
  Json.Tree.record? ["role", "content", "tool_calls"] fun depth field => do
    let role ← Json.Tree.required (Role.read? depth) (field "role")
    let content ← Json.Tree.withDefault "" (Json.Tree.string? depth) (field "content")
    let calls ← Json.Tree.optional (Json.Tree.list? ToolCall.read? depth) (field "tool_calls")
    some ⟨role, content, calls⟩

/-- A message as JSON. -/
def write (m : Message) : List Char :=
  Json.recordText <|
    [("role", m.role.write), ("content", Json.stringText m.content.toList)]
      ++ match m.toolCalls with
        | none => []
        | some calls => [("tool_calls", ToolCall.writeAll calls)]

end Message

/-! ### Tool definitions -/

namespace ToolDefinition

/-- The declared name: that of the wrapped function if it has one, else that of the definition;
nothing if it is not a string. -/
def name (t : ToolDefinition) : Option String :=
  let nested := (t.value.get? "function").bind (Json.get? "name")
  (nested.or (t.value.get? "name")).bind Json.string?

/-- Reads a definition. -/
def read? : Json.Tree.Reader ToolDefinition := fun depth t =>
  (t.json? depth).map ToolDefinition.mk

/-- A definition as JSON. -/
def write (t : ToolDefinition) : List Char :=
  Json.write t.value

end ToolDefinition

/-! ### Requests -/

namespace GenerateRequest

/-- The declared tools; none if the list is missing. -/
def tools (r : GenerateRequest) : List ToolDefinition :=
  r.declaredTools.getD []

/-- Reads a request; both fields may be left out. -/
def read? : Json.Tree.Reader GenerateRequest :=
  Json.Tree.record? ["messages", "tools"] fun depth field => do
    let messages ←
      Json.Tree.withDefault [] (Json.Tree.list? Message.read? depth) (field "messages")
    let tools ← Json.Tree.optional (Json.Tree.list? ToolDefinition.read? depth) (field "tools")
    some ⟨messages, tools⟩

/-- A request as JSON. -/
def write (r : GenerateRequest) : List Char :=
  Json.recordText <|
    [("messages", Json.arrayText (r.messages.map Message.write))]
      ++ match r.declaredTools with
        | none => []
        | some tools => [("tools", Json.arrayText (tools.map ToolDefinition.write))]

/-- Reads the text of a request. -/
def parse? (s : Json.Input) : Option GenerateRequest :=
  (Json.Tree.read? s).bind (read? Json.Tree.depthLimit)

end GenerateRequest

end ChatRelay
