import ChatRelay.Codec.Basic
import ChatRelay.Prompt.Tools

/-!
# From a conversation to a prompt

`segments` renders a conversation by the dialect's grammar, in merged form and ending with the
opened turn of the assistant. A conversation is refused if it does not start as the dialect demands,
and otherwise at the first message that has no place in it. `tokens` tokenizes the segments one by
one, with special parsing for control text only, so no content can spell a control token.
-/

namespace ChatRelay.Prompt

/-- Why a conversation has no prompt. -/
inductive Invalid where
  | noMessages
  | firstNotSystem
  | secondNotUser
  | lateSystem
  | badToolResults (content : String)
deriving DecidableEq, Repr

/-- The words for a conversation without a prompt. -/
def Invalid.message : Invalid → String
  | noMessages => "No messages provided"
  | firstNotSystem => "First message must be a system message"
  | secondNotUser => "Second message must be a user message"
  | lateSystem => "Only the first message may be a system message"
  | badToolResults content => "Invalid tool results: " ++ content

/-! ### Messages -/

/-- The results in a tool message: a list of at least one object or, where the dialect allows it, a
single object. -/
def toolResults? (g : Grammar) (content : String) : Option (List Json) :=
  match Json.parse? content.toList with
  | some (.arr items) => if !items.isEmpty && items.all Json.isObject then some items else none
  | some (.obj members) => if g.resultsMustBeList then none else some [.obj members]
  | _ => none

/-- The body of an assistant's turn: the content, then the calls on a line of their own. -/
def assistantBody (d : Dialect) (m : Message) : List Segment :=
  let calls := m.toolCalls.getD []
  -- No blank line: an empty content, or one that ends its line, needs no newline.
  let newline :=
    if m.content = "" ∨ m.content.toList.getLast? = some '\n' then [] else [.literal "\n"]
  .literal m.content :: if calls.isEmpty then [] else newline ++ toolCalls calls d

/-- The results of a tool message in their frames. -/
def toolTurn (g : Grammar) (results : List Json) : List Segment :=
  let framed := results.flatMap fun r => g.toolResult.around [.literal r.compact] []
  match g.toolTurn with
  | none => framed
  | some turn => turn.openSegment :: framed ++ [turn.closeSegment]

/-- A message after the first, in its frame. -/
def turn (d : Dialect) (m : Message) : Except Invalid (List Segment) :=
  match m.role with
  | .system => .error .lateSystem
  | .user => .ok (d.grammar.user.around [.literal m.content] [])
  | .assistant => .ok (d.grammar.assistant.around (assistantBody d m) [])
  | .tool =>
    match toolResults? d.grammar m.content with
    | some results => .ok (toolTurn d.grammar results)
    | none => .error (.badToolResults m.content)

/-- The messages after the first, up to the first that has no place. -/
def turns (d : Dialect) : List Message → Except Invalid (List Segment)
  | [] => .ok []
  | m :: rest => do
    let first ← turn d m
    let others ← turns d rest
    .ok (first ++ others)

/-! ### Conversations -/

/-- The system message and the others, if the conversation starts as it has to. -/
def opening (d : Dialect) : List Message → Except Invalid (Message × List Message)
  | [] => .error .noMessages
  | first :: rest =>
    if first.role ≠ .system then .error .firstNotSystem
    else if d.grammar.secondMustBeUser ∧ rest.head?.map Message.role ≠ some .user then
      .error .secondNotUser
    else .ok (first, rest)

/-- The system turn, with the tool definitions inside it or after it. -/
def systemTurn (d : Dialect) (first : Message) (tools : List ToolDefinition) : List Segment :=
  let g := d.grammar
  let definitions := toolDefinitions tools d
  match g.toolsPlacement with
  | .insideSystem =>
    g.system.around [.literal first.content] definitions ++ [.control g.afterSystem]
  | .afterSystem =>
    g.system.around [.literal first.content] [] ++ .control g.afterSystem :: definitions

/-- The prompt before merging. -/
def unmerged (d : Dialect) (messages : List Message) (tools : List ToolDefinition) :
    Except Invalid (List Segment) := do
  let (first, rest) ← opening d messages
  let others ← turns d rest
  .ok (.control d.grammar.start :: systemTurn d first tools ++ others
    ++ [.control d.grammar.generationPrompt])

/-- The prompt of a conversation. -/
def segments (d : Dialect) (messages : List Message) (tools : List ToolDefinition) :
    Except Invalid (List Segment) :=
  (unmerged d messages tools).map Segment.merge

/-- A prompt is merged from its parts, and has parts unless the conversation is refused. -/
theorem segments_eq_ok_iff {d : Dialect} {messages : List Message} {tools : List ToolDefinition}
    {merged : List Segment} :
    segments d messages tools = .ok merged ↔
      ∃ parts, unmerged d messages tools = .ok parts ∧ Segment.merge parts = merged := by
  rw [segments]
  cases unmerged d messages tools with
  | error e => simp [Except.map]
  | ok parts => simp [Except.map]

/-- What there is to say about a prompt: first of the definitions, then of the messages up to the
first that has no place. -/
def notices (d : Dialect) (messages : List Message) (tools : List ToolDefinition) : List Notice :=
  match opening d messages with
  | .error _ => []
  | .ok (_, rest) =>
    definitionNotices tools d
      ++ (rest.takeWhile fun m => (turn d m).isOk).flatMap fun m =>
        if m.role = .assistant then callNotices (m.toolCalls.getD []) d else []

/-! ### Tokens -/

/-- Why a conversation has no prompt tokens. -/
inductive Failure where
  | invalid (e : Invalid)
  | engine (e : EngineError)
deriving DecidableEq, Repr

/-- The tokens of segments, each tokenized by itself. -/
def segmentTokens (c : TokenCodec) : List Segment → Except EngineError (List TokenId)
  | [] => .ok []
  | s :: rest => do
    let ids ← c.tokenize (Utf8.encode s.text) s.isControl
    let others ← segmentTokens c rest
    .ok (ids ++ others)

/-- The prompt tokens of a conversation. -/
def tokens (d : Dialect) (c : TokenCodec) (messages : List Message)
    (tools : List ToolDefinition) : Except Failure (List TokenId) :=
  match segments d messages tools with
  | .error e => .error (.invalid e)
  | .ok segments => (segmentTokens c segments).mapError .engine

end ChatRelay.Prompt
