import ChatRelay.Chat.Dialect
import ChatRelay.Prompt.Segment
import ChatRelay.Text.Integer

/-!
# Chat grammars

What is fixed about a dialect's chat format: the delimiters of each kind of turn, where tool
definitions go, how the model marks tool calls in its replies, and how it is sampled. All of it is
data; what differs in shape between the dialects is under `Prompt.Tools`.
-/

namespace ChatRelay

/-! ### Frames -/

/-- What stands between the body of a turn and its closing delimiter. -/
inductive NewlineRule where
  /-- Nothing. -/
  | none
  /-- A line feed. -/
  | always
  /-- A line feed, unless the body ends with one. -/
  | ensure
deriving DecidableEq, Repr

/-- The delimiters around a body, and whether they are control text. -/
structure Frame where
  opening : String
  closing : String
  newline : NewlineRule
  isControl : Bool
deriving DecidableEq, Repr

namespace Frame

/-- Control delimiters with nothing before the closing one. -/
def control (opening closing : String) : Frame := ⟨opening, closing, .none, true⟩

/-- The frame with another newline rule. -/
def withNewline (f : Frame) (rule : NewlineRule) : Frame := { f with newline := rule }

/-- The frame with literal delimiters. -/
def asLiteral (f : Frame) : Frame := { f with isControl := false }

/-- The opening delimiter. -/
def openSegment (f : Frame) : Segment := ⟨f.isControl, f.opening⟩

/-- The closing delimiter. -/
def closeSegment (f : Frame) : Segment := ⟨f.isControl, f.closing⟩

/-- The line feed that a body needs under a rule. -/
def newlineAfter (body : List Segment) : NewlineRule → List Segment
  | .none => []
  | .always => [.literal "\n"]
  | .ensure =>
    if (Segment.flatten body).toList.getLast? = some '\n' then [] else [.literal "\n"]

/-- A body in its frame; the trailer stands after the newline. -/
def around (f : Frame) (body trailer : List Segment) : List Segment :=
  f.openSegment :: body ++ newlineAfter body f.newline ++ trailer ++ [f.closeSegment]

end Frame

/-! ### Grammars -/

/-- Where tool definitions go. -/
inductive ToolsPlacement where
  /-- Inside the system turn, after its content. -/
  | insideSystem
  /-- After the system turn. -/
  | afterSystem
deriving DecidableEq, Repr

/-- How the model marks a region of tool calls in a reply. -/
inductive ToolFraming where
  /-- By control tokens. Without a closing one the region lasts to the end of the reply. -/
  | tokens (opening : String) (closing : Option String)
  /-- By markers in plain text. -/
  | markers (opening closing : String)
deriving DecidableEq, Repr

/-- A number of hundredths. -/
structure Hundredths where
  count : Nat
deriving DecidableEq, Repr

/-- The number in decimal, without zeros at the end. -/
def Hundredths.text (h : Hundredths) : String :=
  let fraction :=
    if h.count % 100 = 0 then []
    else if h.count % 10 = 0 then '.' :: Integer.digits (h.count % 100 / 10)
    else ['.', Nat.digitChar (h.count % 100 / 10), Nat.digitChar (h.count % 10)]
  String.ofList (Integer.digits (h.count / 100) ++ fraction)

/-- How the engine samples. -/
structure Sampling where
  topK : Nat
  topP : Hundredths
  minP : Option Hundredths
  temperature : Hundredths
  repeatPenalty : Hundredths
deriving DecidableEq, Repr

/-- The fixed part of a dialect's chat format. -/
structure Grammar where
  /-- Control text at the start of every prompt. -/
  start : String
  system : Frame
  /-- Control text after the system turn. -/
  afterSystem : String
  toolsPlacement : ToolsPlacement
  user : Frame
  assistant : Frame
  /-- Around all results of one tool message. -/
  toolTurn : Option Frame
  /-- Around one result. -/
  toolResult : Frame
  /-- Whether a single result has to be in a list too. -/
  resultsMustBeList : Bool
  secondMustBeUser : Bool
  /-- Opens the turn that the model is to complete. -/
  generationPrompt : String
  endOfTurn : String
  /-- Every control token that the format uses. -/
  controlTokens : List String
  toolFraming : ToolFraming
  sampling : Sampling
deriving DecidableEq, Repr

namespace Grammar

/-- Turns in angle brackets with a line feed; no system role, so the instructions stand in a user
turn that the model has already answered. Calls are expressions between text markers. -/
def gemma : Grammar where
  start := "<bos>"
  system := (Frame.control "<start_of_turn>user\n" "<end_of_turn>\n").withNewline .always
  afterSystem := "<start_of_turn>model\nI understand.\n<end_of_turn>\n"
  toolsPlacement := .insideSystem
  user := Frame.control "<start_of_turn>user\n" "<end_of_turn>\n"
  assistant := (Frame.control "<start_of_turn>model\n" "<end_of_turn>\n").withNewline .ensure
  toolTurn := some (Frame.control "<start_of_turn>user\n" "\n<end_of_turn>\n")
  toolResult := ((Frame.control "```tool_output\n" "```\n").withNewline .ensure).asLiteral
  resultsMustBeList := true
  secondMustBeUser := true
  generationPrompt := "<start_of_turn>model\n"
  endOfTurn := "<end_of_turn>"
  controlTokens := ["<bos>", "<eos>", "<start_of_turn>", "<end_of_turn>"]
  toolFraming := .markers "```tool_code\n" "\n```"
  sampling := ⟨64, ⟨95⟩, some ⟨1⟩, ⟨100⟩, ⟨100⟩⟩

/-- Turns in square brackets. The assistant's turn has no opening delimiter, and a region of calls
has no closing one. -/
def mistral : Grammar where
  start := "<s>"
  system := Frame.control "[SYSTEM_PROMPT]" "[/SYSTEM_PROMPT]"
  afterSystem := ""
  toolsPlacement := .afterSystem
  user := Frame.control "[INST]" "[/INST]"
  assistant := Frame.control "" "</s>"
  toolTurn := none
  toolResult := Frame.control "[TOOL_RESULTS]" "[/TOOL_RESULTS]"
  resultsMustBeList := false
  secondMustBeUser := false
  generationPrompt := ""
  endOfTurn := "</s>"
  controlTokens := ["<s>", "</s>", "[SYSTEM_PROMPT]", "[/SYSTEM_PROMPT]", "[AVAILABLE_TOOLS]",
    "[/AVAILABLE_TOOLS]", "[INST]", "[/INST]", "[TOOL_CALLS]", "[TOOL_RESULTS]", "[/TOOL_RESULTS]"]
  toolFraming := .tokens "[TOOL_CALLS]" none
  sampling := ⟨40, ⟨95⟩, none, ⟨15⟩, ⟨100⟩⟩

/-- Turns that open with a role and a line feed. Each call stands between two control tokens. -/
def qwen : Grammar where
  start := ""
  system := Frame.control "<|im_start|>system\n" "<|im_end|>\n"
  afterSystem := ""
  toolsPlacement := .insideSystem
  user := Frame.control "<|im_start|>user\n" "<|im_end|>\n"
  assistant := Frame.control "<|im_start|>assistant\n" "<|im_end|>\n"
  toolTurn := some (Frame.control "<|im_start|>user\n" "<|im_end|>\n")
  toolResult := Frame.control "<tool_response>\n" "\n</tool_response>\n"
  resultsMustBeList := false
  secondMustBeUser := false
  generationPrompt := "<|im_start|>assistant\n"
  endOfTurn := "<|im_end|>"
  controlTokens := ["<|endoftext|>", "<|im_start|>", "<|im_end|>", "<tool_call>", "</tool_call>",
    "<tool_response>", "</tool_response>"]
  toolFraming := .tokens "<tool_call>" (some "</tool_call>")
  sampling := ⟨40, ⟨95⟩, none, ⟨15⟩, ⟨100⟩⟩

end Grammar

/-- The chat grammar of a dialect. -/
def Dialect.grammar : Dialect → Grammar
  | gemma => .gemma
  | mistral => .mistral
  | qwen => .qwen

end ChatRelay
