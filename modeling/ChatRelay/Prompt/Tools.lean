import ChatRelay.Prompt.Grammar
import ChatRelay.Tools.CallSyntax

/-!
# Tools in a prompt

How each dialect describes the tools it may call, and how it writes the calls that the assistant has
made. The text of definitions and calls is literal; only the control tokens around it are not.
-/

namespace ChatRelay.Prompt

/-- The syntax in which a dialect writes calls. -/
def callSyntax : Dialect → CallSyntax
  | .gemma => .expression
  | .mistral => .json
  | .qwen => .json

/-! ### Definitions -/

/-- What the dialect with expressions is told before the stubs. -/
def stubsIntro : String := "\n".intercalate [
  "",
  "At each turn, if you decide to invoke any of the function(s), it should be wrapped with "
    ++ "```tool_code```. The python methods described below are available. The generated code "
    ++ "should be readable and efficient. The response to a method will be wrapped in "
    ++ "```tool_output``` use it to call more tools or generate a helpful, friendly response. "
    ++ "When using a ```tool_call``` think step by step why and how it should be used.",
  "",
  "You can make multiple tool calls within one ```tool_code``` block, just separate them with a "
    ++ "new line. This is the ONLY format that the tool call parser understands. Example:",
  "",
  "```tool_code",
  "allowedFunctionA(index=7, startDate=\"2024-01-01\")",
  "allowedFunctionB(arg1=0, arg2=10)",
  "```",
  "",
  "Tool calls WILL NOT be evaluated but only parsed, you MUST NEVER call ANY other python "
    ++ "methods or functions than the ones described below. Using any other function will break "
    ++ "the tool call parser.",
  "",
  "The following Python methods are available:",
  "",
  "```python",
  ""]

/-- What the dialect with expressions is told after the stubs. -/
def stubsOutro : String := "\n```\n"

/-- What stands before definitions that are given one a line. -/
def linesIntro : String :=
  "\n\n# Tools\n\nYou may call one or more functions to assist with the user query.\n\n"
    ++ "You are provided with function signatures within <tools></tools> XML tags:\n<tools>\n"

/-- What stands after definitions that are given one a line. -/
def linesOutro : String :=
  "</tools>\n\nFor each function call, return a json object with function name and arguments "
    ++ "within <tool_call></tool_call> XML tags:\n<tool_call>\n\x7b\"name\": <function-name>, "
    ++ "\"arguments\": <args-json-object>\x7d\n</tool_call>"

/-- The stub that describes a tool, if the tool is built in. -/
def stub? (t : ToolDefinition) : Option String :=
  (t.name.bind Catalog.lookup?).map Signature.stub

/-- The definitions block. A dialect with expressions is told of built-in functions only. -/
def toolDefinitions (tools : List ToolDefinition) : Dialect → List Segment
  | .gemma =>
    match tools.filterMap stub? with
    | [] => []
    | stubs => [.literal (stubsIntro ++ "\n".intercalate stubs ++ stubsOutro)]
  | .mistral =>
    if tools.isEmpty then []
    else [.control "[AVAILABLE_TOOLS]",
      .literal (String.ofList (Json.arrayText (tools.map ToolDefinition.write))),
      .control "[/AVAILABLE_TOOLS]"]
  | .qwen =>
    if tools.isEmpty then []
    else [.control linesIntro,
      .literal (String.ofList (['\n'].intercalate (tools.map ToolDefinition.write))),
      .control linesOutro]

/-! ### Calls -/

/-- The calls of an assistant's turn. -/
def toolCalls (calls : List ToolCall) : Dialect → List Segment
  | .gemma => [.literal (String.ofList (calls.flatMap fun call =>
      "```tool_code\n".toList ++ CallSyntax.expression.write call ++ "\n```\n".toList))]
  | .mistral => [.control "[TOOL_CALLS]",
      .literal (String.ofList (Json.arrayText (calls.map CallSyntax.json.write)))]
  | .qwen => calls.flatMap fun call => [.control "<tool_call>\n",
      .literal (String.ofList (CallSyntax.json.write call)), .control "\n</tool_call>\n"]

/-! ### Notices -/

/-- What there is to say about a prompt. -/
inductive Notice where
  | notBuiltIn (tool : Option String)
  | call (n : CallSyntax.Notice)
deriving DecidableEq

/-- The words for a notice. -/
def Notice.message : Notice → String
  | notBuiltIn tool =>
    "[PROMPT] Skipping tool " ++ Text.quote (tool.getD "<unnamed>") ++ ": not a built-in function"
  | call n => n.message

/-- What there is to say about the definitions block. -/
def definitionNotices (tools : List ToolDefinition) : Dialect → List Notice
  | .gemma => (tools.filter fun t => (stub? t).isNone).map fun t => .notBuiltIn t.name
  | .mistral | .qwen => []

/-- What there is to say about an assistant's calls. -/
def callNotices (calls : List ToolCall) (d : Dialect) : List Notice :=
  (calls.flatMap (callSyntax d).writeNotices).map .call

end ChatRelay.Prompt
