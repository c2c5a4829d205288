import ChatRelay.Tools.Binding

/-!
# Calls as expressions, one a line

How a model that writes expressions writes its calls: each on a line of its own, and only to
built-in functions. A line that is no such call is dropped, and the reason is kept. Written out, a
call names all its arguments, in the order of the signature.
-/

namespace ChatRelay.ExpressionSyntax

/-! ### Reading -/

/-- Why a line is no call. -/
inductive LineFault where
  | grammar (fault : CallExpr.Fault)
  | unknownFunction (name : String)
  | binding (e : BindError)
deriving DecidableEq, Repr

/-- The words for a line that is no call. -/
def LineFault.message (line : List Char) : LineFault → String
  | grammar fault => fault.message line
  | unknownFunction name => name ++ " is not a known function"
  | binding e => e.message

/-- The call on a line. -/
def readLine (line : List Char) : Except LineFault ToolCall :=
  match CallExpr.parse line with
  | .error fault => .error (.grammar fault)
  | .ok e =>
    match Catalog.lookup? e.name with
    | none => .error (.unknownFunction e.name)
    | some s => (s.bind e).mapError .binding

/-- Each line with what it was read as. -/
def readLines (text : List Char) : List (List Char × Except LineFault ToolCall) :=
  (Text.contentLines text).map fun line => (line, readLine line)

/-! ### Writing -/

/-- One character between quotes. -/
def escapedChar (c : Char) : List Char :=
  if c = '"' then ['\\', '"']
  else if c = '\\' then ['\\', '\\']
  else if c = '\n' then ['\\', 'n']
  else if c = '\t' then ['\\', 't']
  else [c]

/-- A string in quotes. -/
def quotedText (cs : List Char) : List Char :=
  '"' :: cs.flatMap escapedChar ++ ['"']

/-- The text of an argument's value: a string in quotes, anything else as JSON. -/
def valueText : Json → List Char
  | .str s => quotedText s.toList
  | v => Json.write v

/-- An argument with its name. -/
def argumentText (name : String) (value : Json) : List Char :=
  name.toList ++ '=' :: valueText value

/-- What is left out of or guessed at in a call that does not fit. -/
inductive Notice where
  | notSet (param function : String)
  | unexpected (key function : String)
  | unknownFunction (name : String)
deriving DecidableEq, Repr

/-- The words for a notice. -/
def Notice.message : Notice → String
  | notSet param function => "[TOOLS] " ++ param ++ " is not set for tool call " ++ function
  | unexpected key function =>
    "[TOOLS] Ignoring unexpected argument " ++ key ++ " for tool call " ++ function
  | unknownFunction name => "[TOOLS] Unknown tool call " ++ name ++ ", formatting best-effort"

/-- The arguments that a call is written with: those of the signature in its order, or all of them
if the function is not built in. -/
def writtenArguments (call : ToolCall) : List (String × Json) :=
  match Catalog.lookup? call.name with
  | some s => s.params.filterMap fun p => (call.arguments.lookup p.name).map (p.name, ·)
  | none => call.arguments

/-- A call as an expression. -/
def write (call : ToolCall) : List Char :=
  call.name.toList ++ '(' ::
    [',', ' '].intercalate ((writtenArguments call).map fun a => argumentText a.1 a.2) ++ [')']

/-- What there is to say about writing a call. -/
def notices (call : ToolCall) : List Notice :=
  match Catalog.lookup? call.name with
  | some s =>
    (s.params.filter fun p => (call.arguments.lookup p.name).isNone).map
        (fun p => .notSet p.name call.name)
      ++ (call.arguments.filter fun a => (s.param? a.1).isNone).map
        (fun a => .unexpected a.1 call.name)
  | none => [.unknownFunction call.name]

end ChatRelay.ExpressionSyntax
