import ChatRelay.Tools.Whitelist
import ChatRelay.Text.Blank
import ChatRelay.Text.Quoted

/-!
# Calls as JSON

How a model that writes JSON writes its calls: one object, an array of objects, or one object a
line. The text as a whole is tried first, and only if it is no JSON are its lines tried one by one.
A value that is no allowed call is dropped, and the reason is kept. Arguments may be missing, null,
an object, or a string that holds an object.
-/

namespace ChatRelay.JsonSyntax

/-! ### Reading -/

/-- Why a piece of the text is no call. -/
inductive Fault where
  | notJson (line : List Char)
  | notObject (value : Json)
  | missingName
  | argumentsText (function raw : String)
  | argumentsValue (function : String) (value : Json)
  | refused (e : CallRefused)
deriving DecidableEq

/-- The words for a piece that is no call. -/
def Fault.message : Fault → String
  | notJson line => String.ofList (Text.quoted line ++ ": not a JSON value".toList)
  | notObject value => "expected an object, got " ++ value.compact
  | missingName => "missing function name"
  | argumentsText function raw =>
    "arguments of " ++ function ++ " are not an object: " ++ Text.quote raw
  | argumentsValue function value =>
    "arguments of " ++ function ++ " are not an object: " ++ value.compact
  | refused e => e.message

/-- The pieces of a text that may be calls. -/
def candidates (text : List Char) : List (Except Fault Json) :=
  match Json.parse? (Text.trim text) with
  | some (.arr items) => items.map .ok
  | some value => [.ok value]
  | none => (Text.contentLines text).map fun line =>
    match Json.parse? line with
    | some value => .ok value
    | none => .error (.notJson line)

/-- The arguments of a call, from the member that holds them. -/
def argumentsOf (function : String) : Option Json → Except Fault (List (String × Json))
  | none | some .null => .ok []
  | some (.obj members) => .ok members
  | some (.str raw) =>
    match Json.parse? raw.toList with
    | some (.obj members) => .ok members
    | _ => .error (.argumentsText function raw)
  | some value => .error (.argumentsValue function value)

/-- The call that a value states. -/
def callOf : Json → Except Fault ToolCall
  | .obj members =>
    match members.lookup "name" with
    | some (.str name) =>
      if name = "" then .error .missingName
      else
        (argumentsOf name (members.lookup "arguments")).map fun arguments => ⟨name, arguments⟩
    | _ => .error .missingName
  | value => .error (.notObject value)

/-- The call that a value states, if it is allowed. -/
def allowedCallOf (whitelist : Whitelist) (value : Json) : Except Fault ToolCall := do
  let call ← callOf value
  match whitelist.check call with
  | .ok () => .ok call
  | .error e => .error (.refused e)

/-- What each piece of a text was read as. -/
def readAll (whitelist : Whitelist) (text : List Char) : List (Except Fault ToolCall) :=
  (candidates text).map fun c => c.bind (allowedCallOf whitelist)

/-! ### Writing -/

/-- A call as JSON: a free-form object, whose members are in the order of their keys. -/
def write (call : ToolCall) : List Char :=
  Json.write (Json.object [("name", .str call.name), ("arguments", .obj call.arguments)])

end ChatRelay.JsonSyntax
