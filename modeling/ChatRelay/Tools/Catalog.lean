import ChatRelay.Chat.Message
import ChatRelay.Tools.Date

/-!
# The catalog of built-in functions

The functions whose signatures the relay knows itself. Their parameters are typed, and a call to one
is accepted only with exactly the declared parameters, each of its kind. The stub is the text that
describes a function to a model which writes its calls as expressions.
-/

namespace ChatRelay

/-- What a parameter of a built-in function holds. -/
inductive ParamKind where
  /-- An integer that is not negative. -/
  | index
  /-- A calendar date in a string. -/
  | date
deriving DecidableEq, Repr

/-- A parameter of a built-in function. -/
structure Param where
  name : String
  kind : ParamKind
deriving DecidableEq, Repr

/-- A built-in function: its parameters in order, and the stub that describes it. -/
structure Signature where
  name : String
  params : List Param
  stub : String
deriving DecidableEq, Repr

namespace ParamKind

/-- Whether a value is of the kind. -/
def admits : ParamKind → Json → Bool
  | index, v => v.index?.isSome
  | date, v => v.string?.any fun s => Date.isDate s.toList

/-- The kind in words. -/
def words : ParamKind → String
  | index => "a non-negative integer"
  | date => "a YYYY-MM-DD date"

/-- Whether values of the kind are written as strings. -/
def isString : ParamKind → Bool
  | index => false
  | date => true

end ParamKind

/-! ### The functions -/

namespace Catalog

/-- The text of a stub, line by line. -/
def stubText (lines : List String) : String :=
  "\n".intercalate lines

/-- Reads the newest messages of a channel. -/
def recentMessages : Signature where
  name := "getRecentChannelMessages"
  params := [⟨"channelIndex", .index⟩, ⟨"limit", .index⟩]
  stub := stubText [
    "",
    "def getRecentChannelMessages(channelIndex: int, limit: int) -> List:",
    "    \"\"\"Get recent messages from a channel, starting from the most recent.",
    "",
    "    Args:",
    "      channelIndex: The list index of the channel to get messages from.",
    "      limit: The maximum number of messages to return.",
    "",
    "    Returns:",
    "      A list of dicts, each with the following keys:",
    "      - userName: The name of the user who sent the message.",
    "      - isoDate: The ISO 8601 date and time of the message.",
    "      - message: The content of the message.",
    "    \"\"\"",
    ""]

/-- Reads the messages of a channel between two dates. -/
def messagesRange : Signature where
  name := "getChannelMessagesRange"
  params := [⟨"channelIndex", .index⟩, ⟨"startDate", .date⟩, ⟨"endDate", .date⟩]
  stub := stubText [
    "",
    "def getChannelMessagesRange(channelIndex: int, startDate: str, endDate: str) -> List:",
    "    \"\"\"Get messages from a channel, within a specific time range.",
    "",
    "    Args:",
    "      channelIndex: The list index of the channel to get messages from.",
    "      startDate: The start date of the time range to get messages from. Must be in the "
      ++ "format YYYY-MM-DD.",
    "      endDate: The end date of the time range to get messages from. Must be in the format "
      ++ "YYYY-MM-DD.",
    "",
    "    Returns:",
    "      A list of dicts, each with the following keys:",
    "      - userName: The name of the user who sent the message.",
    "      - isoDate: The ISO 8601 date and time of the message.",
    "      - message: The content of the message.",
    "    \"\"\"",
    ""]

/-- All built-in functions. -/
def all : List Signature := [recentMessages, messagesRange]

/-- The built-in function of that name. -/
def lookup? (name : String) : Option Signature :=
  all.find? fun s => s.name == name

end Catalog

/-! ### Checking arguments -/

/-- Why the arguments do not fit a signature. -/
inductive ArgumentsError where
  | unknown (function key : String)
  | missing (function param : String)
  | mismatch (function : String) (param : Param) (value : Json)
deriving DecidableEq

/-- The words for arguments that do not fit. -/
def ArgumentsError.message : ArgumentsError → String
  | unknown function key => function ++ " has no parameter " ++ key
  | missing function param => function ++ " is missing " ++ param
  | mismatch function param value =>
    function ++ "." ++ param.name ++ ": expected " ++ param.kind.words ++ ", got " ++ value.compact

namespace Signature

/-- The parameter of that name. -/
def param? (s : Signature) (name : String) : Option Param :=
  s.params.find? fun p => p.name == name

/-- Checks the value given for a parameter. -/
def checkParam (s : Signature) (arguments : List (String × Json)) (p : Param) :
    Except ArgumentsError Unit :=
  match arguments.lookup p.name with
  | none => .error (.missing s.name p.name)
  | some value => if p.kind.admits value then .ok () else .error (.mismatch s.name p value)

/-- Checks arguments: no name but the declared ones, then each declared one and its kind. -/
def validate (s : Signature) (arguments : List (String × Json)) : Except ArgumentsError Unit :=
  match arguments.find? fun a => (s.param? a.1).isNone with
  | some (key, _) => .error (.unknown s.name key)
  | none => s.params.forM (s.checkParam arguments)

end Signature

end ChatRelay
