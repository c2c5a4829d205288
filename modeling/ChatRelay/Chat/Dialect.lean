import ChatRelay.Json.Record
import ChatRelay.Json.Text
import ChatRelay.Text.Blank
import ChatRelay.Text.Quoted

/-!
# Dialects

The model families that the relay can speak to. Each was trained on a chat format of its own; what
the formats are is said under `Prompt`.
-/

namespace ChatRelay

/-- A model family. -/
inductive Dialect where
  | gemma
  | mistral
  | qwen
deriving DecidableEq, Repr

namespace Dialect

/-- All dialects. -/
def all : List Dialect := [gemma, mistral, qwen]

/-- The name in configuration and JSON. -/
def name : Dialect → String
  | gemma => "gemma"
  | mistral => "mistral"
  | qwen => "qwen"

/-- The name in messages. -/
def title : Dialect → String
  | gemma => "Gemma"
  | mistral => "Mistral"
  | qwen => "Qwen"

/-- A text that names no dialect. -/
structure Unknown where
  text : String
deriving DecidableEq, Repr

/-- What is said of a text that names no dialect. -/
def Unknown.message (e : Unknown) : String :=
  "unknown dialect " ++ Text.quote e.text ++ " (expected one of: gemma, mistral, qwen)"

/-- Reads a name, with blanks around it and letter case set aside. -/
def parse (text : String) : Except Unknown Dialect :=
  let wanted := Text.lowerAscii (Text.trim text.toList)
  match all.find? fun d => d.name.toList == wanted with
  | some d => .ok d
  | none => .error ⟨text⟩

/-- Reads the exact name in JSON. -/
def read? : Json.Tree.Reader Dialect :=
  Json.Tree.oneOf? all name

/-- The name as JSON. -/
def write (d : Dialect) : List Char :=
  Json.stringText d.name.toList

end Dialect

end ChatRelay
