import ChatRelay.Json.Record
import ChatRelay.Json.Text
import ChatRelay.Text.Blank
import ChatRelay.Text.Quoted

/-!
# Model sizes

A model comes in three sizes, each with a profile of the resources that it is loaded with. The small
one is meant for machines without a GPU.
-/

namespace ChatRelay

/-- A size of model. -/
inductive ModelSize where
  | small
  | medium
  | large
deriving DecidableEq, Repr

/-- What a model is loaded with. -/
structure ModelParams where
  contextSize : Nat
  batchSize : Nat
  threads : Nat
  /-- The layers that the GPU takes; `-1` stands for all of them. -/
  gpuLayers : Int
deriving DecidableEq, Repr

namespace ModelSize

/-- All sizes. -/
def all : List ModelSize := [small, medium, large]

/-- The name in configuration and JSON. -/
def name : ModelSize → String
  | small => "small"
  | medium => "medium"
  | large => "large"

/-- The name in messages. -/
def title : ModelSize → String
  | small => "Small"
  | medium => "Medium"
  | large => "Large"

/-- A text that names no size, as it was looked up: trimmed and in lower case. -/
structure Unknown where
  text : String
deriving DecidableEq, Repr

/-- What is said of a text that names no size. -/
def Unknown.message (e : Unknown) : String :=
  "expected small, medium or large, got " ++ Text.quote e.text

/-- Reads a name, with blanks around it and letter case set aside. -/
def parse (text : String) : Except Unknown ModelSize :=
  let wanted := Text.lowerAscii (Text.trim text.toList)
  match all.find? fun s => s.name.toList == wanted with
  | some s => .ok s
  | none => .error ⟨String.ofList wanted⟩

/-- Reads the exact name in JSON. -/
def read? : Json.Tree.Reader ModelSize :=
  Json.Tree.oneOf? all name

/-- The name as JSON. -/
def write (s : ModelSize) : List Char :=
  Json.stringText s.name.toList

/-- What a model of that size is loaded with, unless configured otherwise. -/
def profile : ModelSize → ModelParams
  | small => ⟨4096, 512, 8, 0⟩
  | medium => ⟨6000, 512, 8, -1⟩
  | large => ⟨42000, 512, 6, -1⟩

end ModelSize

end ChatRelay
