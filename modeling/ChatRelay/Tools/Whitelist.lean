import ChatRelay.Tools.Catalog

/-!
# The calls that may be made

A call is allowed if it names a built-in function and its arguments fit, or if it names a function
that the request declares. A declaration of a built-in name changes nothing: its signature still
counts.
-/

namespace ChatRelay

/-- Why a call is not allowed. -/
inductive CallRefused where
  | arguments (e : ArgumentsError)
  | undeclared (name : String)
deriving DecidableEq

/-- The words for a call that is not allowed. -/
def CallRefused.message : CallRefused → String
  | arguments e => e.message
  | undeclared name => name ++ " is neither built in nor declared"

/-- The names that a request declares. -/
structure Whitelist where
  declared : List String
deriving DecidableEq, Repr

namespace Whitelist

/-- The names of the definitions that have one. -/
def ofDefinitions (tools : List ToolDefinition) : Whitelist :=
  ⟨tools.filterMap ToolDefinition.name⟩

/-- Checks a call. -/
def check (w : Whitelist) (call : ToolCall) : Except CallRefused Unit :=
  match Catalog.lookup? call.name with
  | some s => (s.validate call.arguments).mapError .arguments
  | none => if call.name ∈ w.declared then .ok () else .error (.undeclared call.name)

/-- Whether a call is allowed. -/
def Allows (w : Whitelist) (call : ToolCall) : Prop :=
  w.check call = .ok ()

instance (w : Whitelist) (call : ToolCall) : Decidable (w.Allows call) :=
  match h : w.check call with
  | .ok () => isTrue h
  | .error _ => isFalse (by simp [Allows, h])

end Whitelist

end ChatRelay
