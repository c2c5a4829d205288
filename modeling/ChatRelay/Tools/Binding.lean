import ChatRelay.Tools.CallExpr
import ChatRelay.Tools.Catalog

/-!
# Binding expressions to signatures

An expression becomes a call when its arguments are bound to the parameters of a signature: those
without a name first, in the order of the parameters, then those with a name in any order. Every
parameter is bound exactly once, to a value of its kind.
-/

namespace ChatRelay

/-- Why a value cannot be bound to a parameter. -/
inductive ValueError where
  | negative (value : Int)
  | notDate (value : String)
  | notInteger (value : String)
  | notQuoted (value : Int)
deriving DecidableEq, Repr

/-- Why an expression cannot be bound to a signature. -/
inductive BindError where
  | unknown (function name : String)
  | positionalAfterNamed
  | tooMany (function : String) (arity : Nat)
  | duplicate (param : String)
  | value (param : String) (e : ValueError)
  | missing (function param : String)
deriving DecidableEq, Repr

/-- The words for a value that cannot be bound. -/
def ValueError.message : ValueError → String
  | negative n => "expected a non-negative integer, got " ++ String.ofList (Integer.text n)
  | notDate s => "expected a YYYY-MM-DD date, got " ++ Text.quote s
  | notInteger s => "expected an integer, got " ++ Text.quote s
  | notQuoted n => "expected a quoted date, got " ++ String.ofList (Integer.text n)

/-- The words for an expression that cannot be bound. -/
def BindError.message : BindError → String
  | unknown function name => function ++ " has no parameter " ++ name
  | positionalAfterNamed => "positional argument follows keyword argument"
  | tooMany function arity =>
    function ++ " takes " ++ String.ofList (Integer.digits arity) ++ " arguments"
  | duplicate param => "duplicate argument " ++ param
  | value param e => param ++ ": " ++ e.message
  | missing function param => function ++ " is missing " ++ param

namespace Literal

/-- The value of a literal as an argument of a kind. -/
def toJson : ParamKind → Literal → Except ValueError Json
  | .index, int n =>
    if h : 0 ≤ n ∧ n < 0x10000000000000000 then .ok (.num (.int n ⟨by omega, h.2⟩))
    else .error (.negative n)
  | .date, str s => if Date.isDate s.toList then .ok (.str s) else .error (.notDate s)
  | .index, str s => .error (.notInteger s)
  | .date, int n => .error (.notQuoted n)

end Literal

namespace Signature

/-- The parameter that an argument is for. `index` counts the arguments before it, and `named` says
whether one of them had a name. -/
def target (s : Signature) (index : Nat) (named : Bool) (a : Argument) : Except BindError Param :=
  match a.name with
  | some name =>
    match s.param? name with
    | some p => .ok p
    | none => .error (.unknown s.name name)
  | none =>
    if named then .error .positionalAfterNamed
    else
      match s.params[index]? with
      | some p => .ok p
      | none => .error (.tooMany s.name s.params.length)

/-- Binds arguments one after the other to the members bound so far. -/
def bindArguments (s : Signature) :
    Nat → Bool → List (String × Json) → List Argument → Except BindError (List (String × Json))
  | _, _, bound, [] => .ok bound
  | index, named, bound, a :: rest => do
    let p ← s.target index named a
    -- A parameter given twice is refused before its second value is looked at.
    if (bound.lookup p.name).isSome then .error (.duplicate p.name)
    else
      let v ← (a.value.toJson p.kind).mapError (.value p.name)
      bindArguments s (index + 1) (named || a.name.isSome) (Json.insert p.name v bound) rest

/-- Binds an expression to the signature. -/
def bind (s : Signature) (e : CallExpr) : Except BindError ToolCall := do
  let bound ← s.bindArguments 0 false [] e.arguments
  match s.params.find? fun p => (bound.lookup p.name).isNone with
  | some p => .error (.missing s.name p.name)
  | none => .ok ⟨s.name, bound⟩

end Signature

end ChatRelay
