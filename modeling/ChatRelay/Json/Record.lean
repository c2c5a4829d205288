import ChatRelay.Json.Tree

/-!
# Typed reading

Readers for the parts of a record. A record is written as an object, where the order of the fields
is free and unknown ones are skipped, or as an array of the first few fields in their declared
order. Every reader takes the levels that may still be entered, because a record counts as one level
like any other array or object.

A field reader is applied to the field's tree if the field is there. `required` has no answer
without it, `withDefault` has the default, and `optional` also takes null for absence.
-/

namespace ChatRelay.Json.Tree

/-- A type that is read from a tree. -/
abbrev Reader (α : Type) := Nat → Tree → Option α

/-- The levels left inside an array or object. -/
def enter? (depth : Nat) : Option Nat :=
  if depth ≤ 1 then none else some (depth - 1)

/-! ### Scalars -/

/-- A string. -/
def string? : Reader String
  | _, .str units => text? units
  | _, _ => none

/-- A truth value. -/
def bool? : Reader Bool
  | _, .bool b => some b
  | _, _ => none

/-- An integer within bounds; a float is none. -/
def integer? (low high : Int) : Reader Int
  | _, .num n =>
    match n.number? with
    | some (.int i _) => if low ≤ i ∧ i ≤ high then some i else none
    | _ => none
  | _, _ => none

/-- A name out of a fixed set: a string, or an object with the name as its only key and null as its
value. -/
def name? : Reader String
  | _, .str units => text? units
  | depth, .obj [(key, .null)] => if depth ≤ 1 then none else text? key
  | _, _ => none

/-- One of several values by name. -/
def oneOf? (values : List α) (name : α → String) : Reader α := fun depth t =>
  (name? depth t).bind fun s => values.find? fun v => name v == s

/-! ### Lists -/

/-- A list of things that a reader reads. -/
def list? (read : Reader α) : Reader (List α)
  | depth, .arr items => (enter? depth).bind fun depth => items.mapM (read depth)
  | _, _ => none

/-! ### Records -/

/-- The fields of a record that are there. A field written twice, a field beyond the declared ones
and a key that is no text are refused. -/
def fields? (names : List String) : Tree → Option (List (String × Tree))
  | .obj members =>
    match members.mapM fun m => (text? m.1).map (·, m.2) with
    | none => none
    | some named =>
      let known := named.filter fun m => names.contains m.1
      if (known.map (·.1)).Nodup then some known else none
  | .arr items => if items.length ≤ names.length then some (names.zip items) else none
  | _ => none

/-- Reads a field that has to be there. -/
def required (read : Tree → Option α) : Option Tree → Option α
  | none => none
  | some t => read t

/-- Reads a field, or takes its default. -/
def withDefault (value : α) (read : Tree → Option α) : Option Tree → Option α
  | none => some value
  | some t => read t

/-- Reads a field that may be missing or null. -/
def optional (read : Tree → Option α) : Option Tree → Option (Option α)
  | none => some none
  | some .null => some none
  | some t => (read t).map some

/-- Reads a record whose fields have these names. -/
def record? (names : List String)
    (read : Nat → (String → Option Tree) → Option α) : Reader α := fun depth t => do
  let depth ← enter? depth
  let fields ← fields? names t
  read depth (fields.lookup ·)

/-- A free-form object as its ordered members. -/
def members? : Reader (List (String × Json)) := fun depth t =>
  match t with
  | .obj _ =>
    match json? depth t with
    | some (.obj members) => some members
    | _ => none
  | _ => none

end ChatRelay.Json.Tree
