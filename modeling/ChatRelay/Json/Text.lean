import ChatRelay.Json.Basic
import ChatRelay.Decimal.Notation

/-!
# JSON text, written

The compact form: no blanks between the tokens, members in the order they are given. In a string
only what has to be escaped is: quotes, backslashes and the controls below U+0020, which have a
short form or else four lower-case hexadecimal digits. The pieces (`stringText`, `arrayText`,
`recordText`) are also what records with a fixed order of fields are written with.
-/

namespace ChatRelay.Json

/-- One character as it stands in a string. -/
def escapedChar (c : Char) : List Char :=
  if c = '"' then ['\\', '"']
  else if c = '\\' then ['\\', '\\']
  else if c = '\x08' then ['\\', 'b']
  else if c = '\x0c' then ['\\', 'f']
  else if c = '\n' then ['\\', 'n']
  else if c = '\r' then ['\\', 'r']
  else if c = '\t' then ['\\', 't']
  else if c.toNat < 0x20 then
    ['\\', 'u', '0', '0', Nat.digitChar (c.toNat / 16), Nat.digitChar (c.toNat % 16)]
  else [c]

/-- A string with its quotes. -/
def stringText (cs : List Char) : List Char :=
  '"' :: cs.flatMap escapedChar ++ ['"']

/-- Items between brackets, already written. -/
def arrayText (items : List (List Char)) : List Char :=
  '[' :: [','].intercalate items ++ [']']

/-- A member with its key, already written. -/
def memberText (key : String) (value : List Char) : List Char :=
  stringText key.toList ++ ':' :: value

/-- Members between braces, already written. -/
def objectText (members : List (List Char)) : List Char :=
  '\x7b' :: [','].intercalate members ++ ['\x7d']

/-- A record: its fields in the order given. -/
def recordText (fields : List (String × List Char)) : List Char :=
  objectText (fields.map fun f => memberText f.1 f.2)

/-- The text of a truth value. -/
def boolText (b : Bool) : List Char :=
  if b then ['t', 'r', 'u', 'e'] else ['f', 'a', 'l', 's', 'e']

/-- The text of a number. -/
def Number.text : Number → List Char
  | .int n _ => Integer.text n
  | .float x => Decimal.write x

mutual

/-- The characters of a value's text. -/
def write : Json → List Char
  | null => ['n', 'u', 'l', 'l']
  | bool b => boolText b
  | num n => n.text
  | str s => stringText s.toList
  | arr items => arrayText (writeItems items)
  | obj members => objectText (writeMembers members)

/-- The text of each item. -/
def writeItems : List Json → List (List Char)
  | [] => []
  | v :: rest => write v :: writeItems rest

/-- The text of each member. -/
def writeMembers : List (String × Json) → List (List Char)
  | [] => []
  | (k, v) :: rest => memberText k (write v) :: writeMembers rest

end

/-- The text of a value. -/
def compact (v : Json) : String :=
  String.ofList (write v)

end ChatRelay.Json
