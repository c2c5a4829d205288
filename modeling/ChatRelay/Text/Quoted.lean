import ChatRelay.Text.Unprintable

/-!
# Texts in quotes

How a text is shown inside a message, so that it can be told from the words around it: in double
quotes, with a backslash before a quote or a backslash, the short forms for tab, line feed, carriage
return and NUL, and a character that cannot be read alone as its number in braces. A single quote
stands as it is.
-/

namespace ChatRelay.Text

/-- One character as it stands between the quotes. -/
def quotedChar (c : Char) : List Char :=
  if c = '"' then ['\\', '"']
  else if c = '\\' then ['\\', '\\']
  else if c = '\n' then ['\\', 'n']
  else if c = '\r' then ['\\', 'r']
  else if c = '\t' then ['\\', 't']
  else if c = '\x00' then ['\\', '0']
  else if isReadable c then [c]
  else ['\\', 'u', '\x7b'] ++ Nat.toDigits 16 c.toNat ++ ['\x7d']

/-- A text in quotes. -/
def quoted (cs : List Char) : List Char :=
  '"' :: cs.flatMap quotedChar ++ ['"']

/-- A string in quotes. -/
def quote (s : String) : String :=
  String.ofList (quoted s.toList)

end ChatRelay.Text
