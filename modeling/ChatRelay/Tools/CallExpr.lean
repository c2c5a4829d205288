import ChatRelay.Text.Blank
import ChatRelay.Text.Integer
import ChatRelay.Text.Quoted
import ChatRelay.Text.Utf8

/-!
# Call expressions

An expression is a name and, in parentheses, arguments separated by commas: integers and quoted
strings, each with or without a name before it. Blanks may stand between any two tokens but not next
to the end of a value's own text, and a comma may follow the last argument.

A reader takes the rest of the text and returns what it read and the text after it. A `Fault` keeps
the rest of the text at which the reader stopped; where that is in bytes is worked out only for the
message.
-/

namespace ChatRelay

/-- The value of an argument. -/
inductive Literal where
  | int (value : Int)
  | str (value : String)
deriving DecidableEq, Repr

/-- An argument, named or not. -/
structure Argument where
  name : Option String
  value : Literal
deriving DecidableEq, Repr

/-- A call expression. -/
structure CallExpr where
  name : String
  arguments : List Argument
deriving DecidableEq, Repr

namespace CallExpr

/-! ### Faults -/

/-- What was expected where something else, or nothing, was found. -/
inductive Expected where
  | char (c : Char)
  | identifier
  | literal
deriving DecidableEq, Repr

/-- Why a text is no call expression. -/
inductive Fault where
  | expected (what : Expected) (rest : List Char)
  | expectedInteger (rest : List Char)
  | badInteger (numeral : List Char) (e : IntegerError)
  | openEscape
  | openString
  | openArguments
  | badSeparator (found : Char)
  | trailing (rest : List Char)
deriving DecidableEq, Repr

/-- The expected thing in words. -/
def Expected.words : Expected → List Char
  | .char c => ['\x27', c, '\x27']
  | .identifier => "identifier".toList
  | .literal => "literal".toList

/-- How many bytes of the source come before the rest. -/
def offset (source rest : List Char) : Nat :=
  Utf8.byteLength source - Utf8.byteLength rest

/-- The words for a fault in a source. -/
def Fault.message (source : List Char) : Fault → String
  | .expected what (c :: rest) =>
    String.ofList <| "expected ".toList ++ what.words ++ " at byte ".toList
      ++ Integer.digits (offset source (c :: rest)) ++ ", found \x27".toList ++ [c, '\x27']
  | .expected what [] =>
    String.ofList <| "expected ".toList ++ what.words ++ ", found end of input".toList
  | .expectedInteger rest =>
    String.ofList <| "expected integer at byte ".toList ++ Integer.digits (offset source rest)
  | .badInteger numeral e =>
    String.ofList <| "bad integer ".toList ++ Text.quoted numeral ++ ": ".toList ++ e.message.toList
  | .openEscape => "unterminated escape"
  | .openString => "unterminated string literal"
  | .openArguments => "unterminated argument list"
  | .badSeparator c => String.ofList <| "expected ',' or ')', found \x27".toList ++ [c, '\x27']
  | .trailing rest =>
    String.ofList <| "unexpected trailing input ".toList ++ Text.quoted rest

/-! ### Tokens -/

/-- Reads one character that has to come next. -/
def readChar (want : Char) : List Char → Except Fault (List Char)
  | c :: rest => if c = want then .ok rest else .error (.expected (.char want) (c :: rest))
  | [] => .error (.expected (.char want) [])

/-- Whether a name may start with the character. -/
def isNameStart (c : Char) : Bool :=
  c.isAlpha || c == '_'

/-- Whether a name may go on with the character. -/
def isNamePart (c : Char) : Bool :=
  c.isAlphanum || c == '_'

/-- Reads a name. -/
def readName : List Char → Except Fault (String × List Char)
  | c :: rest =>
    if isNameStart c then
      .ok (String.ofList (c :: rest.takeWhile isNamePart), rest.dropWhile isNamePart)
    else .error (.expected .identifier (c :: rest))
  | [] => .error (.expected .identifier [])

/-- What a backslash and a character stand for; a pair without a meaning stands for itself. -/
def unescape (c : Char) : List Char :=
  if c = 'n' then ['\n']
  else if c = 't' then ['\t']
  else if c = '\\' ∨ c = '"' ∨ c = '\x27' then [c]
  else ['\\', c]

/-- Reads the inside of a string and its closing quote. -/
def readQuoted (close : Char) : List Char → Except Fault (List Char × List Char)
  | [] => .error .openString
  | c :: rest =>
    if c = close then .ok ([], rest)
    else if c = '\\' then
      match rest with
      | [] => .error .openEscape
      | e :: rest => (readQuoted close rest).map fun (text, s) => (unescape e ++ text, s)
    else (readQuoted close rest).map fun (text, s) => (c :: text, s)

/-- Reads digits with an optional minus, as an integer of 64 bits with sign. -/
def readInteger (s : List Char) : Except Fault (Int × List Char) :=
  let (sign, s') := match s with
    | '-' :: rest => (['-'], rest)
    | s => ([], s)
  -- A minus without digits is reported where it stands, so the error keeps all of `s`.
  match s'.takeWhile Char.isDigit with
  | [] => .error (.expectedInteger s)
  | ds =>
    match Integer.parse (-0x8000000000000000) 0x7FFFFFFFFFFFFFFF (sign ++ ds) with
    | .ok n => .ok (n, s'.dropWhile Char.isDigit)
    | .error e => .error (.badInteger (sign ++ ds) e)

/-- Reads a value. -/
def readLiteral : List Char → Except Fault (Literal × List Char)
  | [] => .error (.expected .literal [])
  | c :: rest =>
    if c = '"' ∨ c = '\x27' then
      (readQuoted c rest).map fun (text, s) => (.str (String.ofList text), s)
    else if c = '-' ∨ c.isDigit then
      (readInteger (c :: rest)).map fun (n, s) => (.int n, s)
    else .error (.expected .literal (c :: rest))

/-! ### Expressions -/

/-- Reads an argument: what starts like a name is one, and needs a value after it. -/
def readArgument (s : List Char) : Except Fault (Argument × List Char) :=
  if (s.head?.any isNameStart) then do
    let (name, s) ← readName s
    let s ← readChar '=' (Text.trimStart s)
    let (value, s) ← readLiteral (Text.trimStart s)
    .ok (⟨some name, value⟩, s)
  else do
    let (value, s) ← readLiteral s
    .ok (⟨none, value⟩, s)

/-- Reads arguments up to the closing parenthesis. The first argument bounds their number. -/
def readArguments : Nat → List Char → Except Fault (List Argument × List Char)
  | 0, _ => .error .openArguments
  | n + 1, s =>
    match Text.trimStart s with
    | ')' :: rest => .ok ([], rest)
    | s => do
      let (argument, s) ← readArgument s
      match Text.trimStart s with
      | ',' :: s =>
        let (arguments, s) ← readArguments n s
        .ok (argument :: arguments, s)
      | ')' :: s => .ok ([argument], s)
      | c :: _ => .error (.badSeparator c)
      | [] => .error .openArguments

/-- Reads a text that is one call expression. An argument takes a character at least, so the bound
on their number is never met. -/
def parse (source : List Char) : Except Fault CallExpr := do
  let (name, s) ← readName (Text.trimStart source)
  let s ← readChar '(' (Text.trimStart s)
  let (arguments, s) ← readArguments (s.length + 1) s
  match Text.trimStart s with
  | [] => .ok ⟨name, arguments⟩
  | rest => .error (.trailing rest)

end CallExpr

end ChatRelay
