import ChatRelay.Http.Target

/-!
# Requests

A request as the relay sees it: a method, a path, headers and a body. `Request.make?` refuses what
cannot be one: a method or header name with a character that it may not have, a header value with
controls in it, or a target that is no target.
-/

namespace ChatRelay.Http

/-- The characters of a method: ASCII letters, digits and some signs. -/
def isMethodChar (c : Char) : Bool :=
  isAlphanumeric c || ['!', '*', '+', '-', '.', '^', '_', '\x60', '|', '~'].contains c

/-- The characters of a header name: those of a method and a few more signs. -/
def isNameChar (c : Char) : Bool :=
  isMethodChar c || ['"', '#', '$', '%', '&', '\x27'].contains c

/-- Whether a text is a method. -/
def isMethod (s : String) : Bool :=
  !s.toList.isEmpty && s.toList.all isMethodChar

/-- The longest header name. -/
def maxName : Nat := 65535

/-- Whether a text is a header name. -/
def isHeaderName (s : String) : Bool :=
  !s.toList.isEmpty && s.toList.all isNameChar && s.length ≤ maxName

/-- The bytes of a header value: no controls but the tab. -/
def isFieldByte (b : UInt8) : Bool :=
  (0x20 ≤ b && b != 0x7F) || b == 0x09

/-- The value of a header. -/
structure HeaderValue where
  bytes : List UInt8
deriving DecidableEq, Repr

namespace HeaderValue

/-- These bytes as a header value, if they are one. -/
def ofBytes? (bytes : List UInt8) : Option HeaderValue :=
  if bytes.all isFieldByte then some ⟨bytes⟩ else none

/-- The text of a value that has only visible ASCII characters, spaces and tabs. -/
def text? (v : HeaderValue) : Option (List Char) :=
  if v.bytes.all fun b => (0x20 ≤ b && b < 0x7F) || b == 0x09 then
    some (v.bytes.map fun b => Char.ofNat b.toNat)
  else none

end HeaderValue

/-- A request. -/
structure Request where
  method : String
  path : String
  /-- Names are in lower case. -/
  headers : List (String × HeaderValue)
  body : List UInt8
deriving DecidableEq, Repr

namespace Request

/-- A header from its name and the bytes of its value. -/
def header? (name : String) (value : List UInt8) : Option (String × HeaderValue) :=
  if isHeaderName name then
    (HeaderValue.ofBytes? value).map fun v => (String.ofList (Text.lowerAscii name.toList), v)
  else none

/-- A request from its parts. -/
def make? (method target : String) (headers : List (String × List UInt8)) (body : List UInt8) :
    Option Request := do
  let headers ← headers.mapM fun h => header? h.1 h.2
  let path ← targetPath? target.toList
  if isMethod method then some ⟨method, String.ofList path, headers, body⟩ else none

/-- The value of a header; of several with one name the first. -/
def header (r : Request) (name : String) : Option HeaderValue :=
  r.headers.lookup name

end Request

end ChatRelay.Http
