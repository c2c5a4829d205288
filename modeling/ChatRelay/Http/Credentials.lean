import ChatRelay.Config.Server
import ChatRelay.Http.Request
import ChatRelay.Text.Base64

/-!
# Basic authentication

A client proves who it is by a header with the scheme `Basic` and, in Base64, a name and a password
with a colon between them. The name ends at the first colon, so a password may have colons and a
name cannot.
-/

namespace ChatRelay.Http

/-- The name and password that are let in. -/
structure Credentials where
  username : String
  password : String
deriving DecidableEq

namespace Credentials

/-- The configured credentials, if both parts are set. -/
def ofConfig (a : AuthConfig) : Option Credentials :=
  match a.username, a.password with
  | some username, some password => some ⟨username, password⟩
  | _, _ => none

/-- A header value's scheme, which is compared without letter case. -/
def scheme : List Char := ['b', 'a', 's', 'i', 'c']

/-- The credentials that a header carries. -/
def ofHeader? (v : HeaderValue) : Option Credentials := do
  let value ← v.text?
  let (name, encoded) ← Text.splitOnce ' ' value
  if Text.lowerAscii name = scheme then
    let bytes ← Base64.decode? (Text.trim encoded)
    let cs ← Utf8.decodeChars? bytes
    -- The first colon: a password may hold more of them.
    let (username, password) ← Text.splitOnce ':' cs
    some ⟨String.ofList username, String.ofList password⟩
  else none

/-- Whether two byte strings are equal. All bytes of strings of one length are looked at, so the
answer takes as long wherever they differ. -/
def sameBytes (xs ys : List UInt8) : Bool :=
  xs.length == ys.length && (xs.zip ys).foldl (fun seen p => seen ||| (p.1 ^^^ p.2)) 0 == 0

/-- Whether a header carries these credentials. -/
def accepts (c : Credentials) (v : Option HeaderValue) : Bool :=
  match v.bind ofHeader? with
  | none => false
  | some sent =>
    -- Both parts are compared, so it does not show which of them is wrong.
    let sameName := sameBytes (Utf8.encode sent.username) (Utf8.encode c.username)
    let samePassword := sameBytes (Utf8.encode sent.password) (Utf8.encode c.password)
    sameName && samePassword

/-- The header value that a client sends for these credentials. -/
def header (c : Credentials) : List Char :=
  ['B', 'a', 's', 'i', 'c', ' '] ++ Base64.encode (Utf8.encode (c.username ++ ":" ++ c.password))

/-- How credentials are shown to the operator: without the password. -/
def summary (c : Credentials) : String :=
  "Credentials \x7b username: " ++ Text.quote c.username ++ ", password: "
    ++ Text.quote "***" ++ " \x7d"

end Credentials

end ChatRelay.Http
