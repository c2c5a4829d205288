import ChatRelay.Text.Blank
import ChatRelay.Text.Utf8

/-!
# Request targets

What a request asks for, as a URI reference in one of four forms: a path with an optional query, an
asterisk, an absolute URI with an authority, or an authority alone. Only the path matters to the
relay, but a target that is none of these is no request. Query and fragment are not part of the
path, and percent signs are not decoded.
-/

namespace ChatRelay.Http

/-! ### Characters -/

/-- An ASCII letter or digit. -/
def isAlphanumeric (c : Char) : Bool :=
  c.isAlpha || c.isDigit

/-- The characters that a path may hold: the printable ASCII ones but for `#`, `<`, `>`, `?`,
backtick and space. -/
def isPathChar (c : Char) : Bool :=
  let n := c.toNat
  0x21 ≤ n && n ≤ 0x7E && !(['#', '<', '>', '?', '\x60'].contains c)

/-- The characters that a query may hold: the printable ASCII ones but for `"`, `#`, `<`, `>` and
space. -/
def isQueryChar (c : Char) : Bool :=
  let n := c.toNat
  0x21 ≤ n && n ≤ 0x7E && !(['"', '#', '<', '>'].contains c)

/-- The characters that the name of a scheme may hold. -/
def isSchemeChar (c : Char) : Bool :=
  isAlphanumeric c || ['+', '-', '.', '~'].contains c

/-- The characters that an authority may hold, percent signs in the user information included. -/
def isAuthorityChar (c : Char) : Bool :=
  isAlphanumeric c || ['!', '$', '%', '&', '\x27', '(', ')', '*', '+', ',', '-', '.', ':', ';', '=',
    '@', '[', ']', '_', '~'].contains c

/-- The characters that end an authority. -/
def endsAuthority (c : Char) : Bool :=
  c == '/' || c == '?' || c == '#'

/-! ### Paths -/

/-- The path, if what follows it is a query or a fragment or nothing. The path may be empty. -/
def pathOf? (cs : List Char) : Option (List Char) :=
  let path := cs.takeWhile isPathChar
  match cs.dropWhile isPathChar with
  | [] => some path
  | '#' :: _ => some path
  | '?' :: query =>
    match query.dropWhile isQueryChar with
    | [] => some path
    | '#' :: _ => some path
    | _ => none
  | _ => none

/-! ### Authorities -/

/-- What has been seen of an authority. Colons and percent signs are forgotten when they turn out to
belong to the user information or to a bracketed address. -/
structure AuthorityScan where
  colons : Nat
  opened : Bool
  closed : Bool
  percent : Bool
deriving DecidableEq, Repr

namespace AuthorityScan

/-- Nothing has been seen. -/
def initial : AuthorityScan := ⟨0, false, false, false⟩

/-- The most colons that a host with a bracketed address and a port can have before its bracket is
closed. -/
def maxColons : Nat := 8

/-- Reads one character. -/
def step (st : AuthorityScan) (c : Char) : Option AuthorityScan :=
  if !isAuthorityChar c then none
  else if c = ':' then
    if st.colons < maxColons then some { st with colons := st.colons + 1 } else none
  else if c = '[' then
    if st.percent || st.opened then none else some { st with opened := true }
  else if c = ']' then
    if !st.opened || st.closed then none else some ⟨0, true, true, false⟩
  else if c = '@' then some { st with colons := 0, percent := false }
  else if c = '%' then some { st with percent := true }
  else some st

/-- Whether an authority may end here: the bracket is closed, and what is left is a host with at
most one colon, before the port. -/
def mayEnd (st : AuthorityScan) : Bool :=
  st.opened == st.closed && st.colons ≤ 1 && !st.percent

end AuthorityScan

/-- Whether a text is an authority or empty: user information, a host and a port, where a host has
to follow user information. -/
def isAuthority (cs : List Char) : Bool :=
  match cs.foldlM AuthorityScan.step AuthorityScan.initial with
  | none => false
  | some st => st.mayEnd && cs.getLast? != some '@'

/-! ### Targets -/

/-- The longest scheme, in characters. -/
def maxScheme : Nat := 64

/-- The longest target, in bytes. -/
def maxTarget : Nat := 65534

/-- Cuts a target after its scheme: a name, a colon and two slashes. -/
def afterScheme? (cs : List Char) : Option (List Char × List Char) :=
  match Text.splitOnce ':' cs with
  | some (scheme, '/' :: '/' :: rest) =>
    if scheme.all isSchemeChar ∧ 3 < cs.length then some (scheme, rest) else none
  | _ => none

/-- The path of an absolute URI after its scheme; an empty one stands for the root. -/
def absolutePath? (cs : List Char) : Option (List Char) :=
  let authority := cs.takeWhile (!endsAuthority ·)
  if authority = [] ∨ !isAuthority authority then none
  else
    (pathOf? (cs.dropWhile (!endsAuthority ·))).map fun path => if path = [] then ['/'] else path

/-- The path of a target, if it is one. That of an authority alone is empty. -/
def targetPath? (cs : List Char) : Option (List Char) :=
  if maxTarget < Utf8.byteLength cs then none
  else
    match cs with
    | [] => none
    | ['*'] => some ['*']
    | '/' :: _ => pathOf? cs
    | _ =>
      match afterScheme? cs with
      -- The length of a scheme is looked at once it is known to be one.
      | some (scheme, rest) => if maxScheme < scheme.length then none else absolutePath? rest
      | none => if isAuthority cs then some [] else none

end ChatRelay.Http
