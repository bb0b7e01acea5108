import HeatPlacement.Text.Unsigned

/-!
# Uniform resource identifiers

* `Uri`: scheme, authority, path and query
* `Uri.read`: the identifier that a text holds, without its fragment
* `Uri.text`: the written form
* `Uri.address?`: where to connect to
-/

namespace HeatPlacement

/-- An identifier. Neither scheme nor authority is looked at beyond its form. -/
structure Uri where
  scheme : Option String
  authority : Option String
  /-- As it was written; empty only behind an authority. -/
  path : String
  query : Option String
  deriving DecidableEq, Repr, Inhabited

/-- Why a text holds no identifier. -/
inductive UriError where
  | empty
  | tooLong
  | schemeTooLong
  | character
  | authority
  | format
  deriving DecidableEq, Repr, Inhabited

/-- The wording of an error. -/
def UriError.message : UriError → String
  | .empty => "empty string"
  | .tooLong => "uri too long"
  | .schemeTooLong => "scheme too long"
  | .character => "invalid uri character"
  | .authority => "invalid authority"
  | .format => "invalid format"

namespace Uri

/-- Whether a character is a letter or a digit of ASCII. -/
def isAlphanumeric (c : Char) : Bool :=
  ('a' ≤ c && c ≤ 'z') || ('A' ≤ c && c ≤ 'Z') || Text.isDigit c

/-! ### Scheme -/

/-- Whether a character may stand in a scheme. -/
def isSchemeChar (c : Char) : Bool := isAlphanumeric c || "+-.~".toList.contains c

/-- Take a scheme off a text that begins with one. The two common ones are known in any case. -/
def splitScheme (text : List Char) : Except UriError (Option String × List Char) :=
  let (name, rest) := text.span isSchemeChar
  match rest with
  | ':' :: '/' :: '/' :: after =>
    let lower := String.ofList (name.map Char.toLower)
    if lower == "http" || lower == "https" then .ok (some lower, after)
    else if text.length ≤ 3 then .ok (none, text)
    else if 64 < name.length then .error .schemeTooLong
    else .ok (some (String.ofList name), after)
  | _ => .ok (none, text)

/-! ### Authority -/

/-- Whether a character may stand in an authority. -/
def isAuthorityChar (c : Char) : Bool :=
  isAlphanumeric c || "!$&\x27()*+,-.;=_~".toList.contains c

/-- Whether a character ends an authority. -/
def endsAuthority (c : Char) : Bool := c == '/' || c == '?' || c == '#'

/-- What has been seen of an authority. -/
structure AuthorityScan where
  /-- Colons behind the user information and the bracketed address. -/
  colons : Nat
  opened : Bool
  closed : Bool
  /-- A percent sign that is not in the user information or the brackets. -/
  percent : Bool
  deriving DecidableEq, Repr

/-- Nothing has been seen. -/
def AuthorityScan.start : AuthorityScan := ⟨0, false, false, false⟩

/-- Look at one character of an authority. -/
def AuthorityScan.step (scan : AuthorityScan) (c : Char) : Except UriError AuthorityScan :=
  match c with
  | ':' =>
    if 8 ≤ scan.colons then .error .authority else .ok { scan with colons := scan.colons + 1 }
  | '[' =>
    if scan.percent || scan.opened then .error .authority else .ok { scan with opened := true }
  | ']' =>
    if !scan.opened || scan.closed then .error .authority
    else .ok { scan with closed := true, colons := 0, percent := false }
  -- What came before was user information, where colons and percent signs are free.
  | '@' => .ok { scan with colons := 0, percent := false }
  | '%' => .ok { scan with percent := true }
  | c => if isAuthorityChar c then .ok scan else .error .character

/-- Check a whole authority: brackets come in a pair, at most one colon precedes a port, and
something follows the user information. -/
def checkAuthority (text : List Char) : Except UriError Unit := do
  let scan ← text.foldlM AuthorityScan.step .start
  if scan.opened != scan.closed || 1 < scan.colons || text.getLast? == some '@' || scan.percent then
    .error .authority
  else .ok ()

/-! ### Path and query -/

/-- Whether a character may stand in a path. -/
def isPathChar (c : Char) : Bool :=
  let n := c.toNat
  n == 0x21 || n == 0x22 || (0x24 ≤ n && n ≤ 0x3B) || n == 0x3D || (0x40 ≤ n && n ≤ 0x5F) ||
    (0x61 ≤ n && n ≤ 0x7D) || 0x7E ≤ n

/-- Whether a character may stand in a query. -/
def isQueryChar (c : Char) : Bool :=
  let n := c.toNat
  n == 0x21 || (0x24 ≤ n && n ≤ 0x3B) || n == 0x3D || 0x3F ≤ n

/-- The path and the query of what follows an authority. A fragment is dropped. -/
def splitPath (text : List Char) : Except UriError (String × Option String) := do
  let (path, rest) := text.span fun c => c != '?' && c != '#'
  unless path.all isPathChar do throw .character
  match rest with
  | '?' :: after =>
    let query := after.takeWhile (· != '#')
    unless query.all isQueryChar do throw .character
    return (String.ofList path, some (String.ofList query))
  | _ => return (String.ofList path, none)

/-! ### Reading and writing -/

/-- Read an identifier that does not begin with a slash. -/
def readFull (text : List Char) : Except UriError Uri := do
  let (scheme, rest) ← splitScheme text
  let (authority, tail) := rest.span fun c => !endsAuthority c
  checkAuthority authority
  match scheme with
  -- Without a scheme there may be an authority and nothing else.
  | none =>
    if tail.isEmpty then return ⟨none, some (String.ofList authority), "", none⟩
    else throw .format
  | some _ =>
    if authority.isEmpty then throw .format
    let (path, query) ← splitPath tail
    return ⟨scheme, some (String.ofList authority), path, query⟩

/-- Read an identifier: a path with its query, or a scheme with an authority before them, or an
authority alone. -/
def read (text : String) : Except UriError Uri :=
  let cs := text.toList
  if 65534 < text.utf8ByteSize then .error .tooLong
  else
    match cs with
    | [] => .error .empty
    | ['*'] => .ok ⟨none, none, "*", none⟩
    | '/' :: _ => do
      let (path, query) ← splitPath cs
      return ⟨none, none, path, query⟩
    | _ => readFull cs

/-- The path; an empty one behind a scheme is the root. -/
def fullPath (uri : Uri) : String :=
  if uri.path.isEmpty && uri.scheme.isSome then "/" else uri.path

/-- The written form. -/
def text (uri : Uri) : String :=
  (uri.scheme.map fun scheme => scheme ++ "://").getD "" ++ uri.authority.getD "" ++
    uri.fullPath ++ (uri.query.map fun query => "?" ++ query).getD ""

/-! ### Addresses -/

/-- The host of an authority: what stands before the port and behind the user information. An
address in brackets keeps them. -/
def hostOf (authority : List Char) : List Char :=
  let hostPort := (authority.reverse.takeWhile (· != '@')).reverse
  match hostPort with
  | '[' :: _ => hostPort.takeWhile (· != ']') ++ [']']
  | _ => hostPort.takeWhile (· != ':')

/-- The port of an authority: the number behind its last colon. -/
def portOf? (authority : List Char) : Option Nat :=
  if authority.contains ':' then
    (Text.unsigned? (authority.reverse.takeWhile (· != ':')).reverse).filter (· < 65536)
  else none

/-- Where to connect to: the host and the port, 80 without one. -/
def address? (uri : Uri) : Option String :=
  uri.authority.map fun authority =>
    String.ofList (hostOf authority.toList) ++ ":" ++
      toString ((portOf? authority.toList).getD 80)

end Uri

end HeatPlacement
