import Exchange.Http.Rejection

/-!
Request targets.

A target is a path with an optional query (`/a?x=1`), an absolute form with scheme and authority in
front (`http://h/a`), an authority alone (`h:80`), or an asterisk. A fragment is cut off. The path
of an absolute form is never empty; that of an authority alone is.
-/
namespace Exchange.Http

structure Target where
  scheme : Option String := none
  authority : String := ""
  path : String := "/"
  query : Option String := none
  deriving DecidableEq, Repr

namespace Target

def render (t : Target) : String :=
  (match t.scheme with
    | none => ""
    | some s => s ++ "://") ++ t.authority ++ t.path ++
  (match t.query with
    | none => ""
    | some q => "?" ++ q)

/-! ### Character classes -/

def isPathChar (c : Char) : Bool :=
  let n := c.toNat
  n == 0x21 || n == 0x22 || (0x24 ≤ n && n ≤ 0x3b) || n == 0x3d || (0x40 ≤ n && n ≤ 0x5f) ||
    (0x61 ≤ n && n ≠ 0x7f)

def isQueryChar (c : Char) : Bool :=
  let n := c.toNat
  n == 0x21 || (0x24 ≤ n && n ≤ 0x3b) || n == 0x3d || (0x3f ≤ n && n ≠ 0x7f)

def isSchemeChar (c : Char) : Bool :=
  c.isAlphanum || c == '+' || c == '-' || c == '.' || c == '~'

def isAuthorityChar (c : Char) : Bool :=
  c.isAlphanum || "!$&'()*+,-.:;=@[]_~".toList.contains c

/-! ### Parts -/

/-- Reads the path and the query; the path of nothing is `/`. -/
def tail (cs : List Char) : Except TargetFault (String × Option String) := do
  let stop (c : Char) : Bool := c == '?' || c == '#'
  let path := cs.takeWhile (!stop ·)
  if !path.all isPathChar then throw .character
  let shown := if path.isEmpty then "/" else String.ofList path
  match cs.dropWhile (!stop ·) with
  | '?' :: rest =>
    let query := rest.takeWhile (· != '#')
    if query.all isQueryChar then return (shown, some (String.ofList query))
    else throw .character
  | _ => return (shown, none)

/-- What the characters of an authority have said so far. -/
structure AuthorityScan where
  colons : Nat := 0
  opened : Bool := false
  closed : Bool := false
  percent : Bool := false
  /-- the last character was an at sign -/
  atSign : Bool := false

/-- One character of an authority. An at sign ends the user information and a closing bracket a
literal address, so colons and percent signs before it do not count. -/
def AuthorityScan.step (s : AuthorityScan) (c : Char) : Except TargetFault AuthorityScan :=
  let s := { s with atSign := false }
  if c = ':' then
    if s.colons ≥ 8 then .error .authority else .ok { s with colons := s.colons + 1 }
  else if c = '[' then
    if s.percent || s.opened then .error .authority else .ok { s with opened := true }
  else if c = ']' then
    if !s.opened || s.closed then .error .authority
    else .ok { s with closed := true, colons := 0, percent := false }
  else if c = '@' then .ok { s with atSign := true, colons := 0, percent := false }
  else if c = '%' then .ok { s with percent := true }
  else if isAuthorityChar c then .ok s
  else .error .character

/-- Splits an authority off the front. -/
def splitAuthority (cs : List Char) : Except TargetFault (List Char × List Char) := do
  let stop (c : Char) : Bool := c == '/' || c == '?' || c == '#'
  let front := cs.takeWhile (!stop ·)
  let s ← front.foldlM AuthorityScan.step ({} : AuthorityScan)
  if s.opened != s.closed || s.colons > 1 || s.atSign || s.percent then throw .authority
  return (front, cs.dropWhile (!stop ·))

/-- A well-known scheme at the front, which may be written in any case. -/
def knownScheme? (cs : List Char) : Option (String × List Char) :=
  let starts (word : String) : Bool :=
    (cs.take word.length).map Char.toLower == word.toList
  if starts "http://" then some ("http", cs.drop 7)
  else if starts "https://" then some ("https", cs.drop 8)
  else none

/-- Splits a scheme off the front, if there is one. The scheme may be empty, but then something has
to follow it. -/
def splitScheme (cs : List Char) : Except TargetFault (Option String × List Char) :=
  match knownScheme? cs with
  | some (s, rest) => .ok (some s, rest)
  | none =>
    let front := cs.takeWhile isSchemeChar
    match cs.drop front.length with
    | ':' :: '/' :: '/' :: rest =>
      if front.isEmpty && rest.isEmpty then .ok (none, cs)
      else if front.length > 64 then .error .schemeTooLong
      else .ok (some (String.ofList front), rest)
    | _ => .ok (none, cs)

/-- Reads a request target. -/
def ofText? (s : String) : Except TargetFault Target := do
  if s.utf8ByteSize > 65534 then throw .tooLong
  match s.toList with
  | [] => throw .empty
  | ['*'] => return { path := "*" }
  | '/' :: rest =>
    let (path, query) ← tail ('/' :: rest)
    return { path, query }
  | [c] =>
    let (authority, rest) ← splitAuthority [c]
    if rest.isEmpty then return { authority := String.ofList authority, path := "" }
    else throw .character
  | cs =>
    let (scheme, rest) ← splitScheme cs
    let (authority, rest') ← splitAuthority rest
    match scheme with
    | none =>
      if rest'.isEmpty then return { authority := String.ofList authority, path := "" }
      else throw .format
    | some scheme =>
      if rest.isEmpty then throw .empty
      if authority.isEmpty then throw .format
      let (path, query) ← tail rest'
      return { scheme := some scheme, authority := String.ofList authority, path, query }

end Target

/-- Reads a request target. -/
def target? (s : String) : Except Rejection Target := (Target.ofText? s).mapError .target

end Exchange.Http
