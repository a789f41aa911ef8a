import Agenda.Address.Host
import Agenda.Number.Written

/-! # Addresses

Where something is found: a scheme, an authority made of credentials, a host and a port, a path, a
query and a fragment. An address is read into a normal form, in which scheme and host are in lower
case, every part holds only the characters that may stand in it, a path has no steps that lead
nowhere and a port is left out if it is the usual one. It is relative without scheme or host.
-/

namespace Agenda

structure Address where
  scheme : List Char := []
  credentials : List Char := []
  host : List Char := []
  port : Option Int := none
  path : List Char := []
  query : Option (List Char) := none
  fragment : Option (List Char) := none
deriving DecidableEq, Repr

namespace Address

/-! ## Writing -/

def authority (a : Address) : List Char :=
  (if a.credentials.isEmpty then [] else a.credentials ++ ['@']) ++
    (if a.host.contains ':' then '[' :: a.host ++ [']'] else a.host) ++
    (a.port.map fun n => ':' :: Text.ofInt n).getD []

/-- A part after its mark, nothing for a part that is missing. -/
def marked (mark : Char) : Option (List Char) → List Char
  | some cs => mark :: cs
  | none => []

def text (a : Address) : List Char :=
  (if a.scheme.isEmpty then [] else a.scheme ++ [':']) ++
    (if a.authority.isEmpty then [] else '/' :: '/' :: a.authority) ++
    a.path ++ marked '?' a.query ++ marked '#' a.fragment

/-! ## Reading -/

/-- The text before the first character in `p`, and the text from there on. -/
def cut (p : Char → Bool) (cs : List Char) : List Char × List Char :=
  (cs.takeWhile (!p ·), cs.dropWhile (!p ·))

/-- What follows a mark at the start of a text. -/
def behind? (mark : Char) : List Char → Option (List Char)
  | c :: cs => if c == mark then some cs else none
  | [] => none

def takeScheme (cs : List Char) : List Char × List Char :=
  let name := cs.takeWhile fun c => c.isAlphanum || c == '+' || c == '.' || c == '-'
  match cs.drop name.length with
  | ':' :: rest => if name.head?.all Char.isAlpha then (name, rest) else ([], cs)
  | _ => ([], cs)

/-- The credentials before the last at sign, and the rest. -/
def takeCredentials (cs : List Char) : List Char × List Char :=
  if cs.contains '@' then
    let tail := (cs.reverse.takeWhile (· != '@')).reverse
    (cs.take (cs.length - tail.length - 1), tail)
  else ([], cs)

/-- The host at the start of a text, with its brackets, and the rest. -/
def takeHost (cs : List Char) : List Char × List Char :=
  if cs.head? == some '[' && cs.contains ']' then
    let tail := (cs.reverse.takeWhile (· != ']')).reverse
    (cs.take (cs.length - tail.length), tail)
  else cut (· == ':') cs

def usualPort? (scheme : List Char) : Option Int :=
  [("ftp", 21), ("http", 80), ("https", 443), ("ws", 80), ("wss", 443)].lookup (String.ofList scheme)

/-- The port that a text names, none if it is empty or names the usual port of the scheme. -/
def port? (scheme cs : List Char) : Option (Option Int) :=
  if cs.isEmpty then some none
  else (Written.looseWhole? cs).map fun n => if usualPort? scheme == some n then none else some n

/-- The steps of a path without those that stand for the place reached or for the one above it. -/
def walk (reached : List (List Char)) : List (List Char) → List (List Char)
  | [] => reached.reverse
  | step :: steps =>
    if step = ['.'] then walk reached steps
    else if step = ['.', '.'] then
      walk (if reached = [[]] then reached else reached.drop 1) steps
    else walk (step :: reached) steps

def direct (path : List Char) : List Char :=
  List.intercalate ['/'] (walk [] (path.splitOnP (· == '/')))

/-- A path goes on from an authority with a slash. Without scheme and authority it starts neither
with two slashes nor with a colon. -/
def pathAllowed (scheme authority : Bool) (path : List Char) : Bool :=
  (!authority || path.isEmpty || path.head? == some '/') &&
    (scheme || authority || (path.take 2 != ['/', '/'] && path.head? != some ':'))

/-- No address is longer than this. -/
def lengthLimit : Nat := 65536

def ofText? (cs : List Char) : Option Address := do
  if lengthLimit < cs.length || cs.any (fun c => c.toNat < 32 || c.toNat = 127) then none
  let (scheme, rest) := takeScheme cs
  let (authority, rest) := match rest with
    | '/' :: '/' :: rest => cut (fun c => c == '/' || c == '?' || c == '#') rest
    | _ => ([], rest)
  let (path, rest) := cut (fun c => c == '?' || c == '#') rest
  let (query, rest) := match behind? '?' rest with
    | some rest => (some (cut (· == '#') rest).1, (cut (· == '#') rest).2)
    | none => (none, rest)
  let (credentials, place) := takeCredentials authority
  let (host, place) := takeHost place
  let host ← host? host
  let port ← port? scheme ((behind? ':' place).getD place)
  let credentials := escape (plainBut "\"#<>?`\x7b\x7d/;=@[\\]^|") credentials
  let placed := !credentials.isEmpty || !host.isEmpty || port.isSome
  if !pathAllowed (!scheme.isEmpty) placed path then none
  let path := if !scheme.isEmpty || placed then direct path else path
  return {
    scheme := Text.lower scheme
    credentials
    host
    port
    path := escape (plainBut "\"#<>?`\x7b\x7d") path
    query := query.map (escape (plainBut "\"#<>"))
    fragment := (behind? '#' rest).map (escape (plainBut "\"<>`")) }

/-! ## Use -/

def relative (a : Address) : Bool :=
  a.scheme.isEmpty || a.host.isEmpty

/-- An address with nothing but its path and its query, below the root; an absolute one is kept. -/
def rooted (a : Address) : Address :=
  if a.relative then { path := '/' :: a.path.dropWhile (· == '/'), query := a.query } else a

def login? (a : Address) : Option (List Char × List Char) :=
  let name := unescape (cut (· == ':') a.credentials).1
  let password := unescape ((behind? ':' (cut (· == ':') a.credentials).2).getD [])
  if name.isEmpty && password.isEmpty then none else some (name, password)

end Address

end Agenda
