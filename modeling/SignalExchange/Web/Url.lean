import SignalExchange.Web.HostName

/-! Addresses of web resources, brought into the form in which they are requested. -/

set_option autoImplicit false

namespace SignalExchange

structure Url where
  /-- Scheme and host, with the number of the service if it is not the usual one. -/
  origin : String
  path : String
  query : Option String
  deriving DecidableEq, Repr

namespace Url

/-! Form coding -/

def keptInForms (c : Char) : Bool :=
  ('a' ≤ c && c ≤ 'z') || ('A' ≤ c && c ≤ 'Z') || ('0' ≤ c && c ≤ '9') ||
    c = '*' || c = '-' || c = '.' || c = '_'

def formEncode (text : String) : List Char :=
  text.toList.flatMap fun c =>
    if keptInForms c then [c] else if c = ' ' then ['+'] else percentEncode c

def formPair (pair : String × String) : List Char :=
  formEncode pair.1 ++ '=' :: formEncode pair.2

/-- Adds a pair to what a query holds. -/
def addPair (query : Option String) (pair : String × String) : Option String :=
  let coded := String.ofList (formPair pair)
  match query with
  | none => some coded
  | some query => some (if query = "" then coded else query ++ "&" ++ coded)

/-- A query that is left without text is dropped. -/
def addPairs (url : Url) (pairs : List (String × String)) : Url :=
  { url with query := (pairs.foldl addPair url.query).filter (· ≠ "") }

/-- What a request names at its host. -/
def target (url : Url) : String :=
  match url.query with
  | none => url.path
  | some query => url.path ++ "?" ++ query

/-! Reading -/

def isControlOrBeyondAscii (c : Char) : Bool := c.toNat < 32 || 126 < c.toNat

def codedInPath (c : Char) : Bool :=
  isControlOrBeyondAscii c || c ∈ [' ', '"', '#', '<', '>', '?', '`', '\x7b', '\x7d']

def codedInQuery (c : Char) : Bool :=
  isControlOrBeyondAscii c || c ∈ [' ', '"', '#', '<', '>', '\'']

def encodeWhere (coded : Char → Bool) (text : List Char) : List Char :=
  text.flatMap fun c => if coded c then percentEncode c else [c]

def isSlash (c : Char) : Bool := c = '/' || c = '\\'

def lowercase (text : List Char) : String := String.ofList (text.map Char.toLower)

def isHere (segment : List Char) : Bool := lowercase segment ∈ [".", "%2e"]

def isParent (segment : List Char) : Bool :=
  lowercase segment ∈ ["..", ".%2e", "%2e.", "%2e%2e"]

/-- A segment that names a drive. -/
def isDrive : List Char → Bool
  | [letter, mark] => letter.isAlpha && (mark = ':' || mark = '|')
  | _ => false

/-- The way to the outer level, in reverse. No step leads out of a drive. -/
def leave : List (List Char) → List (List Char)
  | [] => []
  | segment :: outer => if isDrive segment then segment :: outer else outer

/-- Resolves segments that stand for the same or the outer level; `outer` is in reverse. -/
def resolveSegments (outer : List (List Char)) : List (List Char) → List (List Char)
  | [] => outer.reverse
  | segment :: rest =>
    if isParent segment then
      resolveSegments (if rest = [] then [] :: leave outer else leave outer) rest
    else if isHere segment then resolveSegments (if rest = [] then [] :: outer else outer) rest
    else resolveSegments (segment :: outer) rest

def normalPath (path : List Char) : String :=
  let parts := match path with
    | [] => [[]]
    | _ :: rest => rest.splitOnP isSlash
  String.ofList ((resolveSegments [] parts).flatMap fun segment =>
    '/' :: encodeWhere codedInPath segment)

/-- The number of the service at a host; an empty one stands for the usual one. -/
def service? (usual : Nat) (text : List Char) : Option Nat :=
  if text = [] then some usual
  else if text.all isDigit ∧ digitsValue text ≤ 65535 then some (digitsValue text)
  else none

/-- A host and what follows it. The colons inside brackets belong to the host. -/
def splitHost : Bool → List Char → List Char × List Char
  | _, [] => ([], [])
  | inside, c :: rest =>
    if c = ':' ∧ ¬inside then ([], c :: rest)
    else
      let (host, after) := splitHost (c = '[' || (inside && c ≠ ']')) rest
      (c :: host, after)

/-- Host and service in the form in which they are compared: the usual service is left out. -/
def normalHost (usual : Nat) (authority : List Char) : Option String := do
  let afterUser := (authority.reverse.takeWhile (· ≠ '@')).reverse
  let (host, after) := splitHost false afterUser
  let host ← readHost host
  let service ← service? usual (after.drop 1)
  if service = usual then return host
  else return host ++ ":" ++ String.ofList (Nat.toDigits 10 service)

/-- The scheme with its usual service, and what follows the colon. -/
def scheme? (text : List Char) : Option (String × Nat × List Char) :=
  let name := lowercase (text.takeWhile (· ≠ ':'))
  match text.dropWhile (· ≠ ':') with
  | [] => none
  | _ :: rest =>
    if name = "http" then some (name, 80, rest)
    else if name = "https" then some (name, 443, rest)
    else none

def endsAuthority (c : Char) : Bool := isSlash c || c = '?' || c = '#'

/-- White space around an address, and line breaks within, do not count. -/
def trimmed (text : List Char) : List Char :=
  let fromStart := text.dropWhile (·.toNat ≤ 32)
  let bare := (fromStart.reverse.dropWhile (·.toNat ≤ 32)).reverse
  bare.filter fun c => c ∉ ['\t', '\n', '\r']

/-- An absolute address of the web; the part after `#` is dropped. -/
def read (text : String) : Option Url := do
  let (scheme, usual, rest) ← scheme? (trimmed text.toList)
  let rest := rest.dropWhile isSlash
  let host ← normalHost usual (rest.takeWhile (!endsAuthority ·))
  let rest := (rest.dropWhile (!endsAuthority ·)).takeWhile (· ≠ '#')
  return {
    origin := scheme ++ "://" ++ host
    path := normalPath (rest.takeWhile (· ≠ '?'))
    query := match rest.dropWhile (· ≠ '?') with
      | [] => none
      | _ :: query => some (String.ofList (encodeWhere codedInQuery query)) }

end Url

end SignalExchange
