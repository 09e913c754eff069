import IndexingPipeline.Identifier
import IndexingPipeline.Number.Binary

/-!
# Addresses

The address of a service as a request names it: the scheme and host in small letters, no port
that goes without saying, no dots in the path, and everything that may not stand for itself
written as its bytes. An address without a scheme or host is no address; one whose scheme is
not that of a web server cannot be asked.
-/

namespace IndexingPipeline.Url

/-- Why nothing can be sent to an address; the second keeps the address. -/
inductive Fault where
  | malformed
  | badScheme (url : String)
  deriving DecidableEq, Repr

def percentByte (b : UInt8) : List Char :=
  '%' :: (Identifier.hex 2 b.toNat).map Char.toUpper

/-- A character, or its bytes when it is in a set or no printable ASCII. -/
def escapeChar (set : List Char) (c : Char) : List Char :=
  if c.toNat < 0x20 || 0x7E < c.toNat || set.contains c then
    (String.ofList [c]).toUTF8.toList.flatMap percentByte
  else [c]

def escape (set : List Char) (s : List Char) : List Char := s.flatMap (escapeChar set)

def fragmentSet : List Char := [' ', '"', '<', '>', '\x60']

def pathSet : List Char := fragmentSet ++ ['#', '?', '\x7b', '\x7d']

def querySet : List Char := [' ', '"', '#', '<', '>', '\'']

/-- The port that a scheme has when none is named. -/
def defaultPort? : String → Option Nat
  | "http" => some 80
  | "https" => some 443
  | "ws" => some 80
  | "wss" => some 443
  | "ftp" => some 21
  | _ => none

/-- Whether an address of this scheme names a host after two slashes, however many it has. -/
def isSpecial (scheme : String) : Bool := (defaultPort? scheme).isSome

/-- The scheme and what follows its colon. -/
def scheme? (s : List Char) : Option (String × List Char) :=
  let name := s.takeWhile fun c => c.isAlphanum || c == '+' || c == '-' || c == '.'
  match name, s.drop name.length with
  | c :: _, ':' :: rest =>
    if c.isAlpha then some (String.ofList (name.map Char.toLower), rest) else none
  | _, _ => none

def hexDigit? (c : Char) : Option Nat :=
  if c.isDigit then some (c.toNat - '0'.toNat)
  else if 'a' ≤ c ∧ c ≤ 'f' then some (c.toNat - 'a'.toNat + 10)
  else if 'A' ≤ c ∧ c ≤ 'F' then some (c.toNat - 'A'.toNat + 10)
  else none

/-- A text with its percent signs taken as the bytes they write, as far as these are ASCII. -/
def unescape : List Char → List Char
  | '%' :: a :: b :: rest =>
    match hexDigit? a, hexDigit? b with
    | some x, some y => Char.ofNat (16 * x + y) :: unescape rest
    | _, _ => '%' :: unescape (a :: b :: rest)
  | c :: rest => c :: unescape rest
  | [] => []

def isForbiddenInHost (c : Char) : Bool :=
  c.toNat ≤ 0x20 || 0x7E < c.toNat ||
    ['#', '/', ':', '<', '>', '?', '@', '[', '\\', ']', '^', '|', '%'].contains c

def digitsIn? (base : Nat) (s : List Char) : Option Nat :=
  s.foldlM (fun n c => do
    let d ← hexDigit? c
    if d < base then some (n * base + d) else none) 0

/-- A part of a numeric host: decimal, octal after a zero, hexadecimal after `0x`. -/
def numericPart? : List Char → Option Nat
  | '0' :: 'x' :: rest => digitsIn? 16 rest
  | '0' :: c :: rest => digitsIn? 8 (c :: rest)
  | [] => none
  | s => digitsIn? 10 s

/-- Whether the last part of a host makes it a numeric one. -/
def isNumericHost (parts : List (List Char)) : Bool :=
  match parts.getLast? with
  | some last => (!last.isEmpty && last.all Char.isDigit) || (last.length ≥ 2 &&
      last.take 2 == ['0', 'x'] && (numericPart? last).isSome)
  | none => false

def numericHost? (parts : List (List Char)) : Option (List Char) := do
  let numbers ← parts.mapM numericPart?
  let last ← numbers.getLast?
  let front := numbers.dropLast
  if 3 < front.length || front.any (255 < ·) || Nat.pow 256 (4 - front.length) ≤ last then none
  else
    let whole := front.zipIdx.foldl (fun n (b, i) => n + b * Nat.pow 256 (3 - i)) last
    let bytes := [whole / Number.twoTo 24, whole / Number.twoTo 16 % 256, whole / 256 % 256,
      whole % 256]
    return ".".intercalate (bytes.map toString) |>.toList

def splitAt (c : Char) (s : List Char) : List (List Char) :=
  ((String.ofList s).splitOn (String.ofList [c])).map String.toList

def host? (s : List Char) : Option (List Char) :=
  match s with
  | '[' :: rest =>
    let inner := rest.takeWhile (· ≠ ']')
    if rest.drop inner.length == [']'] && !inner.isEmpty &&
        inner.all (fun c => (hexDigit? c).isSome || c == ':' || c == '.') then
      some (s.map Char.toLower)
    else none
  | s =>
    let name := (unescape s).map Char.toLower
    if name.isEmpty || name.any isForbiddenInHost then none
    else
      let parts := splitAt '.' name
      let parts := if parts.getLast? = some [] && 1 < parts.length then parts.dropLast else parts
      if isNumericHost parts then numericHost? parts else some name

/-- The host and port of an authority, without the name of a user. -/
def authority? (scheme : String) (s : List Char) : Option (List Char) := do
  let s := (s.reverse.takeWhile (· ≠ '@')).reverse
  let (name, port) :=
    match s with
    | '[' :: _ =>
      let inner := s.takeWhile (· ≠ ']')
      (inner ++ (s.drop inner.length).take 1, s.drop (inner.length + 1))
    | s =>
      let name := s.takeWhile (· ≠ ':')
      (name, s.drop name.length)
  let name ← host? name
  match port with
  | [] => return name
  | ':' :: ds =>
    if !ds.all Char.isDigit then none
    else if ds.isEmpty then return name
    else
      let n ← digitsIn? 10 ds
      if 65535 < n then none
      else if defaultPort? scheme = some n then return name
      else return name ++ ':' :: (toString n).toList
  | _ => none

def isDot (s : List Char) : Bool := s == ['.'] || s.map Char.toLower == ['%', '2', 'e']

def isDoubleDot (s : List Char) : Bool :=
  ["..", ".%2e", "%2e.", "%2e%2e"].any (·.toList == s.map Char.toLower)

/-- The segments of a path with dots carried out; `found` holds those read, last first. -/
def segments (found : List (List Char)) : List (List Char) → List (List Char)
  | [] => found.reverse
  | [s] =>
    if isDoubleDot s then ([] :: found.drop 1).reverse
    else if isDot s then ([] :: found).reverse
    else (escape pathSet s :: found).reverse
  | s :: rest =>
    if isDoubleDot s then segments (found.drop 1) rest
    else if isDot s then segments found rest
    else segments (escape pathSet s :: found) rest

def isSlash (c : Char) : Bool := c == '/' || c == '\\'

def path (s : List Char) : List Char :=
  let s := s.map fun c => if c == '\\' then '/' else c
  let parts := splitAt '/' (s.drop 1)
  (segments [] parts).flatMap ('/' :: ·)

/-- A query and a fragment, each with its sign. -/
def ending (s : List Char) : List Char :=
  let query := s.takeWhile (· ≠ '#')
  let fragment := s.drop query.length
  (match query with
    | '?' :: q => '?' :: escape querySet q
    | _ => []) ++
  (match fragment with
    | '#' :: f => '#' :: escape fragmentSet f
    | _ => [])

/-- Without blanks and controls at the ends, and without tabs and line ends. -/
def tidy (s : List Char) : List Char :=
  let isEdge (c : Char) : Bool := c.toNat ≤ 0x20
  let core := ((s.dropWhile isEdge).reverse.dropWhile isEdge).reverse
  core.filter fun c => c != '\t' && c != '\n' && c != '\r'

/-- The address that a text spells, in the form in which it is asked and reported. -/
def read (text : String) : Except Fault String :=
  match scheme? (tidy text.toList) with
  | none => .error .malformed
  | some (scheme, rest) =>
    if isSpecial scheme then
      let rest := rest.dropWhile isSlash
      let place := rest.takeWhile fun c => !(isSlash c || c == '?' || c == '#')
      match authority? scheme place with
      | none => .error .malformed
      | some host =>
        let rest := rest.drop place.length
        let way := rest.takeWhile fun c => c != '?' && c != '#'
        let url := scheme ++ "://" ++
          String.ofList (host ++ path way ++ ending (rest.drop way.length))
        if scheme = "http" ∨ scheme = "https" then .ok url else .error (.badScheme url)
    else .error (.badScheme (scheme ++ ":" ++ String.ofList (escape [] rest)))

/-- What is said of an address that nothing can be sent to. -/
def Fault.message : Fault → String
  | .malformed => "builder error"
  | .badScheme url => "builder error for url (" ++ url ++ ")"


end IndexingPipeline.Url
