import IndexingPipeline.Json.Text

/-!
# Written values

A `Tree` is a JSON text taken apart and nothing more: numbers and texts stand as they are
spelled, and members in the order written, repeated names included. `Tree.read?` takes a whole
text apart, `Tree.render` writes the compact form. What a number or a repeated name means is
left to the readers of trees, which differ on it.
-/

namespace IndexingPipeline.Json

inductive Tree where
  | null
  | bool (value : Bool)
  | number (spelling : List Char)
  | text (spelling : List Char)
  | list (items : List Tree)
  | object (members : List (List Char × Tree))
  deriving Inhabited

def Tree.ofString (s : String) : Tree := .text (encode s.toList)

def Tree.ofInt (n : Int) : Tree := .number (toString n).toList

def member (name : String) (t : Tree) : List Char × Tree := (encode name.toList, t)

mutual

/-- The compact form: no blanks, members in order. -/
def Tree.render : Tree → List Char
  | .null => ['n', 'u', 'l', 'l']
  | .bool true => ['t', 'r', 'u', 'e']
  | .bool false => ['f', 'a', 'l', 's', 'e']
  | .number s => s
  | .text s => '"' :: s ++ ['"']
  | .list items => '[' :: renderItems items
  | .object members => '{' :: renderMembers members

def renderItems : List Tree → List Char
  | [] => [']']
  | [t] => t.render ++ [']']
  | t :: u :: rest => t.render ++ ',' :: renderItems (u :: rest)

def renderMembers : List (List Char × Tree) → List Char
  | [] => ['}']
  | [(name, t)] => '"' :: name ++ '"' :: ':' :: t.render ++ ['}']
  | (name, t) :: m :: rest =>
    '"' :: name ++ '"' :: ':' :: t.render ++ ',' :: renderMembers (m :: rest)

end

def Tree.compact (t : Tree) : String := String.ofList t.render

/-- The four blanks that may stand between tokens. -/
def isSpace (c : Char) : Bool := c == ' ' || c == '\t' || c == '\n' || c == '\r'

def skipSpace (s : List Char) : List Char := s.dropWhile isSpace

/-- The longest run of digits, and what follows it. -/
def digits (s : List Char) : List Char × List Char :=
  (s.takeWhile Char.isDigit, s.dropWhile Char.isDigit)

/-- The digits before the point: zero alone, or digits that start with another one. -/
def readWhole (s : List Char) : Option (List Char × List Char) :=
  match digits s with
  | ([], _) => none
  | ('0' :: _ :: _, _) => none
  | (ds, rest) => some (ds, rest)

/-- A point and at least one digit, or nothing. -/
def readFraction (s : List Char) : Option (List Char × List Char) :=
  match s with
  | '.' :: rest =>
    match digits rest with
    | ([], _) => none
    | (ds, rest) => some ('.' :: ds, rest)
  | _ => some ([], s)

/-- An exponent mark, perhaps a sign, and at least one digit, or nothing. -/
def readExponent (s : List Char) : Option (List Char × List Char) :=
  match s with
  | e :: rest =>
    if e = 'e' ∨ e = 'E' then
      let (sign, rest) := match rest with
        | '+' :: r => (['+'], r)
        | '-' :: r => (['-'], r)
        | r => ([], r)
      match digits rest with
      | ([], _) => none
      | (ds, rest) => some (e :: sign ++ ds, rest)
    else some ([], s)
  | [] => some ([], s)

def readNumber (s : List Char) : Option (List Char × List Char) := do
  let (sign, s) := match s with
    | '-' :: r => (['-'], r)
    | r => ([], r)
  let (whole, s) ← readWhole s
  let (fraction, s) ← readFraction s
  let (exponent, s) ← readExponent s
  return (sign ++ whole ++ fraction ++ exponent, s)

/-- Items read by `item`, separated by commas, up to the closing bracket. The bound is on the
number of items; the length of the text is always enough. -/
def readItems (item : List Char → Option (α × List Char)) (close : Char) :
    Nat → List Char → Option (List α × List Char)
  | 0, _ => none
  | bound + 1, s => do
    let (x, s) ← item s
    match skipSpace s with
    | c :: rest =>
      if c = close then return ([x], rest)
      else if c = ',' then
        let (xs, rest) ← readItems item close bound rest
        return (x :: xs, rest)
      else none
    | [] => none

/-- A bracketed sequence after its opening bracket, perhaps empty. -/
def readSequence (item : List Char → Option (α × List Char)) (close : Char) (s : List Char) :
    Option (List α × List Char) :=
  match skipSpace s with
  | c :: rest => if c = close then some ([], rest) else readItems item close s.length s
  | [] => none

def readMember (value : List Char → Option (Tree × List Char)) (s : List Char) :
    Option ((List Char × Tree) × List Char) :=
  match skipSpace s with
  | '"' :: rest => do
    let (name, rest) ← spelled rest
    match skipSpace rest with
    | ':' :: rest =>
      let (t, rest) ← value rest
      return ((name, t), rest)
    | _ => none
  | _ => none

/-- One value at the head of a text, with at most `depth` brackets open at a time. -/
def Tree.readPart (depth : Nat) (s : List Char) : Option (Tree × List Char) :=
  match skipSpace s with
  | 'n' :: 'u' :: 'l' :: 'l' :: rest => some (.null, rest)
  | 't' :: 'r' :: 'u' :: 'e' :: rest => some (.bool true, rest)
  | 'f' :: 'a' :: 'l' :: 's' :: 'e' :: rest => some (.bool false, rest)
  | '"' :: rest => (spelled rest).map fun (t, rest) => (.text t, rest)
  | '[' :: rest =>
    match depth with
    | 0 => none
    | depth + 1 =>
      (readSequence (Tree.readPart depth) ']' rest).map fun (ts, rest) => (.list ts, rest)
  | '{' :: rest =>
    match depth with
    | 0 => none
    | depth + 1 =>
      (readSequence (readMember (Tree.readPart depth)) '}' rest).map fun (ms, rest) =>
        (.object ms, rest)
  | s => (readNumber s).map fun (n, rest) => (.number n, rest)

def Tree.read? (depth : Nat) (s : List Char) : Option Tree := do
  let (t, rest) ← Tree.readPart depth s
  if skipSpace rest = [] then some t else none

/-- A whole text in which brackets may be nested as deep as they come. -/
def Tree.readDeep? (s : List Char) : Option Tree := Tree.read? s.length s

end IndexingPipeline.Json
