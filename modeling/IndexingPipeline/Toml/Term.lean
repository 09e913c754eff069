import IndexingPipeline.Number.Binary
import IndexingPipeline.Json.Text

/-!
# Written values of a configuration text

The right-hand side of an assignment as it is written: texts in their four quotings, whole
numbers in four bases, points and exponents, dates and times, lists over several lines, and
tables on one line whose names may still clash. Each reader takes the head of the text and gives
what follows.
-/

namespace IndexingPipeline.Toml

open Number (Double)

inductive Term where
  | text (s : String)
  | integer (n : Int)
  | real
  | bool (value : Bool)
  | moment (spelling : String)
  | list (items : List Term)
  | table (entries : List (List String × Term))
  deriving Inhabited

/-- Names in a row may be this many at most, and brackets may be open one less deep. -/
def depthLimit : Nat := 80

def isBlank (c : Char) : Bool := c == ' ' || c == '\t'

def skipBlank (s : List Char) : List Char := s.dropWhile isBlank

def inComment (c : Char) : Bool := c == '\t' || (32 ≤ c.toNat && c.toNat ≠ 127)

def newline? : List Char → Option (List Char)
  | '\n' :: rest => some rest
  | '\r' :: '\n' :: rest => some rest
  | _ => none

def skipComment (s : List Char) : List Char :=
  match skipBlank s with
  | '#' :: rest => rest.dropWhile inComment
  | s => s

/-- Past blanks, comments and line ends, at most `bound` of the latter. -/
def skipLines : Nat → List Char → List Char
  | 0, s => s
  | bound + 1, s =>
    match newline? (skipComment s) with
    | some rest => skipLines bound rest
    | none => s

/-- The character with that number, when there is one. -/
def scalar? (n : Nat) : Option Char := if n.isValidChar then some (Char.ofNat n) else none

def hexNumber? (ds : List Char) : Option Nat :=
  ds.foldlM (fun n c => (Json.hexDigit? c).map (n * 16 + ·)) 0

/-- What an escape stands for, after its backslash. -/
def readEscape : List Char → Option (Char × List Char)
  | 'b' :: rest => some ('\x08', rest)
  | 't' :: rest => some ('\t', rest)
  | 'n' :: rest => some ('\n', rest)
  | 'f' :: rest => some ('\x0c', rest)
  | 'r' :: rest => some ('\r', rest)
  | '"' :: rest => some ('"', rest)
  | '\\' :: rest => some ('\\', rest)
  | 'u' :: rest => do
    if rest.length < 4 then none
    let n ← hexNumber? (rest.take 4)
    return (← scalar? n, rest.drop 4)
  | 'U' :: rest => do
    if rest.length < 8 then none
    let n ← hexNumber? (rest.take 8)
    return (← scalar? n, rest.drop 8)
  | _ => none

/-- Past blanks and line ends, at most `bound` of the latter. -/
def skipEmptyLines : Nat → List Char → List Char
  | 0, s => s
  | bound + 1, s =>
    match newline? (skipBlank s) with
    | some rest => skipEmptyLines bound rest
    | none => skipBlank s

/-- Whether a backslash here hides the end of the line and the blanks of the next ones. -/
def hiddenLineEnd? (s : List Char) : Option (List Char) :=
  (newline? (skipBlank s)).map fun rest => skipEmptyLines rest.length rest

/-- A text on one line after its opening quote; escapes only between double quotes. -/
def readLineText (quote : Char) : Nat → List Char → Option (List Char × List Char)
  | 0, _ => none
  | bound + 1, s =>
    match s with
    | [] => none
    | c :: rest =>
      if c = quote then some ([], rest)
      else if c = '\\' ∧ quote = '"' then do
        let (c, rest) ← readEscape rest
        let (cs, rest) ← readLineText quote bound rest
        return (c :: cs, rest)
      else if inComment c then do
        let (cs, rest) ← readLineText quote bound rest
        return (c :: cs, rest)
      else none

/-- A text over several lines after its three opening quotes. Up to two quotes may stand just
before the three closing ones, and every line end is read as one character. -/
def readBlockText (quote : Char) : Nat → List Char → Option (List Char × List Char)
  | 0, _ => none
  | bound + 1, s =>
    match s with
    | [] => none
    | c :: rest =>
      if c = quote then
        let run := s.takeWhile (· == quote)
        if run.length < 3 then do
          let (cs, rest) ← readBlockText quote bound (s.drop run.length)
          return (run ++ cs, rest)
        else if run.length ≤ 5 then some (run.drop 3, s.drop run.length)
        else none
      else if c = '\\' ∧ quote = '"' then
        match hiddenLineEnd? rest with
        | some rest => readBlockText quote bound rest
        | none => do
          let (c, rest) ← readEscape rest
          let (cs, rest) ← readBlockText quote bound rest
          return (c :: cs, rest)
      else
        match newline? s with
        | some rest => do
          let (cs, rest) ← readBlockText quote bound rest
          return ('\n' :: cs, rest)
        | none =>
          if inComment c then do
            let (cs, rest) ← readBlockText quote bound rest
            return (c :: cs, rest)
          else none

def readText (s : List Char) : Option (List Char × List Char) :=
  let block (quote : Char) (rest : List Char) :=
    readBlockText quote (rest.length + 1) ((newline? rest).getD rest)
  match s with
  | '"' :: '"' :: '"' :: rest => block '"' rest
  | '\'' :: '\'' :: '\'' :: rest => block '\'' rest
  | '"' :: rest => readLineText '"' (rest.length + 1) rest
  | '\'' :: rest => readLineText '\'' (rest.length + 1) rest
  | _ => none

def inBareName (c : Char) : Bool := c.isAlphanum || c == '_' || c == '-'

def readName (s : List Char) : Option (String × List Char) :=
  match s with
  | '"' :: rest =>
    (readLineText '"' (rest.length + 1) rest).map fun (cs, rest) => (String.ofList cs, rest)
  | '\'' :: rest =>
    (readLineText '\'' (rest.length + 1) rest).map fun (cs, rest) => (String.ofList cs, rest)
  | s =>
    match s.takeWhile inBareName with
    | [] => none
    | cs => some (String.ofList cs, s.dropWhile inBareName)

/-- Names with points between them, blanks allowed around each. -/
def readNames : Nat → List Char → Option (List String × List Char)
  | 0, _ => none
  | bound + 1, s => do
    let (name, rest) ← readName (skipBlank s)
    match skipBlank rest with
    | '.' :: rest =>
      let (names, rest) ← readNames bound rest
      return (name :: names, rest)
    | rest => return ([name], rest)

def readPath (s : List Char) : Option (List String × List Char) := readNames (depthLimit - 1) s

/-- Digits with single underscores between them, without the underscores; whether a digit stands
in front of them says if an underscore may come first. -/
def separatedFrom? (isDigit : Char → Bool) : Bool → List Char → Option (List Char)
  | afterDigit, [] => if afterDigit then some [] else none
  | afterDigit, c :: rest =>
    if c = '_' then (if afterDigit then separatedFrom? isDigit false rest else none)
    else if isDigit c then (separatedFrom? isDigit true rest).map (c :: ·)
    else none

/-- Digits of a base with single underscores between them, without the underscores. -/
def separated? (isDigit : Char → Bool) (s : List Char) : Option (List Char) :=
  separatedFrom? isDigit false s

def bounded? (n : Int) : Option Int := 
  if -(Number.twoTo 63 : Int) ≤ n ∧ n < Number.twoTo 63 then some n else none

def numberIn (base : Nat) (ds : List Char) : Nat :=
  ds.foldl (fun n c => n * base + (Json.hexDigit? c).getD 0) 0

def splitSign : List Char → Bool × List Char
  | '-' :: rest => (true, rest)
  | '+' :: rest => (false, rest)
  | s => (false, s)

/-- Decimal digits that do not start with a zero before another digit. -/
def decimal? (s : List Char) : Option (List Char) := do
  let ds ← separated? Char.isDigit s
  match ds with
  | '0' :: _ :: _ => none
  | ds => some ds

/-- A whole number: decimal with a sign, or hexadecimal, octal or binary without one. -/
def integer? (s : List Char) : Option Int :=
  match s with
  | '0' :: 'x' :: ds => do
    let ds ← separated? (fun c => (Json.hexDigit? c).isSome) ds
    bounded? (numberIn 16 ds)
  | '0' :: 'o' :: ds => do
    let ds ← separated? (fun c => '0' ≤ c && c ≤ '7') ds
    bounded? (numberIn 8 ds)
  | '0' :: 'b' :: ds => do
    let ds ← separated? (fun c => c == '0' || c == '1') ds
    bounded? (numberIn 2 ds)
  | s => do
    let (negative, s) := splitSign s
    let ds ← decimal? s
    let n : Int := numberIn 10 ds
    bounded? (if negative then -n else n)

/-- A number with a point or an exponent or both, or one of the words for infinity and for no
number. A number too large to be finite is refused, unless it is negative. -/
def isReal (s : List Char) : Bool :=
  let (negative, s) := splitSign s
  if s = ['i', 'n', 'f'] ∨ s = ['n', 'a', 'n'] then true
  else
    let isMark (c : Char) : Bool := c == 'e' || c == 'E'
    let mantissa := s.takeWhile (!isMark ·)
    let exponent := s.dropWhile (!isMark ·)
    let whole := mantissa.takeWhile (· ≠ '.')
    let fraction := mantissa.dropWhile (· ≠ '.')
    let part (s : List Char) : Option (List Char) :=
      match s with
      | [] => some []
      | _ :: ds => separated? Char.isDigit ds
    let power : Option Int :=
      match exponent with
      | [] => some 0
      | _ :: s => do
        let (down, s) := splitSign s
        let ds ← separated? Char.isDigit s
        let n : Int := numberIn 10 ds
        return if down then -n else n
    match decimal? whole, part fraction, power with
    | some w, some f, some e =>
      (!fraction.isEmpty || !exponent.isEmpty) &&
        (negative || (Double.ofDecimal false (numberIn 10 (w ++ f)) (e - f.length)).isFinite)
    | _, _, _ => false

def pair? (low high : Nat) : List Char → Option (Nat × List Char)
  | a :: b :: rest =>
    if a.isDigit ∧ b.isDigit then
      let n := numberIn 10 [a, b]
      if low ≤ n ∧ n ≤ high then some (n, rest) else none
    else none
  | _ => none

def daysIn (year month : Nat) : Nat :=
  if month = 2 then
    if (year % 4 = 0 ∧ year % 100 ≠ 0) ∨ year % 400 = 0 then 29 else 28
  else if month = 4 ∨ month = 6 ∨ month = 9 ∨ month = 11 then 30
  else 31

def readDate (s : List Char) : Option (List Char) :=
  match s with
  | a :: b :: c :: d :: '-' :: rest => do
    if !(a.isDigit && b.isDigit && c.isDigit && d.isDigit) then none
    let (month, rest) ← pair? 1 12 rest
    match rest with
    | '-' :: rest =>
      let (_, rest) ← pair? 1 (daysIn (numberIn 10 [a, b, c, d]) month) rest
      return rest
    | _ => none
  | _ => none

def readClock (s : List Char) : Option (List Char) := do
  let (_, s) ← pair? 0 23 s
  match s with
  | ':' :: s =>
    let (_, s) ← pair? 0 59 s
    match s with
    | ':' :: s =>
      let (_, s) ← pair? 0 60 s
      match s with
      | '.' :: c :: s => if c.isDigit then some (s.dropWhile Char.isDigit) else none
      | s => some s
    | _ => none
  | _ => none

/-- Past a distance from universal time, if there is one. -/
def readOffset (s : List Char) : Option (List Char) :=
  match s with
  | 'Z' :: s => some s
  | 'z' :: s => some s
  | c :: rest =>
    if c = '+' ∨ c = '-' then do
      let (_, s) ← pair? 0 23 rest
      match s with
      | ':' :: s => (pair? 0 59 s).map (·.2)
      | _ => none
    else some s
  | [] => some []

/-- A date, a time, or both with or without an offset. -/
def isMoment (s : List Char) : Bool :=
  match readDate s with
  | some [] => true
  | some (c :: s) =>
    (c == 'T' || c == 't' || c == ' ') && ((readClock s).bind readOffset) == some []
  | none => readClock s == some []

def endsWord (c : Char) : Bool :=
  isBlank c || c == '#' || c == '\n' || c == '\r' || c == ',' || c == ']' || c == '}'

/-- A word without quotes. One blank may stand between a date and a time. -/
def readWord (s : List Char) : List Char × List Char :=
  let word := s.takeWhile (!endsWord ·)
  let rest := s.dropWhile (!endsWord ·)
  match rest with
  | ' ' :: a :: b :: ':' :: _ =>
    if readDate word = some [] ∧ a.isDigit ∧ b.isDigit then
      let more := (rest.drop 1).takeWhile (!endsWord ·)
      (word ++ ' ' :: more, (rest.drop 1).drop more.length)
    else (word, rest)
  | _ => (word, rest)

def Term.ofWord? (s : List Char) : Option Term :=
  if s = ['t', 'r', 'u', 'e'] then some (.bool true)
  else if s = ['f', 'a', 'l', 's', 'e'] then some (.bool false)
  else if isMoment s then some (.moment (String.ofList s))
  else
    match integer? s with
    | some n => some (.integer n)
    | none => if isReal s then some .real else none

/-- Items up to the closing bracket, over any number of lines; a comma may follow the last. -/
def readItems (item : List Char → Option (Term × List Char)) :
    Nat → List Char → Option (List Term × List Char)
  | 0, _ => none
  | bound + 1, s =>
    match skipLines s.length s |> skipBlank with
    | ']' :: rest => some ([], rest)
    | s => do
      let (t, rest) ← item s
      match skipBlank (skipLines rest.length rest) with
      | ',' :: rest =>
        let (ts, rest) ← readItems item bound rest
        return (t :: ts, rest)
      | ']' :: rest => return ([t], rest)
      | _ => none

/-- Assignments up to the closing brace, on one line and without a comma after the last. -/
def readEntries (item : List Char → Option (Term × List Char)) :
    Nat → List Char → Option (List (List String × Term) × List Char)
  | 0, _ => none
  | bound + 1, s => do
    let (path, rest) ← readPath s
    match skipBlank rest with
    | '=' :: rest =>
      let (t, rest) ← item (skipBlank rest)
      match skipBlank rest with
      | ',' :: rest =>
        let (es, rest) ← readEntries item bound rest
        return ((path, t) :: es, rest)
      | '}' :: rest => return ([(path, t)], rest)
      | _ => none
    | _ => none

/-- One value at the head of a text, with at most `depth` brackets open at a time. -/
def Term.readPart (depth : Nat) (s : List Char) : Option (Term × List Char) :=
  match s with
  | '[' :: rest =>
    match depth with
    | 0 => none
    | depth + 1 =>
      (readItems (Term.readPart depth) s.length rest).map fun (ts, rest) => (.list ts, rest)
  | '{' :: rest =>
    match depth with
    | 0 => none
    | depth + 1 =>
      match skipBlank rest with
      | '}' :: rest => some (.table [], rest)
      | rest =>
        (readEntries (Term.readPart depth) s.length rest).map fun (es, rest) =>
          (.table es, rest)
  | c :: _ =>
    if c = '"' ∨ c = '\'' then
      (readText s).map fun (cs, rest) => (.text (String.ofList cs), rest)
    else
      let (word, rest) := readWord s
      (Term.ofWord? word).map fun t => (t, rest)
  | [] => none

end IndexingPipeline.Toml
