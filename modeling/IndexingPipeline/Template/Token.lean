import IndexingPipeline.Template.Value
import IndexingPipeline.Json.Text

/-!
# Tokens of a template

A template is text with three kinds of tags in it: `{` and `{` around an expression, `{` and
`%` around a statement, `{` and `#` around a comment. A dash just inside a tag removes the
blanks of the text beside it. A raw statement keeps its body as text. The line end that closes
the whole template is not part of it.
-/

namespace IndexingPipeline.Template

open Number (Double)

inductive Token where
  | data (s : String)
  | openVariable
  | closeVariable
  | openBlock
  | closeBlock
  | name (s : String)
  | text (s : String)
  | int (n : Int)
  | float (x : Float)
  | sign (s : String)
  deriving Inhabited

def Token.isSign (t : Token) (s : String) : Bool :=
  match t with
  | .sign u => s = u
  | _ => false

def Token.isWord (t : Token) (s : String) : Bool :=
  match t with
  | .name u => s = u
  | _ => false

inductive Tag where
  | variable
  | block
  | comment
  deriving DecidableEq, Repr

def Tag.closing : Tag → List Char
  | .variable => ['\x7d', '\x7d']
  | .block => ['%', '\x7d']
  | .comment => ['#', '\x7d']

def Tag.opening? : List Char → Option Tag
  | '\x7b' :: '\x7b' :: _ => some .variable
  | '\x7b' :: '%' :: _ => some .block
  | '\x7b' :: '#' :: _ => some .comment
  | _ => none

/-- The text before the next tag, and the rest from the tag on. -/
def splitAtTag : List Char → List Char × List Char
  | [] => ([], [])
  | c :: rest =>
    if (Tag.opening? (c :: rest)).isSome then ([], c :: rest)
    else
      let (before, after) := splitAtTag rest
      (c :: before, after)

/-- The text before the first place where `mark` stands, and what follows the mark. -/
def splitAtMark (mark : List Char) : List Char → Option (List Char × List Char)
  | [] => if mark = [] then some ([], []) else none
  | c :: rest =>
    if mark.isPrefixOf (c :: rest) then some ([], (c :: rest).drop mark.length)
    else (splitAtMark mark rest).map fun (before, after) => (c :: before, after)

/-- The four ASCII blanks and the form feed. -/
def isAsciiBlank (c : Char) : Bool :=
  c == ' ' || c == '\t' || c == '\n' || c == '\r' || c == '\x0c'

/-- What a control character beside a tag asks for. -/
inductive Trim where
  | asIs
  | remove
  deriving DecidableEq, Repr

def readTrim : List Char → Trim × List Char
  | '-' :: rest => (.remove, rest)
  | '+' :: rest => (.asIs, rest)
  | s => (.asIs, s)

/-- What follows a tag, without leading blanks when the tag removes them. -/
def afterTag (trim : Trim) (s : List Char) : List Char :=
  match trim with
  | .remove => Text.trimStart s
  | .asIs => s

/-- A tag with nothing but a word in it: how it trims at both ends, and what follows it. -/
def bareTag? (word : String) (s : List Char) : Option (Trim × Trim × List Char) :=
  let (first, s) := readTrim s
  let s := s.dropWhile isAsciiBlank
  if word.toList.isPrefixOf s then
    let (last, s) := readTrim ((s.drop word.length).dropWhile isAsciiBlank)
    if Tag.block.closing.isPrefixOf s then some (first, last, s.drop 2) else none
  else none

/-- The body of a raw statement up to its end, how the end trims it, and what follows. -/
def readRaw : List Char → Option (List Char × Trim × List Char)
  | [] => none
  | '\x7b' :: '%' :: rest =>
    match bareTag? "endraw" rest with
    | some (first, last, after) => some ([], first, afterTag last after)
    | none => (readRaw rest).map fun (body, more) => ('\x7b' :: '%' :: body, more)
  | c :: rest => (readRaw rest).map fun (body, more) => (c :: body, more)

def twoSigns : List String := ["//", "**", "==", "!=", ">=", "<="]

def oneSign : List Char :=
  ['+', '-', '*', '/', '%', '.', ',', ':', '~', '=', '|', '>', '<', '(', ')', '[', ']',
    '\x7b', '\x7d']

/-- The characters of a quoted text up to its quote, as spelled, and what follows. -/
def readQuoted (quote : Char) : List Char → Option (List Char × List Char)
  | [] => none
  | '\\' :: c :: rest => (readQuoted quote rest).map fun (s, rest) => ('\\' :: c :: s, rest)
  | c :: rest =>
    if c = quote then some ([], rest)
    else if c = '\\' then none
    else (readQuoted quote rest).map fun (s, rest) => (c :: s, rest)

/-- The characters that a quoted text stands for. -/
def unescape : List Char → Option (List Char)
  | [] => some []
  | '\\' :: 'u' :: a :: b :: c :: d :: rest => do
    let high ← Json.hexQuad? a b c d
    if 0xD800 ≤ high ∧ high < 0xDC00 then
      match rest with
      | '\\' :: 'u' :: a :: b :: c :: d :: rest => do
        let low ← Json.hexQuad? a b c d
        if 0xDC00 ≤ low ∧ low < 0xE000 then
          let s ← unescape rest
          return Char.ofNat (0x10000 + (high - 0xD800) * 0x400 + (low - 0xDC00)) :: s
        else none
      | _ => none
    else if 0xDC00 ≤ high ∧ high < 0xE000 then none
    else do
      let s ← unescape rest
      return Char.ofNat high :: s
  | '\\' :: c :: rest => do
    let c ← if c = '\'' then some '\'' else Json.shortEscape? c
    let s ← unescape rest
    return c :: s
  | c :: rest => do
    if c = '\\' then none
    else
      let s ← unescape rest
      return c :: s

/-- How far a number in a template has been read. -/
inductive NumberPart where
  | whole
  | fraction
  | exponent
  | exponentDigits
  | based
  deriving DecidableEq, Repr

/-- The part after one more character of a number, if the character belongs to it. -/
def NumberPart.next (hexadecimal : Bool) (part : NumberPart) (c : Char) : Option NumberPart :=
  if c.isDigit then some (if part = .exponent then .exponent else part)
  else if c = '_' then some part
  else
    match part, c with
    | .whole, '.' => some .fraction
    | .whole, 'e' => some .exponent
    | .whole, 'E' => some .exponent
    | .fraction, 'e' => some .exponent
    | .fraction, 'E' => some .exponent
    | .exponent, '+' => some .exponentDigits
    | .exponent, '-' => some .exponentDigits
    | .based, c => if hexadecimal && (Json.hexDigit? c).isSome then some .based else none
    | _, _ => none

/-- The characters of a number, the part it ends in, and what follows it. -/
def readNumberChars (hexadecimal : Bool) (part : NumberPart) :
    List Char → List Char × NumberPart × List Char
  | [] => ([], part, [])
  | c :: rest =>
    match part.next hexadecimal c with
    | some next =>
      let (cs, last, rest) := readNumberChars hexadecimal next rest
      (c :: cs, last, rest)
    | none => ([], part, c :: rest)

/-- The number that digits spell in a base, when there are any and all belong to the base. -/
def numberIn? (base : Nat) (ds : List Char) : Option Nat :=
  if ds = [] then none
  else
    ds.foldlM (fun n c => do
      let d ← Json.hexDigit? c
      if d < base then some (n * base + d) else none) 0

/-- The float that decimal digits with a point or an exponent spell. A point may stand at
either end of the digits. -/
def floatOf? (s : List Char) : Option Float := do
  let (negative, s) := match s with
    | '-' :: r => (true, r)
    | '+' :: r => (false, r)
    | r => (false, r)
  let isMark (c : Char) : Bool := c == 'e' || c == 'E'
  let mantissa := s.takeWhile (!isMark ·)
  let power := s.dropWhile (!isMark ·)
  let whole := mantissa.takeWhile (· ≠ '.')
  let fraction := (mantissa.dropWhile (· ≠ '.')).drop 1
  let digits ← numberIn? 10 (whole ++ fraction)
  let exponent : Int ← match power with
    | [] => some 0
    | _ :: '-' :: ds => (numberIn? 10 ds).map fun n => -(n : Int)
    | _ :: '+' :: ds => (numberIn? 10 ds).map Int.ofNat
    | _ :: ds => (numberIn? 10 ds).map Int.ofNat
  return Float.ofBits (Double.ofDecimal negative digits (exponent - fraction.length)).bits

/-- A number: decimal with or without a point and an exponent, or in base 2, 8 or 16. Single
underscores may stand among its digits but not at its end. -/
def readNumber (s : List Char) : Option (Token × List Char) :=
  let finish (cs : List Char) : Option (List Char) :=
    if cs.getLast? = some '_' then none else some (cs.filter (· ≠ '_'))
  let based (base : Nat) (s : List Char) : Option (Token × List Char) := do
    let (cs, _, rest) := readNumberChars (base == 16) .based s
    let n ← numberIn? base (← finish cs)
    if n < Number.twoTo 128 then return (.int n, rest) else none
  match s with
  | '0' :: 'b' :: rest => based 2 rest
  | '0' :: 'B' :: rest => based 2 rest
  | '0' :: 'o' :: rest => based 8 rest
  | '0' :: 'O' :: rest => based 8 rest
  | '0' :: 'x' :: rest => based 16 rest
  | '0' :: 'X' :: rest => based 16 rest
  | s => do
    let (cs, part, rest) := readNumberChars false .whole s
    let cs ← finish cs
    if part = .whole then
      let n ← numberIn? 10 cs
      if n < Number.twoTo 128 then return (.int n, rest) else none
    else
      return (.float (← floatOf? cs), rest)

/-- The change that a bracket makes to the number of open ones. -/
def balance (c : Char) : Int :=
  if c = '(' ∨ c = '[' ∨ c = '\x7b' then 1
  else if c = ')' ∨ c = ']' ∨ c = '\x7d' then -1
  else 0

def startsName (c : Char) : Bool := c == '_' || c.isAlpha

def inName (c : Char) : Bool := c == '_' || c.isAlphanum

/-- The tokens inside a tag up to its end, and what follows the tag. The end of a tag counts
only where no bracket is open. -/
def tokensIn (tag : Tag) : Nat → Int → List Char → Option (List Token × List Char)
  | 0, _, _ => none
  | bound + 1, depth, s =>
    let s := s.dropWhile isAsciiBlank
    let (trim, inner) := readTrim s
    let close := if tag = .variable then Token.closeVariable else .closeBlock
    if depth = 0 ∧ tag.closing.isPrefixOf s then some ([close], s.drop 2)
    else if depth = 0 ∧ tag.closing.isPrefixOf inner then
      some ([close], afterTag trim (inner.drop 2))
    else
      match s with
      | [] => none
      | c :: rest =>
        let two := String.ofList (s.take 2)
        if two ∈ twoSigns then
          (tokensIn tag bound depth (s.drop 2)).map fun (ts, rest) => (.sign two :: ts, rest)
        else if c ∈ oneSign then
          (tokensIn tag bound (depth + balance c) rest).map fun (ts, rest) =>
            (.sign (String.ofList [c]) :: ts, rest)
        else if c = '\'' ∨ c = '"' then do
          let (spelled, rest) ← readQuoted c rest
          let cs ← unescape spelled
          let (ts, rest) ← tokensIn tag bound depth rest
          return (.text (String.ofList cs) :: ts, rest)
        else if c.isDigit then do
          let (t, rest) ← readNumber s
          let (ts, rest) ← tokensIn tag bound depth rest
          return (t :: ts, rest)
        else if startsName c then do
          let word := s.takeWhile inName
          let (ts, rest) ← tokensIn tag bound depth (s.drop word.length)
          return (.name (String.ofList word) :: ts, rest)
        else none

def dataToken (s : List Char) : List Token :=
  if s = [] then [] else [.data (String.ofList s)]

def tokensFrom : Nat → List Char → Option (List Token)
  | 0, _ => none
  | bound + 1, s =>
    match s, Tag.opening? s with
    | [], _ => some []
    | s, none => do
      let (before, after) := splitAtTag s
      let before := match after with
        | _ :: _ :: '-' :: _ => Text.trimEnd before
        | _ => before
      let ts ← tokensFrom bound after
      return dataToken before ++ ts
    | s, some .comment => do
      let (inside, after) ← splitAtMark Tag.comment.closing (readTrim (s.drop 2)).2
      let trim := if inside.getLast? = some '-' then Trim.remove else .asIs
      tokensFrom bound (afterTag trim after)
    | s, some .variable => do
      let (ts, after) ← tokensIn .variable (s.length + 1) 0 (readTrim (s.drop 2)).2
      let rest ← tokensFrom bound after
      return .openVariable :: ts ++ rest
    | s, some .block =>
      match bareTag? "raw" (s.drop 2) with
      | some (_, last, after) => do
        let (body, trim, after) ← readRaw after
        let body := if trim = .remove then Text.trimEnd body else body
        let body := if last = .remove then Text.trimStart body else body
        let rest ← tokensFrom bound after
        return dataToken body ++ rest
      | none => do
        let (ts, after) ← tokensIn .block (s.length + 1) 0 (readTrim (s.drop 2)).2
        let rest ← tokensFrom bound after
        return .openBlock :: ts ++ rest

/-- A template without the line end that closes it. -/
def withoutLastLineEnd (s : List Char) : List Char :=
  let s := if s.getLast? = some '\n' then s.dropLast else s
  if s.getLast? = some '\r' then s.dropLast else s

/-- The tokens that a template is made of; none when a tag is not closed, or holds something
that is no token. -/
def tokens? (source : String) : Option (List Token) :=
  let s := withoutLastLineEnd source.toList
  tokensFrom (s.length + 1) s

end IndexingPipeline.Template
