/-!
# Identifiers

Jobs, actions, revisions, chunks and lock holders get identifiers of 36 characters, drawn from
a supply that never gives the same one twice: the same stem followed by the number drawn.
-/

namespace IndexingPipeline.Identifier

/-- Hexadecimal digits of a number, with zeros in front up to a width. -/
def hex (width n : Nat) : List Char :=
  let digits := Nat.toDigits 16 n
  List.replicate (width - digits.length) '0' ++ digits

def stem : String := "7d2f9c64-51ab-4e0c-9b3d-"

def ofNat (n : Nat) : String := stem ++ String.ofList (hex 12 n)

/-- How many characters the groups between the dashes have. -/
def groups : List Nat := [8, 4, 4, 4, 12]

def isHexDigit (c : Char) : Bool := c.isDigit || ('a' ≤ c && c ≤ 'f')

/-- Whether a text begins with groups of these lengths. -/
def beginsWith : List Nat → List Char → Bool
  | [], _ => true
  | n :: rest, s =>
    let group := s.take n
    let after := s.drop n
    group.length == n && group.all isHexDigit &&
      (rest.isEmpty || (after.head? == some '-' && beginsWith rest (after.drop 1)))

/-- Whether an identifier stands at the head of a text. -/
def isAtHead (s : List Char) : Bool := beginsWith groups s

end IndexingPipeline.Identifier
