/-!
# Blank characters

The characters that Unicode gives the property White_Space, and what is left of a text
once they are cut off its ends. A text is blank when nothing is left.
-/

namespace IndexingPipeline.Text

/-- The property White_Space: the ASCII controls from tab to carriage return, the space,
next line, the no-break space and the wider spaces. -/
def isBlank (c : Char) : Bool :=
  let n := c.toNat
  (9 ≤ n && n ≤ 13) || n == 0x20 || n == 0x85 || n == 0xA0 || n == 0x1680 ||
    (0x2000 ≤ n && n ≤ 0x200A) || n == 0x2028 || n == 0x2029 || n == 0x202F ||
    n == 0x205F || n == 0x3000

/-- Without the blanks before the first other character. -/
def trimStart (s : List Char) : List Char := s.dropWhile isBlank

/-- Without the blanks after the last other character. -/
def trimEnd (s : List Char) : List Char := (s.reverse.dropWhile isBlank).reverse

def trim (s : String) : String := String.ofList (trimEnd (trimStart s.toList))

def isAllBlank (s : String) : Bool := s.toList.all isBlank

end IndexingPipeline.Text
