import IndexingPipeline.Number.Binary

/-!
# The shortest decimal of a double

Every decimal close enough to a double reads back as that double. For one digit, two digits and
so on, the two neighbours of the double among the decimals with that many digits are tried; the
first that reads back is the answer, and of two the nearer one.
-/

namespace IndexingPipeline.Number

/-- A decimal: `digits * 10 ^ exponent`. -/
structure Decimal where
  digits : Nat
  exponent : Int
  deriving DecidableEq, Repr

namespace Double

/-- The value of a finite double without its sign, as a quotient of naturals. -/
def ratio (x : Double) : Nat × Nat :=
  let (m, q) := Format.double.parts x.magnitude
  (m * twoTo q, twoTo Format.double.least)

def tenTo (exponent : Int) : Nat × Nat :=
  if 0 ≤ exponent then (Nat.pow 10 exponent.toNat, 1)
  else (1, Nat.pow 10 (-exponent).toNat)

/-- The decimal exponent `e` with `10 ^ e ≤ num / den < 10 ^ (e + 1)`, found by moving from an
estimate that is off by at most a few. -/
def decimalOrder (num den : Nat) : Int :=
  let guess : Int := (((num.log2 : Int) - (den.log2 : Int)) * 30103) / 100000
  let tooHigh (e : Int) : Bool := let (a, b) := tenTo e; num * b < a * den
  let candidates : List Int := [guess + 2, guess + 1, guess, guess - 1, guess - 2]
  (candidates.find? fun e => !tooHigh e).getD guess

/-- The neighbour of the double that reads back, among the decimals whose last digit is worth
`10 ^ exponent`; the nearer of two. -/
def neighbour? (x : Double) (num den : Nat) (exponent : Int) : Option Decimal :=
  let (a, b) := tenTo exponent
  let top := num * b
  let bottom := den * a
  let low := top / bottom
  let rest := top % bottom
  let readsBack (d : Nat) : Bool :=
    let (u, v) := tenTo exponent
    Format.double.nearest (d * u) v == x.magnitude
  let nearLow := 2 * rest < bottom || (2 * rest == bottom && low % 2 == 0)
  let order := if nearLow then [low, low + 1] else [low + 1, low]
  (order.find? readsBack).map fun d => ⟨d, exponent⟩

/-- The shortest decimal that reads back as this finite double. Seventeen digits always do. -/
def shortest (x : Double) : Decimal :=
  if x.magnitude == 0 then ⟨0, 0⟩
  else
    let (num, den) := x.ratio
    let order := decimalOrder num den
    ((List.range 17).findSome? fun (n : Nat) => x.neighbour? num den (order - n)).getD ⟨0, 0⟩

end Double

/-- How the shortest decimal of a double is spelled: which decimal orders are written with a
positional point, and the exponent mark otherwise. -/
structure DoubleStyle where
  leastPositional : Int
  mostPositional : Int
  exponentMark : String
  deriving DecidableEq, Repr

/-- A decimal without trailing zeros in its digits. -/
def Decimal.trimZeros (d : Decimal) : Decimal :=
  let kept := (Nat.toDigits 10 d.digits).reverse.dropWhile (· == '0')
  let dropped := (Nat.toDigits 10 d.digits).length - kept.length
  if d.digits == 0 then d else ⟨d.digits / Nat.pow 10 dropped, d.exponent + dropped⟩

/-- The text of a finite double in a style. A whole number keeps one zero after the point when
it is written positionally; an exponent follows its mark with a sign only when it is negative. -/
def Double.render (style : DoubleStyle) (x : Double) : String :=
  let sign := if x.isNegative then "-" else ""
  if x.magnitude == 0 then sign ++ "0.0"
  else
    let d := x.shortest.trimZeros
    let digits := Nat.toDigits 10 d.digits
    let order : Int := digits.length + d.exponent
    let zeros (n : Int) : List Char := List.replicate n.toNat '0'
    let body : List Char :=
      if 0 ≤ d.exponent && order ≤ style.mostPositional then
        digits ++ zeros d.exponent ++ ['.', '0']
      else if 0 < order && order ≤ style.mostPositional then
        digits.take order.toNat ++ ['.'] ++ digits.drop order.toNat
      else if style.leastPositional < order && order ≤ 0 then
        ['0', '.'] ++ zeros (-order) ++ digits
      else
        let mantissa := match digits with
          | [] => []
          | [c] => [c]
          | c :: rest => c :: '.' :: rest
        mantissa ++ style.exponentMark.toList ++ (toString (order - 1)).toList
    sign ++ String.ofList body

end IndexingPipeline.Number
