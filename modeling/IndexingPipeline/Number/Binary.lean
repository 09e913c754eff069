/-!
# Binary words and floating-point formats

The naturals below `twoTo n` are those that fit into `n` bits. A finite number of a binary format
is `m * 2 ^ q` with `m` below `2 ^ precision`. A quotient of naturals is rounded to the nearest
such number, a tie to the even neighbour, and the result is given by its bit pattern without the
sign. All arithmetic is on naturals.
-/

namespace IndexingPipeline.Number

abbrev twoTo (n : Nat) : Nat := Nat.pow 2 n

/-- The size of a binary interchange format: bits of precision, and the power of two that
one unit in the last place of the smallest numbers is worth, negated. -/
structure Format where
  precision : Nat
  least : Nat
  deriving DecidableEq, Repr

def Format.double : Format := ⟨53, 1074⟩

def Format.single : Format := ⟨24, 149⟩

/-- The pattern of infinity, without the sign: all exponent bits set. -/
def Format.infinity (f : Format) : Nat :=
  (2 * (f.least - f.precision) + 5) * twoTo (f.precision - 1)

/-- `num / den` to the nearest natural, a tie to the even one. -/
def roundDiv (num den : Nat) : Nat :=
  let q := num / den
  let r := num % den
  if 2 * r < den then q
  else if den < 2 * r then q + 1
  else if q % 2 == 0 then q else q + 1

/-- The whole power of two at or below `num / den`, plus `least`, and never below zero: the
position of the last place, counted from the smallest one, once `precision - 1` is taken off. -/
def Format.place (f : Format) (num den : Nat) : Nat :=
  let guess := num.log2 + f.least - den.log2
  let top :=
    if num * twoTo f.least < den * twoTo guess then guess - 1 else guess
  top - (f.precision - 1)

/-- The pattern, without the sign, of the number of the format nearest to `num / den`. -/
def Format.nearest (f : Format) (num den : Nat) : Nat :=
  if num == 0 then 0
  else
    let place := f.place num den
    let digits := roundDiv (num * twoTo f.least) (den * twoTo place)
    min (place * twoTo (f.precision - 1) + digits) f.infinity

/-- A pattern without its sign taken apart: the integer `m` and the power `q + least` with
value `m * 2 ^ q`. -/
def Format.parts (f : Format) (pattern : Nat) : Nat × Nat :=
  let field := pattern / twoTo (f.precision - 1)
  let low := pattern % twoTo (f.precision - 1)
  if field == 0 then (low, 0) else (low + twoTo (f.precision - 1), field - 1)

structure Double where
  bits : UInt64
  deriving DecidableEq, Repr, Inhabited

namespace Double

def isNegative (x : Double) : Bool := twoTo 63 ≤ x.bits.toNat

def magnitude (x : Double) : Nat := x.bits.toNat % twoTo 63

def isFinite (x : Double) : Bool := x.magnitude < Format.double.infinity

/-- The double with this sign nearest to `num / den`. -/
def ofRatio (negative : Bool) (num den : Nat) : Double :=
  let m := Format.double.nearest num den
  ⟨UInt64.ofNat (if negative then m + twoTo 63 else m)⟩

def ofInt (n : Int) : Double := ofRatio (decide (n < 0)) n.natAbs 1

/-- The double nearest to `digits * 10 ^ exponent`. Far outside the range of the format the
answer is known without computing the power. -/
def ofDecimal (negative : Bool) (digits : Nat) (exponent : Int) : Double :=
  let size : Int := (Nat.toDigits 10 digits).length + exponent
  if digits == 0 || size < -400 then ofRatio negative 0 1
  else if 400 < size then ofRatio negative (twoTo 1100) 1
  else if 0 ≤ exponent then ofRatio negative (digits * Nat.pow 10 exponent.toNat) 1
  else ofRatio negative digits (Nat.pow 10 (-exponent).toNat)

/-- The single-precision pattern, sign included, nearest to a finite double. An infinite one
keeps its sign. -/
def toSingle (x : Double) : UInt32 :=
  let m :=
    if x.isFinite then
      let (m, q) := Format.double.parts x.magnitude
      Format.single.nearest (m * twoTo q) (twoTo Format.double.least)
    else Format.single.infinity
  UInt32.ofNat (if x.isNegative then m + twoTo 31 else m)

end Double

def singleOfNat (n : Nat) : UInt32 := UInt32.ofNat (Format.single.nearest n 1)

example : singleOfNat 16777217 = 1266679808 := by decide +kernel
example : Format.double.infinity = 0x7FF0000000000000 := by decide
example : Format.single.infinity = 0x7F800000 := by decide

end IndexingPipeline.Number
