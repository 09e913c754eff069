/-!
# Base 64

Three bytes are written as four letters of six bits each, and the last one or two bytes with
filler to a whole group.
-/

namespace IndexingPipeline.Digest

/-- The letter that six bits stand for. -/
def letter (n : Nat) : Char :=
  if n < 26 then Char.ofNat ('A'.toNat + n)
  else if n < 52 then Char.ofNat ('a'.toNat + (n - 26))
  else if n < 62 then Char.ofNat ('0'.toNat + (n - 52))
  else if n = 62 then '+' else '/'

def base64 : List UInt8 → List Char
  | [] => []
  | [a] =>
    let n := a.toNat
    [letter (n / 4), letter (n % 4 * 16), '=', '=']
  | [a, b] =>
    let n := a.toNat * 256 + b.toNat
    [letter (n / 1024), letter (n / 16 % 64), letter (n % 16 * 4), '=']
  | a :: b :: c :: rest =>
    let n := (a.toNat * 256 + b.toNat) * 256 + c.toNat
    letter (n / 262144) :: letter (n / 4096 % 64) :: letter (n / 64 % 64) :: letter (n % 64) ::
      base64 rest

example : base64 [0x75, 0x73, 0x65, 0x72, 0x3a] = "dXNlcjo=".toList := by decide

end IndexingPipeline.Digest
