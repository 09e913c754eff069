import IndexingPipeline.Number.Binary

/-!
# Moments

A moment is a number of milliseconds since the epoch. Moments are kept as signed words of 64
bits: a sum or product that leaves their range comes back in at the other end. As long as it
stays in range, `wrap64` changes nothing.
-/

namespace IndexingPipeline

/-- The signed word of 64 bits that agrees with an integer modulo 2^64. -/
def wrap64 (n : Int) : Int := n.bmod (Number.twoTo 64)

theorem wrap64_of_inRange {n : Int} (low : -(Number.twoTo 63 : Int) ≤ n)
    (high : n < Number.twoTo 63) :
    wrap64 n = n := by
  unfold wrap64
  have size : Number.twoTo 64 = 18446744073709551616 := rfl
  have half : (Number.twoTo 63 : Int) = 9223372036854775808 := rfl
  rw [half] at low high
  exact Int.bmod_eq_of_le (by rw [size]; omega) (by rw [size]; omega)

/-- The signed word of 64 bits that is nearest to an integer. -/
def clamp64 (n : Int) : Int := max (-(Number.twoTo 63 : Int)) (min n (Number.twoTo 63 - 1))

theorem toNat_clamp64 (n : Int) :
    ((clamp64 n).toNat : Int) = max 0 (min n (Number.twoTo 63 - 1)) := by
  have half : (Number.twoTo 63 : Int) = 9223372036854775808 := rfl
  rw [clamp64, half]
  omega

/-- The unsigned word of 64 bits that agrees with a number modulo 2^64. -/
def wrapU64 (n : Nat) : Nat := n % Number.twoTo 64

/-- The unsigned word of 32 bits that agrees with a number modulo 2^32. -/
def wrapU32 (n : Nat) : Nat := n % Number.twoTo 32

def millis (seconds : Nat) : Int := wrap64 (wrap64 seconds * 1000)

theorem millis_of_inRange {seconds : Nat} (short : seconds * 1000 < Number.twoTo 63) :
    millis seconds = seconds * 1000 := by
  have half : Number.twoTo 63 = 9223372036854775808 := rfl
  rw [half] at short
  have whole : wrap64 (seconds : Int) = seconds :=
    wrap64_of_inRange (by rw [half]; omega) (by rw [half]; omega)
  rw [millis, whole]
  exact wrap64_of_inRange (by rw [half]; omega) (by rw [half]; omega)

/-- The moment that lies a while after another. -/
def after (now : Int) (delay : Nat) : Int := wrap64 (now + wrap64 delay)

theorem after_of_inRange {now : Int} {delay : Nat} (low : -(Number.twoTo 63 : Int) ≤ now)
    (high : now + delay < Number.twoTo 63) : after now delay = now + delay := by
  have same : after now delay = wrap64 (now + delay) := Int.add_bmod_bmod
  rw [same]
  exact wrap64_of_inRange (by omega) high

/-- The moment that lies a number of seconds before another. -/
def before (now : Int) (seconds : Nat) : Int := wrap64 (now - millis seconds)

theorem before_of_inRange {now : Int} {seconds : Nat} (short : seconds * 1000 < Number.twoTo 63)
    (low : -(Number.twoTo 63 : Int) ≤ now - seconds * 1000) (high : now < Number.twoTo 63) :
    before now seconds = now - seconds * 1000 := by
  rw [before, millis_of_inRange short]
  exact wrap64_of_inRange low (by omega)

end IndexingPipeline
