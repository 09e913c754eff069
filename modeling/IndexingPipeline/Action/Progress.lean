import IndexingPipeline.Number.Shortest
import IndexingPipeline.Queue

/-!
# Progress

What the counts of an action's jobs say: how many there are, how many have ended, what part of
them is completed, and, once none is waiting or under way, how the action ends. The percentage
is calculated in doubles: the quotient, a hundred times it, and the nearest whole number, a half
going up.
-/

namespace IndexingPipeline

open Number (Double Format)

inductive Ending where
  | done
  | error
  deriving DecidableEq, Repr, Inhabited

structure Progress where
  total : Nat
  processed : Nat
  failed : Nat
  percent : Nat
  ending : Option Ending
  deriving DecidableEq, Repr, Inhabited

/-- The double nearest to the quotient of the doubles nearest to two counts. -/
def quotient (part whole : Nat) : Double :=
  let (a, b) := (Double.ofInt part).ratio
  let (c, d) := (Double.ofInt whole).ratio
  Double.ofRatio false (a * d) (b * c)

/-- The double nearest to a hundred times a double. -/
def hundredfold (x : Double) : Double :=
  let (a, b) := x.ratio
  Double.ofRatio false (100 * a) b

/-- The whole number nearest to a double that is not negative, a half going up. -/
def roundHalfUp (x : Double) : Nat :=
  let (a, b) := x.ratio
  (2 * a + b) / (2 * b)

/-- What part of the whole is completed, in percent; as much as a byte can hold. -/
def percentOf (part whole : Nat) : Nat :=
  if whole = 0 then 0 else min (roundHalfUp (hundredfold (quotient part whole))) 255

def Progress.ofCounts (c : JobCounts) : Progress :=
  { total := c.total
    processed := wrapU64 (c.completed + c.failed)
    failed := c.failed
    percent := percentOf c.completed c.total
    ending :=
      if 0 < c.total && c.active == 0 then
        some (if c.failed = 0 ∧ c.completed = c.total then .done else .error)
      else none }

example : percentOf 1 3 = 33 := by decide +kernel
example : percentOf 57 200 = 28 := by decide +kernel
example : percentOf 1 8 = 13 := by decide +kernel

end IndexingPipeline
