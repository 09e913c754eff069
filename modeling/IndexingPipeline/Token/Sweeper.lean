import IndexingPipeline.Token.Cache

/-!
# Sweepers

A sweeper frees the places of what has expired at every whole multiple of its interval after it
was started. When the clock moves on by a while, the sweepers that came due in it sweep at the
new moment; an interval of no length never comes due.
-/

namespace IndexingPipeline

structure Sweeper where
  startedAt : Int
  interval : Nat
  deriving DecidableEq, Repr

def Sweeper.rounds (s : Sweeper) (moment : Int) : Int := (moment - s.startedAt) / s.interval

/-- Whether an interval ends after the first moment and no later than the second. -/
def Sweeper.isDue (s : Sweeper) (earlier later : Int) : Bool :=
  s.interval ≠ 0 && s.rounds earlier < s.rounds later

/-- A cache, the moment it is, and its sweepers. -/
structure SweptCache (α β : Type) where
  now : Int
  cache : Cache α β := {}
  sweepers : List Sweeper := []

namespace SweptCache

variable {α β : Type} [DecidableEq α]

def start (c : SweptCache α β) (interval : Nat) : SweptCache α β :=
  { c with sweepers := c.sweepers ++ [⟨c.now, interval⟩] }

def advance (c : SweptCache α β) (ms : Nat) : SweptCache α β :=
  let later := c.now + ms
  let due := c.sweepers.any (·.isDue c.now later)
  { c with now := later, cache := if due then c.cache.swept later else c.cache }

end SweptCache

end IndexingPipeline
