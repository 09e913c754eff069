import IndexingPipeline.Number.Binary

/-!
# A store that forgets

Values that are kept for a while under a key. From the moment a value expires it is not found
any more; sweeping only frees its place.
-/

namespace IndexingPipeline

structure Kept (β : Type) where
  value : β
  expiresAt : Int
  deriving DecidableEq, Repr

/-- Each key has at most one place. -/
structure Cache (α β : Type) where
  entries : List (α × Kept β) := []
  deriving DecidableEq, Repr

namespace Cache

variable {α β : Type} [DecidableEq α]

/-- The last moment that the clock can tell. -/
def horizon : Int := Number.twoTo 63 * 1000

def entry? (c : Cache α β) (key : α) : Option (Kept β) := c.entries.lookup key

/-- Keep a value for a number of milliseconds, in place of one with its key. A while that ends
beyond what the clock can tell cannot be kept. -/
def insert? (c : Cache α β) (now : Int) (key : α) (value : β) (lifetime : Nat) :
    Option (Cache α β) :=
  if now + lifetime < horizon then
    some ⟨c.entries.filter (·.1 ≠ key) ++ [(key, ⟨value, now + lifetime⟩)]⟩
  else none

/-- The value under a key, unless it has expired. -/
def get? (c : Cache α β) (now : Int) (key : α) : Option β :=
  ((c.entry? key).filter fun k => now < k.expiresAt).map (·.value)

/-- Forget what is under a key, and give it back, expired or not. -/
def remove (c : Cache α β) (key : α) : Option β × Cache α β :=
  ((c.entry? key).map (·.value), ⟨c.entries.filter (·.1 ≠ key)⟩)

def swept (c : Cache α β) (now : Int) : Cache α β :=
  ⟨c.entries.filter fun e => now < e.2.expiresAt⟩

def size (c : Cache α β) : Nat := c.entries.length

/-- Free the places of what has expired; how many they were. -/
def sweep (c : Cache α β) (now : Int) : Nat × Cache α β :=
  (c.size - (c.swept now).size, c.swept now)

end Cache

end IndexingPipeline
