import IndexingPipeline.Point.Basic
import IndexingPipeline.Failure

/-!
# A vector store in memory

Collections of points by name. Every point of a collection has as many components as the
collection was made for. Writing replaces points of the same identifier and writes all points
of a batch or none. Failures of writing and deleting can be switched on.
-/

namespace IndexingPipeline

structure Collection where
  size : Nat
  points : List Point
  deriving Inhabited, Repr

structure MemoryStore where
  collections : List (String × Collection) := []
  failWrites : Bool := false
  failDeletes : Bool := false
  deriving Inhabited, Repr

namespace Collection

/-- A point put in the place of one with its identifier, or behind all others. -/
def putPoint (p : Point) : List Point → List Point
  | [] => [p]
  | q :: rest => if q.id = p.id then p :: rest else q :: putPoint p rest

def putAll (c : Collection) (batch : List Point) : Collection :=
  { c with points := batch.foldl (fun points p => putPoint p points) c.points }

def matching (c : Collection) (f : Filter) : List Point :=
  c.points.filter fun p => f.accepts p.payload

def without (c : Collection) (f : Filter) : Collection :=
  { c with points := c.points.filter fun p => !f.accepts p.payload }

end Collection

namespace MemoryStore

def collection? (s : MemoryStore) (name : String) : Option Collection :=
  s.collections.lookup name

/-- The collection of that name replaced, or a new one added. -/
def withCollection (s : MemoryStore) (name : String) (c : Collection) : MemoryStore :=
  if s.collections.any (·.1 = name) then
    { s with collections := s.collections.map fun (n, d) =>
        if n = name then (n, c) else (n, d) }
  else { s with collections := s.collections ++ [(name, c)] }

/-- A collection's size has to be the one asked for. -/
def checkSize (name : String) (expected actual : Nat) : Except StoreError Unit :=
  if expected = actual then .ok () else .error (.wrongSize name expected actual)

/-- A collection of that name and size: made when there is none. -/
def ensure (s : MemoryStore) (name : String) (size : Nat) :
    Except StoreError Unit × MemoryStore :=
  match s.collection? name with
  | some c => (checkSize name size c.size, s)
  | none => (.ok (), s.withCollection name ⟨size, []⟩)

/-- Write all points of a batch, or none. -/
def write (s : MemoryStore) (name : String) (batch : List Point) :
    Except StoreError Unit × MemoryStore :=
  if s.failWrites then (.error (.api 500 "injected upsert failure"), s)
  else
    match s.collection? name with
    | none => (.error (.api 404 ("collection " ++ name ++ " not found")), s)
    | some c =>
      match batch.find? fun p => p.vector.length ≠ c.size with
      | some bad => (.error (.wrongSize name c.size bad.vector.length), s)
      | none => (.ok (), s.withCollection name (c.putAll batch))

/-- Delete the points that a filter accepts; how many they were. -/
def delete (s : MemoryStore) (name : String) (f : Filter) :
    Except StoreError Nat × MemoryStore :=
  if s.failDeletes then (.error (.transport "injected delete failure"), s)
  else
    match s.collection? name with
    | none => (.ok 0, s)
    | some c => (.ok (c.matching f).length, s.withCollection name (c.without f))

/-- The points of a collection that a filter accepts. -/
def points (s : MemoryStore) (name : String) (f : Filter) : List Point :=
  ((s.collection? name).map (·.matching f)).getD []

def count (s : MemoryStore) (name : String) (f : Filter) : Nat := (s.points name f).length

def size? (s : MemoryStore) (name : String) : Option Nat :=
  (s.collection? name).map (·.size)

end MemoryStore

end IndexingPipeline
