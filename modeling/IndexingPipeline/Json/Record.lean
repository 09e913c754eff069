import IndexingPipeline.Json.Value

/-!
# Records

A record is written as an object with known names or as a list with its parts in order. Names
that are not known are passed over with their values, however deep these are nested; a known
name may stand only once. The readers of parts refuse what is not of their kind instead of
guessing.
-/

namespace IndexingPipeline.Json

/-- The known members of an object, in the order written. -/
def knownMembers (names : List String) :
    List (List Char × Tree) → Option (List (String × Tree))
  | [] => some []
  | (spelled, t) :: rest => do
    let name := String.ofList (← decode spelled)
    let others ← knownMembers names rest
    if name ∈ names then
      if others.any (·.1 = name) then none else return (name, t) :: others
    else return others

def Tree.fields? (names : List String) : Tree → Option (List (String × Tree))
  | .object members => knownMembers names members
  | .list items => if items.length ≤ names.length then some (names.zip items) else none
  | _ => none

def Tree.text? : Tree → Option String
  | .text s => (decode s).map String.ofList
  | _ => none

/-- A whole number of 64 bits with a sign. -/
def Tree.integer? : Tree → Option Int
  | .number s => (wholeOf? s).filter (· < Number.twoTo 63)
  | _ => none

/-- A whole number from zero to below a bound. -/
def Tree.natural? (bound : Nat) : Tree → Option Nat
  | .number s =>
    match wholeOf? s with
    | some (.ofNat n) => if n < bound then some n else none
    | _ => none
  | _ => none

/-- The items of a list, each read the same way. -/
def Tree.items? (item : Tree → Option α) : Tree → Option (List α)
  | .list items => items.mapM item
  | _ => none

def need (fields : List (String × Tree)) (name : String) (part : Tree → Option α) : Option α :=
  (fields.lookup name).bind part

def part (fields : List (String × Tree)) (name : String) (fallback : α)
    (part : Tree → Option α) : Option α :=
  match fields.lookup name with
  | none => some fallback
  | some t => part t

/-- A part that may be missing or null. -/
def maybe (fields : List (String × Tree)) (name : String) (part : Tree → Option α) :
    Option (Option α) :=
  match fields.lookup name with
  | none => some none
  | some .null => some none
  | some t => (part t).map some

end IndexingPipeline.Json
