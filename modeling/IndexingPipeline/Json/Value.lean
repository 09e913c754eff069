import IndexingPipeline.Json.Tree
import IndexingPipeline.Number.Shortest
import IndexingPipeline.Text.Blank

/-!
# Values

What a written value means when nothing more is known about it: whole numbers of at most 64 bits
are kept exactly, every other number is the nearest double, the last member of a name wins, and
members are kept in the order of their names. A number beyond the doubles has no meaning, and
neither has a text with half a surrogate pair.
-/

namespace IndexingPipeline.Json

open Number (Double DoubleStyle)

/-- A whole number between `-2 ^ 63` and `2 ^ 64 - 1`, or a double. -/
inductive Numeral where
  | whole (n : Int)
  | double (x : Double)
  deriving DecidableEq, Repr, Inhabited

inductive Value where
  | null
  | bool (value : Bool)
  | number (n : Numeral)
  | text (s : String)
  | list (items : List Value)
  | object (members : List (String × Value))
  deriving Inhabited, Repr

def naturalOf (ds : List Char) : Nat :=
  ds.foldl (fun n c => n * 10 + (c.toNat - '0'.toNat)) 0

/-- The whole number a spelling stands for, when it has neither point nor exponent and fits in
64 bits. A minus before zero makes a double instead, because zero has no sign among the whole
numbers. -/
def wholeOf? (spelling : List Char) : Option Int :=
  match spelling with
  | '-' :: ds =>
    if ds.all Char.isDigit then
      let n := naturalOf ds
      if 0 < n ∧ n ≤ Number.twoTo 63 then some (-(n : Int)) else none
    else none
  | ds =>
    if ds.all Char.isDigit then
      let n := naturalOf ds
      if n < Number.twoTo 64 then some n else none
    else none

/-- The double nearest to a spelled number, unless it is beyond every finite one. -/
def doubleOf? (spelling : List Char) : Option Double :=
  let (negative, s) := match spelling with
    | '-' :: r => (true, r)
    | r => (false, r)
  let (whole, s) := digits s
  let (fraction, s) := match s with
    | '.' :: r => digits r
    | r => ([], r)
  let exponent : Int := match s with
    | _ :: '-' :: ds => -(naturalOf ds : Int)
    | _ :: '+' :: ds => naturalOf ds
    | _ :: ds => naturalOf ds
    | [] => 0
  let x := Double.ofDecimal negative (naturalOf (whole ++ fraction))
    (exponent - fraction.length)
  if x.isFinite then some x else none

def numeralOf? (spelling : List Char) : Option Numeral :=
  match wholeOf? spelling with
  | some n => some (.whole n)
  | none => (doubleOf? spelling).map .double

/-- Put a member in its place among members ordered by name, in place of one of that name. -/
def insertMember (name : String) (v : α) : List (String × α) → List (String × α)
  | [] => [(name, v)]
  | (other, w) :: rest =>
    if name < other then (name, v) :: (other, w) :: rest
    else if name = other then (name, v) :: rest
    else (other, w) :: insertMember name v rest

mutual

def Value.ofTree : Tree → Option Value
  | .null => some .null
  | .bool b => some (.bool b)
  | .number s => (numeralOf? s).map .number
  | .text s => (decode s).map fun s => .text (String.ofList s)
  | .list items => (valuesOf items).map .list
  | .object members => (membersOf [] members).map .object

def valuesOf : List Tree → Option (List Value)
  | [] => some []
  | t :: rest => do
    let v ← Value.ofTree t
    let vs ← valuesOf rest
    return v :: vs

/-- The members read so far with those still to read put in. -/
def membersOf (before : List (String × Value)) :
    List (List Char × Tree) → Option (List (String × Value))
  | [] => some before
  | (name, t) :: rest => do
    let name ← decode name
    let v ← Value.ofTree t
    membersOf (insertMember (String.ofList name) v before) rest

end

/-- How many brackets may be open at once in a text that is read as a value. -/
def depthLimit : Nat := 127

def Value.read? (s : String) : Option Value := do
  let t ← Tree.read? depthLimit s.toList
  Value.ofTree t

/-- Doubles are written positionally from a hundred-thousandth to below ten quadrillions. -/
def doubleStyle : DoubleStyle := ⟨-5, 16, "e"⟩

def Numeral.spelling : Numeral → List Char
  | .whole n => (toString n).toList
  | .double x => (x.render doubleStyle).toList

mutual

def Value.toTree : Value → Tree
  | .null => .null
  | .bool b => .bool b
  | .number n => .number n.spelling
  | .text s => .ofString s
  | .list items => .list (treesOf items)
  | .object members => .object (memberTrees members)

def treesOf : List Value → List Tree
  | [] => []
  | v :: rest => v.toTree :: treesOf rest

def memberTrees : List (String × Value) → List (List Char × Tree)
  | [] => []
  | (name, v) :: rest => member name v.toTree :: memberTrees rest

end

def Value.compact (v : Value) : String := v.toTree.compact

namespace Value

def ofInt (n : Int) : Value := .number (.whole n)

def ofNat (n : Nat) : Value := .number (.whole n)

def ofOption (f : α → Value) : Option α → Value
  | none => .null
  | some a => f a

def ofText? (s : Option String) : Value := ofOption .text s

/-- An object from members in any order; the last of a name wins. -/
def ofMembers (members : List (String × Value)) : Value :=
  .object (members.foldl (fun ms (name, v) => insertMember name v ms) [])

mutual

/-- Act on every text in a value, members in their order; the names of members are left
alone. -/
def mapTexts [Monad m] (f : String → m String) : Value → m Value
  | .text s => .text <$> f s
  | .list items => .list <$> mapItems f items
  | .object members => .object <$> mapMembers f members
  | v => pure v

def mapItems [Monad m] (f : String → m String) : List Value → m (List Value)
  | [] => pure []
  | v :: rest => do
    let v ← mapTexts f v
    let rest ← mapItems f rest
    return v :: rest

def mapMembers [Monad m] (f : String → m String) :
    List (String × Value) → m (List (String × Value))
  | [] => pure []
  | (name, v) :: rest => do
    let v ← mapTexts f v
    let rest ← mapMembers f rest
    return (name, v) :: rest

end

def get? (name : String) : Value → Option Value
  | .object members => members.lookup name
  | _ => none

def at? (path : List String) (v : Value) : Option Value :=
  path.foldlM (fun v name => v.get? name) v

def text? : Value → Option String
  | .text s => some s
  | _ => none

def list? : Value → Option (List Value)
  | .list items => some items
  | _ => none

def bool? : Value → Option Bool
  | .bool b => some b
  | _ => none

def natural? : Value → Option Nat
  | .number (.whole n) => if 0 ≤ n then some n.toNat else none
  | _ => none

def integer? : Value → Option Int
  | .number (.whole n) => if n < Number.twoTo 63 then some n else none
  | _ => none

/-- Any number, as the nearest double. -/
def double? : Value → Option Double
  | .number (.whole n) => some (Double.ofInt n)
  | .number (.double x) => some x
  | _ => none

end Value

end IndexingPipeline.Json
