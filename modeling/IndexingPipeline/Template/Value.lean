import IndexingPipeline.Number.Shortest
import IndexingPipeline.Text.Case
import IndexingPipeline.Text.Quoted

/-!
# Template values

What an expression of a template stands for: nothing at all, texts that may be marked as safe
for markup, numbers, lists, maps ordered by key, and names of things that only the renderer
knows. This file holds how values are told apart, compared, shown and calculated with.
-/

namespace IndexingPipeline.Template

open Number (Double DoubleStyle)

/-- A thing that lives in the renderer: a function, a definition of the template, the state of
a loop, a namespace with members that can be set. -/
inductive Handle where
  | function (name : String)
  | definition (index : Nat)
  | caller (index : Nat)
  | loop (index : Nat)
  | space (index : Nat)
  deriving DecidableEq, Repr

inductive Value where
  | undefined
  | none
  | bool (value : Bool)
  | int (n : Int)
  | float (x : Float)
  | text (s : String) (safe : Bool)
  | list (items : List Value)
  | map (members : List (Value × Value))
  | handle (h : Handle)
  deriving Inhabited

inductive Fault where
  | undefinedValue
  | unknownName (name : String)
  | unsupported
  | wrongArguments
  | tooDeep
  | missingTemplate (name : String)
  deriving DecidableEq, Repr

namespace Value

def ofText (s : String) : Value := .text s false

def text? : Value → Option String
  | .text s _ => some s
  | _ => Option.none

def isText : Value → Bool
  | .text _ _ => true
  | _ => false

/-- The place of a value's kind in the order of kinds. -/
def rank : Value → Nat
  | .undefined => 0
  | .none => 1
  | .bool _ => 2
  | .int _ => 3
  | .float _ => 3
  | .text _ _ => 4
  | .list _ => 6
  | .map _ => 7
  | .handle _ => 9

def holds : Value → Bool
  | .undefined => false
  | .none => false
  | .bool b => b
  | .int n => n ≠ 0
  | .float x => x != 0.0
  | .text s _ => s ≠ ""
  | .list items => !items.isEmpty
  | .map members => !members.isEmpty
  | .handle _ => true

/-- The integer nearest to zero within a float, when it is finite. -/
def truncate (x : Float) : Option Int :=
  if x.isFinite then
    let d : Double := ⟨x.toBits⟩
    let (num, den) := d.ratio
    let n : Int := (num / den : Nat)
    some (if d.isNegative then -n else n)
  else Option.none

def floatOf (n : Int) : Float := Float.ofBits (Double.ofInt n).bits

/-- A truth value, an integer or a whole float, as an integer. -/
def int? : Value → Option Int
  | .bool b => some (if b then 1 else 0)
  | .int n => some n
  | .float x =>
    match truncate x with
    | some n => if floatOf n == x then some n else Option.none
    | Option.none => Option.none
  | _ => Option.none

def float? : Value → Option Float
  | .bool b => some (if b then 1.0 else 0.0)
  | .int n => some (floatOf n)
  | .float x => some x
  | _ => Option.none

inductive Pair where
  | ints (a b : Int)
  | floats (a b : Float)
  | texts (a b : String)

def pair? (a b : Value) : Option Pair :=
  match a, b with
  | .text s _, .text t _ => some (.texts s t)
  | .float x, b => (float? b).map (.floats x ·)
  | a, .float y => (float? a).map (.floats · y)
  | a, b => do return .ints (← int? a) (← int? b)

/-- Numbers in order, with the sign of a zero and of no number taken into account. -/
def totalOrder (x y : Float) : Ordering :=
  let key (x : Float) : Int :=
    let d : Double := ⟨x.toBits⟩
    if d.isNegative then -(d.magnitude : Int) - 1 else d.magnitude
  compare (key x) (key y)

mutual

/-- Whether two values are the same to a template. -/
def equal : Value → Value → Bool
  | .undefined, .undefined => true
  | .none, .none => true
  | .list xs, .list ys => equalLists xs ys
  | .map xs, .map ys => equalMaps xs ys
  | .handle h, .handle k => h = k
  | a, b =>
    match pair? a b with
    | some (.ints m n) => m = n
    | some (.floats x y) => x == y
    | some (.texts s t) => s = t
    | Option.none => false

def equalLists : List Value → List Value → Bool
  | [], [] => true
  | x :: xs, y :: ys => equal x y && equalLists xs ys
  | _, _ => false

def equalMaps : List (Value × Value) → List (Value × Value) → Bool
  | [], [] => true
  | (k, v) :: xs, (l, w) :: ys => equal k l && equal v w && equalMaps xs ys
  | _, _ => false

end

mutual

/-- The order of values: by kind, and within a kind by content. -/
def order : Value → Value → Ordering
  | .list xs, .list ys => orderLists xs ys
  | .map xs, .map ys => orderMaps xs ys
  | a, b =>
    match compare a.rank b.rank with
    | .eq =>
      match pair? a b with
      | some (.ints m n) => compare m n
      | some (.floats x y) => totalOrder x y
      | some (.texts s t) => compareOfLessAndEq s t
      | Option.none => .eq
    | other => other

def orderLists : List Value → List Value → Ordering
  | [], [] => .eq
  | [], _ :: _ => .lt
  | _ :: _, [] => .gt
  | x :: xs, y :: ys =>
    match order x y with
    | .eq => orderLists xs ys
    | other => other

def orderMaps : List (Value × Value) → List (Value × Value) → Ordering
  | [], [] => .eq
  | [], _ :: _ => .lt
  | _ :: _, [] => .gt
  | (k, v) :: xs, (l, w) :: ys =>
    match order k l with
    | .eq =>
      match order v w with
      | .eq => orderMaps xs ys
      | other => other
    | other => other

end

/-- Put a member in its place, in place of one with an equal key. -/
def insertMember (k v : Value) : List (Value × Value) → List (Value × Value)
  | [] => [(k, v)]
  | (l, w) :: rest =>
    match order k l with
    | .lt => (k, v) :: (l, w) :: rest
    | .eq => (l, v) :: rest
    | .gt => (l, w) :: insertMember k v rest

def ofMembers (members : List (Value × Value)) : Value :=
  .map (members.foldl (fun ms (k, v) => insertMember k v ms) [])

def member? (k : Value) (members : List (Value × Value)) : Option Value :=
  (members.find? fun (l, _) => order k l == .eq).map (·.2)

/-- Floats are written positionally whatever their size. -/
def plainStyle : DoubleStyle := ⟨-400, 400, "e"⟩

/-- Within a list or map, floats of an extreme size are written with an exponent. -/
def nestedStyle : DoubleStyle := ⟨-4, 16, "e"⟩

def showFloat (style : DoubleStyle) (x : Float) : String :=
  if x.isNaN then "NaN"
  else if x.isInf then (if x < 0.0 then "-inf" else "inf")
  else (Double.mk x.toBits).render style

def showHandle : Handle → String
  | .function name => "<function " ++ name ++ ">"
  | .definition _ => "<macro>"
  | .caller _ => "<macro caller>"
  | .loop _ => "<loop>"
  | .space _ => "\x7b\x7d"

mutual

def nested : Value → String
  | .undefined => "undefined"
  | .none => "None"
  | .bool true => "True"
  | .bool false => "False"
  | .int n => toString n
  | .float x => showFloat nestedStyle x
  | .text s _ => Text.quoted s
  | .list items => "[" ++ nestedItems items ++ "]"
  | .map members => "\x7b" ++ nestedMembers members ++ "\x7d"
  | .handle h => showHandle h

def nestedItems : List Value → String
  | [] => ""
  | [v] => nested v
  | v :: w :: rest => nested v ++ ", " ++ nestedItems (w :: rest)

def nestedMembers : List (Value × Value) → String
  | [] => ""
  | [(k, v)] => nested k ++ ": " ++ nested v
  | (k, v) :: m :: rest => nested k ++ ": " ++ nested v ++ ", " ++ nestedMembers (m :: rest)

end

def display : Value → String
  | .undefined => ""
  | .float x => showFloat plainStyle x
  | .text s _ => s
  | v => nested v

def markupChar : Char → List Char
  | '<' => "&lt;".toList
  | '>' => "&gt;".toList
  | '&' => "&amp;".toList
  | '"' => "&quot;".toList
  | '\'' => "&#x27;".toList
  | '/' => "&#x2f;".toList
  | c => [c]

def markup (s : String) : String := String.ofList (s.toList.flatMap markupChar)

/-- The text of a value where markup is guarded against. -/
def guarded : Value → String
  | .text s true => s
  | .text s false => markup s
  | .list items => markup (display (.list items))
  | .map members => markup (display (.map members))
  | .handle h => markup (display (.handle h))
  | v => display v

/-- What a loop over a value runs through; a text gives its characters and a map its keys. -/
def items? : Value → Option (List Value)
  | .undefined => some []
  | .none => some []
  | .text s _ => some (s.toList.map fun c => ofText (String.ofList [c]))
  | .list items => some items
  | .map members => some (members.map (·.1))
  | _ => Option.none

/-- The range of integers that a template can calculate in. -/
def inRange (n : Int) : Bool := -(Number.twoTo 127 : Int) ≤ n && n < Number.twoTo 127

def ofInt? (n : Int) : Except Fault Value :=
  if inRange n then .ok (.int n) else .error .unsupported

/-- A position in a sequence of that length, counted from the end when negative. -/
def position? (v : Value) (length : Nat) : Option Nat :=
  (int? v).bind fun i =>
    if 0 ≤ i then some i.toNat
    else if i.natAbs ≤ length then some (length - i.natAbs)
    else Option.none

/-- The member of a value at a key; none when there is none. -/
def item? (v k : Value) : Option Value :=
  match v with
  | .map members => member? k members
  | .list items => (position? k items.length).bind (items[·]?)
  | .text s _ =>
    (position? k s.length).bind fun i => (s.toList[i]?).map fun c => ofText (String.ofList [c])
  | _ => Option.none

/-- The member at a key, or undefined; an undefined value has no members to ask for. -/
def item (v k : Value) : Except Fault Value :=
  match v with
  | .undefined => .error .undefinedValue
  | v => .ok ((v.item? k).getD .undefined)

def stride (step : Nat) (bound : Nat) (xs : List α) : List α :=
  match bound, xs with
  | 0, _ => []
  | _, [] => []
  | bound + 1, x :: rest => x :: stride step bound (rest.drop (step - 1))

/-- The part of a sequence between two positions, in steps; backwards when the step is
negative. -/
def cut (xs : List α) (start stop : Option Int) (step : Int) : List α :=
  let n : Int := xs.length
  let fromEnd (i : Int) : Int := if i < 0 then i + n else i
  if 0 < step then
    let a := max 0 (min n (fromEnd (start.getD 0)))
    let b := max 0 (min n (fromEnd (stop.getD n)))
    stride step.toNat xs.length ((xs.take b.toNat).drop a.toNat)
  else
    let a := max (-1) (min (n - 1) (fromEnd (start.getD (n - 1))))
    let b := match stop with
      | some i => max (-1) (min (n - 1) (fromEnd i))
      | Option.none => -1
    stride (-step).toNat xs.length (((xs.take (a + 1).toNat).drop (b + 1).toNat).reverse)

/-- The sequence between two positions of a value. -/
def slice (v start stop step : Value) : Except Fault Value := do
  let bound (v : Value) : Except Fault (Option Int) :=
    match v with
    | .none => .ok Option.none
    | v =>
      match int? v with
      | some n => .ok (some n)
      | Option.none => .error .unsupported
  let start ← bound start
  let stop ← bound stop
  let step := (← bound step).getD 1
  if step = 0 then .error .unsupported
  else
    match v with
    | .text s _ => .ok (ofText (String.ofList (cut s.toList start stop step)))
    | .list items => .ok (.list (cut items start stop step))
    | .undefined => .ok (.list [])
    | .none => .ok (.list [])
    | _ => .error .unsupported

def repeated (s : String) (n : Nat) : String := String.join (List.replicate n s)

def add (a b : Value) : Except Fault Value :=
  match a, b with
  | .list xs, .list ys => .ok (.list (xs ++ ys))
  | a, b =>
    match pair? a b with
    | some (.ints m n) => ofInt? (m + n)
    | some (.floats x y) => .ok (.float (x + y))
    | some (.texts s t) => .ok (ofText (s ++ t))
    | Option.none => .error .unsupported

def sub (a b : Value) : Except Fault Value :=
  match pair? a b with
  | some (.ints m n) => ofInt? (m - n)
  | some (.floats x y) => .ok (.float (x - y))
  | _ => .error .unsupported

/-- How often something is repeated; only so often that the result can be held. -/
def times? (v : Value) : Option Nat :=
  (int? v).bind fun n => if 0 ≤ n ∧ n ≤ 1000000 then some n.toNat else Option.none

def mul (a b : Value) : Except Fault Value :=
  let repeatText (s : String) (n : Value) : Except Fault Value :=
    match times? n with
    | some n => .ok (ofText (repeated s n))
    | Option.none => .error .unsupported
  let repeatList (xs : List Value) (n : Value) : Except Fault Value :=
    match times? n with
    | some n => .ok (.list (List.replicate n xs).flatten)
    | Option.none => .error .unsupported
  match a, b with
  | .text s _, b => repeatText s b
  | a, .text s _ => repeatText s a
  | .list xs, b => repeatList xs b
  | a, .list xs => repeatList xs a
  | a, b =>
    match pair? a b with
    | some (.ints m n) => ofInt? (m * n)
    | some (.floats x y) => .ok (.float (x * y))
    | _ => .error .unsupported

def div (a b : Value) : Except Fault Value :=
  match float? a, float? b with
  | some x, some y => .ok (.float (x / y))
  | _, _ => .error .unsupported

/-- The remainder of floats, with the sign of the first; exact, by way of naturals. -/
def floatRem (x y : Float) : Float :=
  if !x.isFinite || y.isNaN || y == 0.0 then 0.0 / 0.0
  else if !y.isFinite then x
  else
    let (a, b) := (Double.mk x.toBits).ratio
    let (c, _) := (Double.mk y.toBits).ratio
    Float.ofBits (Double.ofRatio (Double.mk x.toBits).isNegative (a % c) b).bits

/-- The whole quotient that leaves a remainder of at least zero. -/
def floatQuotient (x y : Float) : Float :=
  let q := x / y
  let t := if q < 0.0 then q.ceil else q.floor
  if floatRem x y < 0.0 then (if 0.0 < y then t - 1.0 else t + 1.0) else t

def intDiv (a b : Value) : Except Fault Value :=
  match pair? a b with
  | some (.ints m n) => if n = 0 then .error .unsupported else ofInt? (m / n)
  | some (.floats x y) => .ok (.float (floatQuotient x y))
  | _ => .error .unsupported

def rem (a b : Value) : Except Fault Value :=
  match pair? a b with
  | some (.ints m n) => if n = 0 then .error .unsupported else ofInt? (m % n)
  | some (.floats x y) => .ok (.float (floatRem x y))
  | _ => .error .unsupported

def pow (a b : Value) : Except Fault Value :=
  match pair? a b with
  | some (.ints m n) =>
    if 0 ≤ n ∧ (n ≤ 128 ∨ m.natAbs ≤ 1) then
      let n := if m.natAbs ≤ 1 then (if n = 0 then 0 else 2 - n.toNat % 2) else n.toNat
      ofInt? (Int.pow m n)
    else .error .unsupported
  | some (.floats x y) => .ok (.float (x.pow y))
  | _ => .error .unsupported

def neg : Value → Except Fault Value
  | .int n => ofInt? (-n)
  | .float x => .ok (.float (-x))
  | _ => .error .unsupported

/-- Whether a value is found in a container: part of a text, item of a list, key of a map. -/
def contains (container v : Value) : Except Fault Value :=
  match container with
  | .undefined => .ok (.bool false)
  | .text s _ =>
    let t := v.display
    .ok (.bool ((s.splitOn t).length ≠ 1 || t = ""))
  | .list items => .ok (.bool (items.any (equal v ·)))
  | .map members => .ok (.bool (member? v members).isSome)
  | .handle _ => .ok (.bool false)
  | _ => .error .unsupported

end Value

end IndexingPipeline.Template
