import IndexingPipeline.Template.Token

/-!
# Filters and tests

The filters and tests that need nothing but their values. Those that call other filters, tests
or definitions are the renderer's. Arguments come by place and by name; which names a filter
knows is part of what it accepts.
-/

namespace IndexingPipeline.Template

/-- Arguments of a call: by place, and by name. -/
structure Args where
  placed : List Value
  named : List (String × Value)
  deriving Inhabited

abbrev Answer := Except Fault Value

namespace Args

/-- The argument at a place, or of a name, unless it is undefined or none. -/
def option (args : Args) (place : Nat) (name : String) : Option Value :=
  match args.placed[place]?.or (args.named.lookup name) with
  | some .undefined => none
  | some .none => none
  | found => found

/-- At most that many by place, and only these by name. -/
def check (args : Args) (most : Nat) (names : List String) : Except Fault Unit :=
  if args.placed.length ≤ most && args.named.all (fun (name, _) => name ∈ names) then .ok ()
  else .error .wrongArguments

def need (args : Args) (place : Nat) : Answer :=
  match args.placed[place]? with
  | some v => .ok v
  | none => .error .wrongArguments

end Args

/-- An argument as a text: a text itself, or what is shown of a value. -/
def textOf (v : Value) : String := v.display

/-- The items of a value that can be run through. -/
def itemsOf (v : Value) : Except Fault (List Value) :=
  match v.items? with
  | some items => .ok items
  | none => .error .unsupported

def countOf (v : Value) : Except Fault Nat :=
  match v.int? with
  | some n => if 0 ≤ n then .ok n.toNat else .error .wrongArguments
  | none => .error .wrongArguments

def intOf (v : Value) : Except Fault Int :=
  match v.int? with
  | some n => .ok n
  | none => .error .wrongArguments

def flagOf (v : Option Value) (fallback : Bool) : Except Fault Bool :=
  match v with
  | none => .ok fallback
  | some (.bool b) => .ok b
  | some v =>
    match v.int? with
    | some n => .ok (n ≠ 0)
    | none => .error .wrongArguments

/-- The value at a path of members with points between them; digits are positions. -/
def memberAt (v : Value) (path : String) : Value :=
  (path.splitOn ".").foldl (fun v part =>
    let key := match part.toNat? with
      | some n => Value.int n
      | none => Value.ofText part
    (v.item? key).getD .undefined) v

/-- What values are compared by: texts by their small form, unless case matters. -/
def sortKey (caseMatters : Bool) (v : Value) : Value :=
  match v with
  | .text s _ => if caseMatters then v else .ofText (Text.lower s)
  | v => v

/-- Sorted by a key, equal keys in the order given. -/
def sortBy (key : Value → Value) (xs : List Value) : List Value :=
  xs.mergeSort fun a b => Value.order (key a) (key b) != .gt

/-- The values whose key has not been seen before. -/
def firstOfEach (key : Value → Value) : List Value → List Value → List Value
  | _, [] => []
  | seen, v :: rest =>
    if seen.any (Value.equal (key v) ·) then firstOfEach key seen rest
    else v :: firstOfEach key (key v :: seen) rest

/-- Pieces of `size` items, the last filled up when there is something to fill it with. -/
def batches (size : Nat) (fill : Option Value) : Nat → List Value → List Value
  | 0, _ => []
  | bound + 1, xs =>
    if xs.isEmpty || size == 0 then []
    else
      let piece := xs.take size
      let filler := match fill with
        | some v => List.replicate (size - piece.length) v
        | none => []
      .list (piece ++ filler) :: batches size fill bound (xs.drop size)

/-- `count` pieces whose sizes differ by at most one, the longer ones first; with a filler the
shorter ones are brought to the same size. -/
def columns (count : Nat) (fill : Option Value) (xs : List Value) : List Value :=
  let size := xs.length / count
  let longer := xs.length % count
  (List.range count).map fun i =>
    let start := i * size + min i longer
    let piece := (xs.drop start).take (if i < longer then size + 1 else size)
    match fill with
    | some v => if i < longer then .list piece else .list (piece ++ [v])
    | none => .list piece

def dropLineEnd (s : String) : String := String.ofList (withoutLastLineEnd s.toList)

/-- Every line but perhaps the first set in by a number of spaces. -/
def setIn (s : String) (width : Nat) (first blank : Bool) : String :=
  let space := String.ofList (List.replicate width ' ')
  let one (line : String) : String :=
    if line = "" then (if blank then space else "") else space ++ line
  match (dropLineEnd s).splitOn "\n" with
  | [] => ""
  | line :: rest =>
    let head := if first then one line else line
    dropLineEnd (String.join ((head :: rest.map one).map (· ++ "\n")))

def wordsFrom : List Char → List Char → List (List Char)
  | word, [] => if word = [] then [] else [word.reverse]
  | word, c :: rest =>
    if Text.isBlank c then
      if word = [] then wordsFrom [] rest else word.reverse :: wordsFrom [] rest
    else wordsFrom (c :: word) rest

/-- A text cut at a separator, at most `most` times when a limit is given. -/
def splitText (s sep : String) (most : Option Nat) : List String :=
  let parts := s.splitOn sep
  match most with
  | none => parts
  | some n =>
    if parts.length ≤ n + 1 then parts
    else parts.take n ++ [sep.intercalate (parts.drop n)]

/-- Join the texts of values; a separator goes only after something that is not empty. -/
def joinTexts (sep : String) (xs : List Value) : String :=
  xs.foldl (fun acc v => (if acc = "" then acc else acc ++ sep) ++ textOf v) ""

def trimOf (drop : Char → Bool) (s : String) : String :=
  String.ofList (((s.toList.dropWhile drop).reverse.dropWhile drop).reverse)

/-- The integer that a text spells, a sign allowed. -/
def intText? (s : String) : Option Int :=
  match s.toList with
  | '-' :: ds => (numberIn? 10 ds).map fun n => -(n : Int)
  | '+' :: ds => (numberIn? 10 ds).map Int.ofNat
  | ds => (numberIn? 10 ds).map Int.ofNat

/-- The float that a text spells, with the words for infinity and no number. -/
def floatText? (s : String) : Option Float :=
  let (negative, word) := match s.toList with
    | '-' :: rest => (true, rest)
    | '+' :: rest => (false, rest)
    | rest => (false, rest)
  let word := String.ofList (word.map Char.toLower)
  let signed (x : Float) : Float := if negative then -x else x
  if word = "inf" ∨ word = "infinity" then some (signed (1.0 / 0.0))
  else if word = "nan" then some (0.0 / 0.0)
  else floatOf? s.toList

def toInt : Value → Answer
  | .undefined => .ok (.int 0)
  | .none => .ok (.int 0)
  | .bool b => .ok (.int (if b then 1 else 0))
  | .int n => .ok (.int n)
  | .float x => .ok (.int ((Value.truncate x).getD 0))
  | .text s _ =>
    match intText? s with
    | some n => .ok (.int n)
    | none =>
      match floatText? s with
      | some x => .ok (.int ((Value.truncate x).getD 0))
      | none => .error .unsupported
  | _ => .error .unsupported

def toFloat : Value → Answer
  | .undefined => .ok (.float 0.0)
  | .none => .ok (.float 0.0)
  | .text s _ =>
    match floatText? s with
    | some x => .ok (.float x)
    | none => .error .unsupported
  | v =>
    match v.float? with
    | some x => .ok (.float x)
    | none => .error .unsupported

/-- A float to that many decimal places, a half away from zero. -/
def roundFloat (x : Float) (places : Int) : Float :=
  let scale := Float.pow 10.0 (Value.floatOf places)
  (scale * x).round / scale

def sumOf (xs : List Value) : Answer :=
  let given := xs.filter fun v => match v with
    | .undefined => false
    | _ => true
  match given with
  | [] => .ok (.int 0)
  | v :: rest => rest.foldlM Value.add v

def leastOf (xs : List Value) : Value :=
  match xs with
  | [] => .undefined
  | v :: rest => rest.foldl (fun a b => if Value.order b a == .lt then b else a) v

def greatestOf (xs : List Value) : Value :=
  match xs with
  | [] => .undefined
  | v :: rest => rest.foldl (fun a b => if Value.order b a == .lt then a else b) v

mutual

/-- A value spread over several lines, set in by its depth. -/
def spreadOut (depth : Nat) : Value → String
  | .list [] => "[]"
  | .list items => "[\n" ++ spreadItems (depth + 1) items ++ margin depth ++ "]"
  | .map [] => "\x7b\x7d"
  | .map members => "\x7b\n" ++ spreadMembers (depth + 1) members ++ margin depth ++ "\x7d"
  | v => v.nested

def spreadItems (depth : Nat) : List Value → String
  | [] => ""
  | v :: rest => margin depth ++ spreadOut depth v ++ ",\n" ++ spreadItems depth rest

def spreadMembers (depth : Nat) : List (Value × Value) → String
  | [] => ""
  | (k, v) :: rest =>
    margin depth ++ spreadOut depth k ++ ": " ++ spreadOut depth v ++ ",\n" ++
      spreadMembers depth rest

def margin (depth : Nat) : String := String.ofList (List.replicate (4 * depth) ' ')

end

def textFilter? : String → Option (String → String)
  | "upper" => some Text.upper
  | "lower" => some Text.lower
  | "title" => some Text.title
  | "capitalize" => some Text.capitalize
  | _ => none

def lengthOf : Value → Answer
  | .text s _ => .ok (.int s.length)
  | .list items => .ok (.int items.length)
  | .map members => .ok (.int members.length)
  | _ => .error .unsupported

def reverseOf : Value → Answer
  | .undefined => .ok .undefined
  | .none => .ok .none
  | .text s _ => .ok (.ofText (String.ofList s.toList.reverse))
  | .list items => .ok (.list items.reverse)
  | .map members => .ok (.list (members.map (·.1)).reverse)
  | _ => .error .unsupported

def lastOf : Value → Answer
  | .text s _ =>
    match s.toList.getLast? with
    | some c => .ok (.ofText (String.ofList [c]))
    | none => .ok .undefined
  | .list items => .ok (items.getLast?.getD .undefined)
  | _ => .error .unsupported

def pairsOf : Value → Except Fault (List Value)
  | .map members => .ok (members.map fun (k, v) => .list [k, v])
  | _ => .error .unsupported

def sortOf (v : Value) (args : Args) : Answer := do
  args.check 0 ["reverse", "case_sensitive", "attribute"]
  let items ← itemsOf v
  let reverse ← flagOf (args.named.lookup "reverse") false
  let caseMatters ← flagOf (args.named.lookup "case_sensitive") false
  let key (v : Value) : Value :=
    match args.named.lookup "attribute" with
    | some path => sortKey caseMatters (memberAt v (textOf path))
    | none => sortKey caseMatters v
  let sorted := sortBy key items
  return .list (if reverse then (sortBy key items.reverse).reverse else sorted)

def dictSort (v : Value) (args : Args) : Answer := do
  args.check 0 ["by", "reverse", "case_sensitive"]
  let pairs ← pairsOf v
  let reverse ← flagOf (args.named.lookup "reverse") false
  let caseMatters ← flagOf (args.named.lookup "case_sensitive") false
  let place ← match args.named.lookup "by" with
    | none => pure 0
    | some v =>
      match textOf v with
      | "key" => pure 0
      | "value" => pure 1
      | _ => throw Fault.wrongArguments
  let key (v : Value) : Value := sortKey caseMatters ((v.item? (.int place)).getD .undefined)
  let sorted := sortBy key pairs
  return .list (if reverse then sorted.reverse else sorted)

/-- The value, or what is given for an undefined one. -/
def fallback (v : Value) (args : Args) : Answer := do
  args.check 2 []
  let lax ← flagOf (args.option 1 "lax") false
  let replaced := match v with
    | .undefined => true
    | v => lax && !v.holds
  return if replaced then (args.placed[0]?).getD (.ofText "") else v

/-- The result of a filter of that name; none when there is no such filter here. -/
def applyFilter? (name : String) (v : Value) (args : Args) : Option Answer :=
  match textFilter? name with
  | some f => some do
    args.check 0 []
    return .ofText (f (textOf v))
  | none =>
    match name with
    | "safe" => some do
      args.check 0 []
      return .text (textOf v) true
    | "escape" => some do
      args.check 0 []
      return .text v.guarded true
    | "e" => some do
      args.check 0 []
      return .text v.guarded true
    | "string" => some do
      args.check 0 []
      return if v.isText then v else .ofText (textOf v)
    | "trim" => some do
      args.check 1 []
      match args.option 0 "chars" with
      | none => return .ofText (Text.trim (textOf v))
      | some chars => return .ofText (trimOf ((textOf chars).toList.contains ·) (textOf v))
    | "replace" => some do
      args.check 2 []
      let old := textOf (← args.need 0)
      let new := textOf (← args.need 1)
      let s := textOf v
      if old = "" then
        return .ofText (new ++ String.join (s.toList.map fun c => String.ofList [c] ++ new))
      else return .ofText (new.intercalate (s.splitOn old))
    | "length" => some do
      args.check 0 []
      lengthOf v
    | "count" => some do
      args.check 0 []
      lengthOf v
    | "reverse" => some do
      args.check 0 []
      reverseOf v
    | "first" => some do
      args.check 0 []
      return ((← itemsOf v)[0]?).getD .undefined
    | "last" => some do
      args.check 0 []
      lastOf v
    | "min" => some do
      args.check 0 []
      return leastOf (← itemsOf v)
    | "max" => some do
      args.check 0 []
      return greatestOf (← itemsOf v)
    | "sum" => some do
      args.check 0 []
      sumOf (← itemsOf v)
    | "list" => some do
      args.check 0 []
      return .list (← itemsOf v)
    | "bool" => some do
      args.check 0 []
      return .bool v.holds
    | "abs" => some do
      args.check 0 []
      match v with
      | .int n => Value.ofInt? n.natAbs
      | .float x => return .float x.abs
      | _ => throw .unsupported
    | "int" => some do
      args.check 0 []
      toInt v
    | "float" => some do
      args.check 0 []
      toFloat v
    | "round" => some do
      args.check 1 []
      let places ← match args.option 0 "precision" with
        | none => pure 0
        | some p => intOf p
      match v with
      | .int n => return .int n
      | .float x => return .float (roundFloat x places)
      | _ => throw .unsupported
    | "join" => some do
      args.check 1 []
      let sep := ((args.option 0 "joiner").map textOf).getD ""
      return .ofText (joinTexts sep (← itemsOf v))
    | "split" => some do
      args.check 2 []
      let most ← match args.option 1 "maxsplits" with
        | none => pure none
        | some n => do
          let n ← intOf n
          pure (if n < 0 then none else some n.toNat)
      match args.option 0 "sep" with
      | some sep =>
        return .list ((splitText (textOf v) (textOf sep) most).map Value.ofText)
      | none =>
        let words := wordsFrom [] (textOf v).toList
        return .list (words.map fun w => .ofText (String.ofList w))
    | "lines" => some do
      args.check 0 []
      let s := textOf v
      if s = "" then return .list []
      let whole := if s.toList.getLast? = some '\n' then String.ofList s.toList.dropLast else s
      return .list ((whole.splitOn "\n").map fun line =>
        .ofText (if line.toList.getLast? = some '\r' then String.ofList line.toList.dropLast
          else line))
    | "default" => some (fallback v args)
    | "d" => some (fallback v args)
    | "attr" => some do
      args.check 1 []
      v.item (← args.need 0)
    | "items" => some do
      args.check 0 []
      return .list (← pairsOf v)
    | "dictsort" => some (dictSort v args)
    | "sort" => some (sortOf v args)
    | "unique" => some do
      args.check 0 ["case_sensitive", "attribute"]
      let caseMatters ← flagOf (args.named.lookup "case_sensitive") false
      let key (v : Value) : Value :=
        match args.named.lookup "attribute" with
        | some path => sortKey caseMatters (memberAt v (textOf path))
        | none => sortKey caseMatters v
      return .list (firstOfEach key [] (← itemsOf v))
    | "batch" => some do
      args.check 2 []
      let size ← countOf (← args.need 0)
      let items ← itemsOf v
      if size = 0 then throw .wrongArguments
      return .list (batches size (args.option 1 "fill_with") items.length items)
    | "slice" => some do
      args.check 2 []
      let count ← countOf (← args.need 0)
      if count = 0 then throw .wrongArguments
      return .list (columns count (args.option 1 "fill_with") (← itemsOf v))
    | "indent" => some do
      args.check 3 []
      let width ← countOf (← args.need 0)
      let first ← flagOf (args.option 1 "first") false
      let blank ← flagOf (args.option 2 "blank") false
      return .ofText (setIn (textOf v) width first blank)
    | "zip" => some do
      let lists ← (v :: args.placed).mapM itemsOf
      let shortest := lists.foldl (fun n xs => min n xs.length) (lists.headD []).length
      return .list ((List.range shortest).map fun i =>
        .list (lists.filterMap fun xs => xs[i]?))
    | "chain" => some do
      let lists ← (v :: args.placed).mapM itemsOf
      return .list lists.flatten
    | "pprint" => some do
      args.check 0 []
      return .ofText (spreadOut 0 v)
    | _ => none

def callingFilters : List String :=
  ["map", "select", "reject", "selectattr", "rejectattr", "groupby"]

def isFilter (name : String) : Bool :=
  name ∈ callingFilters || (applyFilter? name .undefined ⟨[], []⟩).isSome

def comparison? : String → Option (Ordering → Bool)
  | "lt" => some (· == .lt)
  | "lessthan" => some (· == .lt)
  | "<" => some (· == .lt)
  | "le" => some (· != .gt)
  | "<=" => some (· != .gt)
  | "gt" => some (· == .gt)
  | "greaterthan" => some (· == .gt)
  | ">" => some (· == .gt)
  | "ge" => some (· != .lt)
  | ">=" => some (· != .lt)
  | _ => none

/-- The answer of a test that is given nothing but the value. -/
def alone (args : Args) (holds : Bool) : Option (Except Fault Bool) :=
  if args.placed.isEmpty && args.named.isEmpty then some (.ok holds)
  else some (.error .wrongArguments)

/-- The answer of a test of texts that is given nothing but the value. -/
def aloneOnText (args : Args) (v : Value) (holds : String → Bool) :
    Option (Except Fault Bool) :=
  match v with
  | .text s _ => alone args (holds s)
  | _ => some (.error .unsupported)

def isSafe : Value → Bool
  | .text _ safe => safe
  | _ => false

def isInt : Value → Bool
  | .int _ => true
  | _ => false

def equality (args : Args) (v : Value) (negated : Bool) : Option (Except Fault Bool) := some do
  args.check 1 []
  return Value.equal v (← args.need 0) != negated

/-- The tests that are no comparisons by order. -/
def testNames : List String :=
  ["undefined", "defined", "none", "true", "false", "boolean", "safe", "escaped", "odd",
    "even", "divisibleby", "number", "integer", "int", "float", "string", "sequence",
    "iterable", "mapping", "startingwith", "endingwith", "lower", "upper", "eq", "equalto",
    "==", "ne", "!=", "sameas", "in", "filter", "test"]

/-- Whether a test of that name holds; none when there is no such test here. -/
def applyTest? (name : String) (v : Value) (args : Args) : Option (Except Fault Bool) :=
  match comparison? name with
  | some f => some do
    args.check 1 []
    return f (Value.order v (← args.need 0))
  | none =>
    match name with
    | "undefined" => alone args (match v with
      | .undefined => true
      | _ => false)
    | "defined" => alone args (match v with
      | .undefined => false
      | _ => true)
    | "none" => alone args (match v with
      | .none => true
      | _ => false)
    | "true" => alone args (match v with
      | .bool b => b
      | _ => false)
    | "false" => alone args (match v with
      | .bool b => !b
      | _ => false)
    | "boolean" => alone args (match v with
      | .bool _ => true
      | _ => false)
    | "safe" => alone args (isSafe v)
    | "escaped" => alone args (isSafe v)
    | "odd" => alone args ((v.int?).any (· % 2 ≠ 0))
    | "even" => alone args ((v.int?).any (· % 2 = 0))
    | "divisibleby" => some do
      args.check 1 []
      match Value.pair? v (← args.need 0) with
      | some (.ints a b) => return b ≠ 0 && a % b = 0
      | some (.floats x y) => return Value.floatRem x y == 0.0
      | _ => return false
    | "number" => alone args (match v with
      | .int _ => true
      | .float _ => true
      | _ => false)
    | "integer" => alone args (isInt v)
    | "int" => alone args (isInt v)
    | "float" => alone args (match v with
      | .float _ => true
      | _ => false)
    | "string" => alone args v.isText
    | "sequence" => alone args (match v with
      | .list _ => true
      | _ => false)
    | "iterable" => alone args v.items?.isSome
    | "mapping" => alone args (match v with
      | .map _ => true
      | _ => false)
    | "startingwith" => some do
      args.check 1 []
      return (textOf (← args.need 0)).toList.isPrefixOf (textOf v).toList
    | "endingwith" => some do
      args.check 1 []
      return (textOf (← args.need 0)).toList.isSuffixOf (textOf v).toList
    | "lower" => aloneOnText args v fun s => s.toList.all fun c => Text.upperOf c != [c]
    | "upper" => aloneOnText args v fun s => s.toList.all fun c => Text.lowerOf c != [c]
    | "eq" => equality args v false
    | "equalto" => equality args v false
    | "==" => equality args v false
    | "ne" => equality args v true
    | "!=" => equality args v true
    | "sameas" => some do
      args.check 1 []
      let w ← args.need 0
      return v.rank == w.rank && Value.equal v w
    | "in" => some do
      args.check 1 []
      return (← Value.contains (← args.need 0) v).holds
    | "filter" => aloneOnText args v isFilter
    | "test" => aloneOnText args v fun s => s ∈ testNames || (comparison? s).isSome
    | _ => none

end IndexingPipeline.Template
