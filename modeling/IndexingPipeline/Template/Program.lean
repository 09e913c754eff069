import IndexingPipeline.Template.Token

/-!
# Template programs

What a template says once its tokens are grouped: expressions that have a value and statements
that write text. `Program.read?` groups them; a template whose tokens cannot be grouped is no
program.
-/

namespace IndexingPipeline.Template

inductive Operator where
  | add
  | sub
  | mul
  | div
  | intDiv
  | rem
  | pow
  | join
  | eq
  | ne
  | lt
  | le
  | gt
  | ge
  | within
  | both
  | either
  deriving DecidableEq, Repr

mutual

inductive Expr where
  | var (name : String)
  | const (v : Value)
  | negate (e : Expr)
  | invert (e : Expr)
  | binary (op : Operator) (left right : Expr)
  | choice (test yes : Expr) (no : Option Expr)
  | filter (name : String) (e : Option Expr) (args : List Arg)
  | test (name : String) (e : Expr) (args : List Arg)
  | attr (e : Expr) (name : String)
  | item (e key : Expr)
  | slice (e : Expr) (start stop step : Option Expr)
  | call (e : Expr) (args : List Arg)
  | list (items : List Expr)
  | map (members : List (Expr × Expr))

inductive Arg where
  | placed (e : Expr)
  | named (name : String) (e : Expr)
  | spread (e : Expr)
  | spreadNamed (e : Expr)

end

instance : Inhabited Expr := ⟨.const .undefined⟩

/-- What an assignment gives values to: a name, a member of a namespace, or several targets at
once. -/
inductive Target where
  | name (s : String)
  | member (space : String) (s : String)
  | several (targets : List Target)
  deriving Inhabited

/-- A parameter of a definition, perhaps with a value to fall back on. -/
structure Parameter where
  name : String
  fallback : Option Expr

inductive Stmt where
  | data (s : String)
  | emit (e : Expr)
  | loop (target : Target) (source : Expr) (keep : Option Expr) (recursive : Bool)
      (body otherwise : List Stmt)
  | cond (test : Expr) (yes no : List Stmt)
  | withs (bindings : List (Target × Expr)) (body : List Stmt)
  | set (target : Target) (e : Expr)
  | capture (target : Target) (filter : Option Expr) (body : List Stmt)
  | guard (mode : Expr) (body : List Stmt)
  | filtered (filter : Expr) (body : List Stmt)
  | block (name : String) (body : List Stmt)
  | extend (parent : Expr)
  | insert (template : Expr) (ignoreMissing : Bool)
  | importAll (template : Expr) (target : Target)
  | importSome (template : Expr) (names : List (String × Option String))
  | define (name : String) (parameters : List Parameter) (body : List Stmt)
  | callBlock (e : Expr) (args : List Arg) (parameters : List Parameter) (body : List Stmt)
  | run (e : Expr) (args : List Arg)

def reserved : List String :=
  ["true", "True", "false", "False", "none", "None", "loop", "self"]

/-- A step of grouping: what was read and the tokens after it. -/
abbrev Step (α : Type) := List Token → Option (α × List Token)

def expectSign (s : String) : Step Unit
  | t :: ts => if t.isSign s then some ((), ts) else none
  | [] => none

def expectWord (s : String) : Step Unit
  | t :: ts => if t.isWord s then some ((), ts) else none
  | [] => none

def expectName : Step String
  | .name s :: ts => some (s, ts)
  | _ => none

def expectClose : Step Unit
  | .closeBlock :: ts => some ((), ts)
  | _ => none

def skipSign (s : String) (ts : List Token) : Bool × List Token :=
  match ts with
  | t :: rest => if t.isSign s then (true, rest) else (false, ts)
  | [] => (false, [])

def skipWord (s : String) (ts : List Token) : Bool × List Token :=
  match ts with
  | t :: rest => if t.isWord s then (true, rest) else (false, ts)
  | [] => (false, [])

def operatorIn (table : List (String × Operator)) : List Token → Option (Operator × List Token)
  | .sign s :: ts => (table.lookup s).map fun op => (op, ts)
  | .name s :: ts => (table.lookup s).map fun op => (op, ts)
  | _ => none

/-- Operands of one level joined from the left; the bound is on their number. -/
def joinLeft (table : List (String × Operator)) (operand : Step Expr) :
    Nat → Expr → Step Expr
  | 0, _, _ => none
  | bound + 1, left, ts =>
    match operatorIn table ts with
    | some (op, rest) => do
      let (right, rest) ← operand rest
      joinLeft table operand bound (.binary op left right) rest
    | none => some (left, ts)

def level (table : List (String × Operator)) (operand : Step Expr) : Step Expr := fun ts => do
  let (left, rest) ← operand ts
  joinLeft table operand (ts.length + 1) left rest

/-- Comparisons joined from the left; a negated membership is the inverse of the other. -/
def joinCompare (operand : Step Expr) : Nat → Expr → Step Expr
  | 0, _, _ => none
  | bound + 1, left, ts =>
    let table : List (String × Operator) :=
      [("==", .eq), ("!=", .ne), ("<", .lt), ("<=", .le), (">", .gt), (">=", .ge),
       ("in", .within)]
    match operatorIn table ts with
    | some (op, rest) => do
      let (right, rest) ← operand rest
      joinCompare operand bound (.binary op left right) rest
    | none =>
      match ts with
      | .name "not" :: rest => do
        let ((), rest) ← expectWord "in" rest
        let (right, rest) ← operand rest
        joinCompare operand bound (.invert (.binary .within left right)) rest
      | _ => some (left, ts)

/-- Expressions separated by commas up to a closing sign; a comma may follow the last. -/
def exprsUntil (close : String) (expr : Step Expr) : Nat → Step (List Expr)
  | 0, _ => none
  | bound + 1, ts =>
    match skipSign close ts with
    | (true, rest) => some ([], rest)
    | (false, ts) => do
      let (e, rest) ← expr ts
      match skipSign close rest with
      | (true, rest) => return ([e], rest)
      | (false, rest) =>
        let ((), rest) ← expectSign "," rest
        let (es, rest) ← exprsUntil close expr bound rest
        return (e :: es, rest)

def membersUntil (expr : Step Expr) : Nat → Step (List (Expr × Expr))
  | 0, _ => none
  | bound + 1, ts =>
    match skipSign "\x7d" ts with
    | (true, rest) => some ([], rest)
    | (false, ts) => do
      let (k, rest) ← expr ts
      let ((), rest) ← expectSign ":" rest
      let (v, rest) ← expr rest
      match skipSign "\x7d" rest with
      | (true, rest) => return ([(k, v)], rest)
      | (false, rest) =>
        let ((), rest) ← expectSign "," rest
        let (ms, rest) ← membersUntil expr bound rest
        return ((k, v) :: ms, rest)

/-- Arguments after the opening bracket. Once a name has been given, all others need one. -/
def argsUntil (expr plain : Step Expr) : Nat → Bool → Step (List Arg)
  | 0, _, _ => none
  | bound + 1, afterName, ts =>
    match skipSign ")" ts with
    | (true, rest) => some ([], rest)
    | (false, ts) => do
      let (a, named, rest) ←
        match ts with
        | t :: rest =>
          if t.isSign "**" then do
            let (e, rest) ← expr rest
            some (Arg.spreadNamed e, true, rest)
          else if t.isSign "*" then do
            let (e, rest) ← expr rest
            some (Arg.spread e, afterName, rest)
          else do
            let (e, rest) ← expr ts
            match e, skipSign "=" rest with
            | .var name, (true, rest) => do
              let (v, rest) ← plain rest
              some (Arg.named name v, true, rest)
            | e, _ => if afterName then none else some (Arg.placed e, false, rest)
        | [] => none
      match skipSign ")" rest with
      | (true, rest) => return ([a], rest)
      | (false, rest) =>
        let ((), rest) ← expectSign "," rest
        let (as, rest) ← argsUntil expr plain bound named rest
        return (a :: as, rest)

def readArgs (expr plain : Step Expr) : Step (List Arg) := fun ts => do
  let ((), rest) ← expectSign "(" ts
  argsUntil expr plain (ts.length + 1) false rest

/-- The key or the bounds between square brackets. -/
def readSubscript (expr : Step Expr) (e : Expr) : Step Expr := fun ts => do
  let part (ts : List Token) : Option (Option Expr × List Token) :=
    match ts with
    | t :: _ =>
      if t.isSign ":" || t.isSign "]" then some (none, ts)
      else (expr ts).map fun (e, rest) => (some e, rest)
    | [] => none
  let (start, rest) ← part ts
  match skipSign ":" rest with
  | (false, rest) =>
    let ((), rest) ← expectSign "]" rest
    match start with
    | some key => return (.item e key, rest)
    | none => none
  | (true, rest) =>
    let (stop, rest) ← part rest
    match skipSign ":" rest with
    | (false, rest) =>
      let ((), rest) ← expectSign "]" rest
      return (.slice e start stop none, rest)
    | (true, rest) =>
      let (step, rest) ← part rest
      let ((), rest) ← expectSign "]" rest
      return (.slice e start stop step, rest)

/-- Members, subscripts and calls that follow an expression. -/
def readPostfix (expr plain : Step Expr) : Nat → Expr → Step Expr
  | 0, _, _ => none
  | bound + 1, e, ts =>
    match ts with
    | .sign "." :: rest => do
      let (name, rest) ← expectName rest
      readPostfix expr plain bound (.attr e name) rest
    | .sign "[" :: rest => do
      let (e, rest) ← readSubscript expr e rest
      readPostfix expr plain bound e rest
    | .sign "(" :: _ => do
      let (args, rest) ← readArgs expr plain ts
      readPostfix expr plain bound (.call e args) rest
    | _ => some (e, ts)

/-- Whether a token may start the bare argument of a test. -/
def startsTestArg : List Token → Bool
  | .name s :: _ => !(s ∈ ["and", "or", "else", "is"])
  | .text _ :: _ => true
  | .int _ :: _ => true
  | .float _ :: _ => true
  | .sign s :: _ => s ∈ ["+", "-", "[", "\x7b"]
  | _ => false

/-- Filters and tests that follow an expression. -/
def readFilters (expr plain bare : Step Expr) : Nat → Expr → Step Expr
  | 0, _, _ => none
  | bound + 1, e, ts =>
    match ts with
    | .sign "|" :: rest => do
      let (name, rest) ← expectName rest
      match rest with
      | .sign "(" :: _ =>
        let (args, rest) ← readArgs expr plain rest
        readFilters expr plain bare bound (.filter name (some e) args) rest
      | rest => readFilters expr plain bare bound (.filter name (some e) []) rest
    | .name "is" :: rest => do
      let (negated, rest) := skipWord "not" rest
      let (name, rest) ← expectName rest
      let (args, rest) ←
        match rest with
        | .sign "(" :: _ => readArgs expr plain rest
        | rest =>
          if startsTestArg rest then (bare rest).map fun (a, rest) => ([Arg.placed a], rest)
          else some ([], rest)
      let result := Expr.test name e args
      readFilters expr plain bare bound (if negated then .invert result else result) rest
    | _ => some (e, ts)

/-- A name, a literal, or something in brackets. -/
def readPrimary (expr : Step Expr) : Step Expr
  | .name s :: ts =>
    if s = "true" ∨ s = "True" then some (.const (.bool true), ts)
    else if s = "false" ∨ s = "False" then some (.const (.bool false), ts)
    else if s = "none" ∨ s = "None" then some (.const .none, ts)
    else some (.var s, ts)
  | .text s :: ts => some (.const (.text s false), ts)
  | .int n :: ts => some (.const (.int n), ts)
  | .float x :: ts => some (.const (.float x), ts)
  | .sign "(" :: ts =>
    match skipSign ")" ts with
    | (true, rest) => some (.list [], rest)
    | (false, ts) => do
      let (e, rest) ← expr ts
      match skipSign ")" rest with
      | (true, rest) => return (e, rest)
      | (false, rest) =>
        let ((), rest) ← expectSign "," rest
        let (es, rest) ← exprsUntil ")" expr (ts.length + 1) rest
        return (.list (e :: es), rest)
  | .sign "[" :: ts =>
    (exprsUntil "]" expr (ts.length + 1) ts).map fun (es, rest) => (.list es, rest)
  | .sign "\x7b" :: ts =>
    (membersUntil expr (ts.length + 1) ts).map fun (ms, rest) => (.map ms, rest)
  | _ => none

/-- A minus, repeated, before something with its members, subscripts and calls. -/
def readNegated (expr plain : Step Expr) : Nat → Step Expr
  | 0, _ => none
  | bound + 1, ts =>
    match ts with
    | .sign "-" :: rest =>
      (readNegated expr plain bound rest).map fun (e, rest) => (.negate e, rest)
    | ts => do
      let (e, rest) ← readPrimary expr ts
      readPostfix expr plain (ts.length + 1) e rest

/-- A word of inversion, repeated, before a comparison. -/
def readInverted (compared : Step Expr) : Nat → Step Expr
  | 0, _ => none
  | bound + 1, ts =>
    match ts with
    | .name "not" :: rest =>
      (readInverted compared bound rest).map fun (e, rest) => (.invert e, rest)
    | ts => compared ts

/-- Everything but a choice between values, given how to read what stands in brackets. -/
def readPlain (expr plain : Step Expr) : Step Expr := fun ts =>
  let bound := ts.length + 1
  let bare : Step Expr := readNegated expr plain bound
  let unary : Step Expr := fun ts => do
    let (e, rest) ← bare ts
    readFilters expr plain bare bound e rest
  let power := level [("**", .pow)] unary
  let product := level [("*", .mul), ("/", .div), ("//", .intDiv), ("%", .rem)] power
  let joined := level [("~", .join)] product
  let sum := level [("+", .add), ("-", .sub)] joined
  let compared : Step Expr := fun ts => do
    let (left, rest) ← sum ts
    joinCompare sum bound left rest
  let inverted := readInverted compared bound
  let conjunction := level [("and", .both)] inverted
  level [("or", .either)] conjunction ts

/-- Choices between values joined from the left. -/
def joinChoice (plain expr : Step Expr) : Nat → Expr → Step Expr
  | 0, _, _ => none
  | bound + 1, yes, ts =>
    match skipWord "if" ts with
    | (false, ts) => some (yes, ts)
    | (true, rest) => do
      let (test, rest) ← plain rest
      match skipWord "else" rest with
      | (true, rest) =>
        let (no, rest) ← expr rest
        joinChoice plain expr bound (.choice test yes (some no)) rest
      | (false, rest) => joinChoice plain expr bound (.choice test yes none) rest

/-- Expressions with at most `depth` brackets open: with choices, and without. -/
def readExprs : Nat → Step Expr × Step Expr
  | 0 => (fun _ => none, fun _ => none)
  | depth + 1 =>
    let inner := readExprs depth
    let plain := readPlain inner.1 inner.2
    let whole : Step Expr := fun ts => do
      let (e, rest) ← plain ts
      joinChoice plain inner.1 (ts.length + 1) e rest
    (whole, plain)

def bracketLimit : Nat := 150

def readExpr : Step Expr := (readExprs bracketLimit).1

def readPlainExpr : Step Expr := (readExprs bracketLimit).2

def readTargetName : Step Target := fun ts => do
  let (name, rest) ← expectName ts
  if name ∈ reserved then none else return (.name name, rest)

/-- One or more targets; more than one, or a comma after the first, make several. -/
def readTargets : Nat → Step (List Target × Bool)
  | 0, _ => none
  | bound + 1, ts => do
    let (first, rest) ←
      match skipSign "(" ts with
      | (true, rest) => do
        let ((targets, several), rest) ← readTargets bound rest
        let ((), rest) ← expectSign ")" rest
        let t := match targets, several with
          | [t], false => t
          | ts, _ => .several ts
        some (t, rest)
      | (false, ts) => readTargetName ts
    match skipSign "," rest with
    | (false, rest) => return (([first], false), rest)
    | (true, rest) =>
      let ends := match rest with
        | .sign ")" :: _ => true
        | .name "in" :: _ => true
        | .closeBlock :: _ => true
        | _ => false
      if ends then return (([first], true), rest)
      else
        let ((more, _), rest) ← readTargets bound rest
        return ((first :: more, true), rest)

def readTarget : Step Target := fun ts => do
  let ((targets, several), rest) ← readTargets (ts.length + 1) ts
  match targets, several with
  | [t], false => return (t, rest)
  | targets, _ => return (.several targets, rest)

/-- Filters up to the end of the statement, the first applied to nothing yet. -/
def readFilterChain : Nat → Option Expr → Step Expr
  | 0, _, _ => none
  | bound + 1, e, ts => do
    let (name, rest) ← expectName ts
    let (args, rest) ←
      match rest with
      | .sign "(" :: _ => readArgs readExpr readPlainExpr rest
      | rest => some ([], rest)
    let filter := Expr.filter name e args
    match skipSign "|" rest with
    | (true, rest) => readFilterChain bound (some filter) rest
    | (false, rest) => return (filter, rest)

/-- The parameters of a definition after the opening bracket. -/
def readParameters : Nat → Bool → Step (List Parameter)
  | 0, _, _ => none
  | bound + 1, afterFallback, ts =>
    match skipSign ")" ts with
    | (true, rest) => some ([], rest)
    | (false, ts) => do
      let (name, rest) ← expectName ts
      if name ∈ reserved then none
      let (fallback, rest) ←
        match skipSign "=" rest with
        | (true, rest) => (readExpr rest).map fun (e, rest) => (some e, rest)
        | (false, rest) => if afterFallback then none else some (none, rest)
      match skipSign ")" rest with
      | (true, rest) => return ([⟨name, fallback⟩], rest)
      | (false, rest) =>
        let ((), rest) ← expectSign "," rest
        let (more, rest) ← readParameters bound fallback.isSome rest
        return (⟨name, fallback⟩ :: more, rest)

/-- The bindings of a scope, separated by commas. -/
def readBindings : Nat → Step (List (Target × Expr))
  | 0, _ => none
  | bound + 1, ts =>
    match ts with
    | .closeBlock :: _ => some ([], ts)
    | ts => do
      let (target, rest) ←
        match skipSign "(" ts with
        | (true, rest) => do
          let (t, rest) ← readTarget rest
          let ((), rest) ← expectSign ")" rest
          some (t, rest)
        | (false, ts) => readTargetName ts
      let ((), rest) ← expectSign "=" rest
      let (e, rest) ← readExpr rest
      match skipSign "," rest with
      | (true, rest) =>
        let (more, rest) ← readBindings bound rest
        return ((target, e) :: more, rest)
      | (false, rest) => return ([(target, e)], rest)

/-- Names to import, each perhaps under another name. -/
def readImports : Nat → Step (List (String × Option String))
  | 0, _ => none
  | bound + 1, ts =>
    match ts with
    | .closeBlock :: _ => some ([], ts)
    | ts => do
      let (name, rest) ← expectName ts
      if name ∈ reserved then none
      let (alias?, rest) ←
        match skipWord "as" rest with
        | (true, rest) => do
          let (other, rest) ← expectName rest
          if other ∈ reserved then none else some (some other, rest)
        | (false, rest) => some (none, rest)
      match skipSign "," rest with
      | (true, rest) =>
        let (more, rest) ← readImports bound rest
        return ((name, alias?) :: more, rest)
      | (false, rest) => return ([(name, alias?)], rest)

/-- Past the words that say with which names a template is read; they change nothing. -/
def skipContext (ts : List Token) : Option (List Token) :=
  match ts with
  | .name "with" :: rest => (expectWord "context" rest).map (·.2)
  | .name "without" :: rest => (expectWord "context" rest).map (·.2)
  | ts => some ts

/-- Statements up to one of the closing words, which is left where it stands. -/
def readBody (stmt : Step Stmt) (ends : List String) : Nat → Step (List Stmt)
  | 0, _ => none
  | bound + 1, ts =>
    match ts with
    | [] => if ends = [] then some ([], []) else none
    | .data s :: rest => do
      let (body, rest) ← readBody stmt ends bound rest
      return (.data s :: body, rest)
    | .openVariable :: rest => do
      let (e, rest) ← readExpr rest
      match rest with
      | .closeVariable :: rest =>
        let (body, rest) ← readBody stmt ends bound rest
        return (.emit e :: body, rest)
      | _ => none
    | .openBlock :: .name word :: rest =>
      if word ∈ ends then some ([], .name word :: rest)
      else do
        let (s, rest) ← stmt (.name word :: rest)
        let ((), rest) ← expectClose rest
        let (body, rest) ← readBody stmt ends bound rest
        return (s :: body, rest)
    | _ => none

/-- The rest of a condition after its first word. -/
def readCond (stmt : Step Stmt) : Nat → Step Stmt
  | 0, _ => none
  | bound + 1, ts => do
    let (test, rest) ← readExpr ts
    let ((), rest) ← expectClose rest
    let (yes, rest) ← readBody stmt ["endif", "else", "elif"] (rest.length + 1) rest
    match rest with
    | .name "else" :: rest =>
      let ((), rest) ← expectClose rest
      let (no, rest) ← readBody stmt ["endif"] (rest.length + 1) rest
      return (.cond test yes no, rest.drop 1)
    | .name "elif" :: rest =>
      let (no, rest) ← readCond stmt bound rest
      return (.cond test yes [no], rest)
    | rest => return (.cond test yes [], rest.drop 1)

def readLoop (stmt : Step Stmt) : Step Stmt := fun ts => do
  let (target, rest) ← readTarget ts
  let ((), rest) ← expectWord "in" rest
  let (source, rest) ← readPlainExpr rest
  let (keep, rest) ←
    match skipWord "if" rest with
    | (true, rest) => (readExpr rest).map fun (e, rest) => (some e, rest)
    | (false, rest) => some (none, rest)
  let (recursive, rest) := skipWord "recursive" rest
  let ((), rest) ← expectClose rest
  let (body, rest) ← readBody stmt ["endfor", "else"] (rest.length + 1) rest
  match rest with
  | .name "else" :: rest =>
    let ((), rest) ← expectClose rest
    let (otherwise, rest) ← readBody stmt ["endfor"] (rest.length + 1) rest
    return (.loop target source keep recursive body otherwise, rest.drop 1)
  | rest => return (.loop target source keep recursive body [], rest.drop 1)

def readSet (stmt : Step Stmt) : Step Stmt := fun ts => do
  let (target, bracketed, rest) ←
    match skipSign "(" ts with
    | (true, rest) => do
      let (t, rest) ← readTarget rest
      let ((), rest) ← expectSign ")" rest
      some (t, true, rest)
    | (false, ts) => do
      let (t, rest) ← readTargetName ts
      match t, rest with
      | .name space, .sign "." :: rest => do
        let (member, rest) ← expectName rest
        some (.member space member, false, rest)
      | t, rest => some (t, false, rest)
  let captured (filter : Option Expr) (rest : List Token) : Option (Stmt × List Token) := do
    let ((), rest) ← expectClose rest
    let (body, rest) ← readBody stmt ["endset"] (rest.length + 1) rest
    return (.capture target filter body, rest.drop 1)
  match bracketed, rest with
  | false, .closeBlock :: _ => captured none rest
  | false, .sign "|" :: rest =>
    let (filter, rest) ← readFilterChain (rest.length + 1) none rest
    captured (some filter) rest
  | _, rest =>
    let ((), rest) ← expectSign "=" rest
    let (e, rest) ← readExpr rest
    return (.set target e, rest)

/-- A body between the end of its opening statement and its closing word. -/
def readEnclosed (stmt : Step Stmt) (close : String) : Step (List Stmt) := fun ts => do
  let ((), rest) ← expectClose ts
  let (body, rest) ← readBody stmt [close] (rest.length + 1) rest
  return (body, rest.drop 1)

def readInsert : Step Stmt := fun ts => do
  let (template, rest) ← readExpr ts
  let rest ← skipContext rest
  match skipWord "ignore" rest with
  | (true, rest) =>
    let ((), rest) ← expectWord "missing" rest
    let rest ← skipContext rest
    return (.insert template true, rest)
  | (false, rest) => return (.insert template false, rest)

def readBlock (stmt : Step Stmt) : Step Stmt := fun ts => do
  let (name, rest) ← expectName ts
  let (body, rest) ← readEnclosed stmt "endblock" rest
  match rest with
  | .name again :: rest => if again = name then return (.block name body, rest) else none
  | rest => return (.block name body, rest)

def readDefine (stmt : Step Stmt) : Step Stmt := fun ts => do
  let (name, rest) ← expectName ts
  let ((), rest) ← expectSign "(" rest
  let (parameters, rest) ← readParameters (rest.length + 1) false rest
  let (body, rest) ← readEnclosed stmt "endmacro" rest
  match rest with
  | .name again :: rest =>
    if again = name then return (.define name parameters body, rest) else none
  | rest => return (.define name parameters body, rest)

def readCallBlock (stmt : Step Stmt) : Step Stmt := fun ts => do
  let (parameters, rest) ←
    match skipSign "(" ts with
    | (true, rest) => readParameters (rest.length + 1) false rest
    | (false, ts) => some ([], ts)
  let (e, rest) ← readExpr rest
  match e with
  | .call f args =>
    let (body, rest) ← readEnclosed stmt "endcall" rest
    return (.callBlock f args parameters body, rest)
  | _ => none

/-- One statement after the opening of its tag, with at most `depth` of them nested. -/
def readStmt : Nat → Step Stmt
  | 0, _ => none
  | depth + 1, ts =>
    let stmt := readStmt depth
    match ts with
    | .name "for" :: ts => readLoop stmt ts
    | .name "if" :: ts => readCond stmt (ts.length + 1) ts
    | .name "with" :: ts => do
      let (bindings, rest) ← readBindings (ts.length + 1) ts
      let (body, rest) ← readEnclosed stmt "endwith" rest
      return (.withs bindings body, rest)
    | .name "set" :: ts => readSet stmt ts
    | .name "autoescape" :: ts => do
      let (mode, rest) ← readExpr ts
      let (body, rest) ← readEnclosed stmt "endautoescape" rest
      return (.guard mode body, rest)
    | .name "filter" :: ts => do
      let (filter, rest) ← readFilterChain (ts.length + 1) none ts
      let (body, rest) ← readEnclosed stmt "endfilter" rest
      return (.filtered filter body, rest)
    | .name "block" :: ts => readBlock stmt ts
    | .name "extends" :: ts => (readExpr ts).map fun (e, rest) => (.extend e, rest)
    | .name "include" :: ts => readInsert ts
    | .name "import" :: ts => do
      let (template, rest) ← readExpr ts
      let ((), rest) ← expectWord "as" rest
      let (target, rest) ← readTargetName rest
      let rest ← skipContext rest
      return (.importAll template target, rest)
    | .name "from" :: ts => do
      let (template, rest) ← readExpr ts
      let ((), rest) ← expectWord "import" rest
      let (names, rest) ← readImports (rest.length + 1) rest
      return (.importSome template names, rest)
    | .name "macro" :: ts => readDefine stmt ts
    | .name "call" :: ts => readCallBlock stmt ts
    | .name "do" :: ts => do
      let (e, rest) ← readExpr ts
      match e with
      | .call f args => return (.run f args, rest)
      | _ => none
    | _ => none

abbrev Program := List Stmt

def nestingLimit : Nat := 150

mutual

/-- The names of the blocks in a statement, at any depth. -/
def Stmt.blockNames : Stmt → List String
  | .block name body => name :: blockNames body
  | .loop _ _ _ _ body otherwise => blockNames body ++ blockNames otherwise
  | .cond _ yes no => blockNames yes ++ blockNames no
  | .withs _ body => blockNames body
  | .capture _ _ body => blockNames body
  | .guard _ body => blockNames body
  | .filtered _ body => blockNames body
  | .define _ _ body => blockNames body
  | .callBlock _ _ _ body => blockNames body
  | _ => []

def blockNames : List Stmt → List String
  | [] => []
  | s :: rest => s.blockNames ++ blockNames rest

end

mutual

/-- Whether no definition in a statement holds a block: what a definition says is written where it
is called, and a block is written where it stands. -/
def Stmt.definesNoBlock : Stmt → Bool
  | .define _ _ body => (blockNames body).isEmpty
  | .callBlock _ _ _ body => (blockNames body).isEmpty
  | .block _ body => defineNoBlock body
  | .loop _ _ _ _ body otherwise => defineNoBlock body && defineNoBlock otherwise
  | .cond _ yes no => defineNoBlock yes && defineNoBlock no
  | .withs _ body => defineNoBlock body
  | .capture _ _ body => defineNoBlock body
  | .guard _ body => defineNoBlock body
  | .filtered _ body => defineNoBlock body
  | _ => true

def defineNoBlock : List Stmt → Bool
  | [] => true
  | s :: rest => s.definesNoBlock && defineNoBlock rest

end

/-- The program that a template spells. Each block has a name of its own. -/
def Program.read? (source : String) : Option Program := do
  let ts ← tokens? source
  let (body, _) ← readBody (readStmt nestingLimit) [] (ts.length + 1) ts
  if (blockNames body).Nodup ∧ defineNoBlock body then return body else none

end IndexingPipeline.Template
