import IndexingPipeline.Template.Program
import IndexingPipeline.Template.Filter

/-!
# Rendering

What a template writes. A `Scene` holds everything that changes while a template is carried
out; `Renderer.ofDepth` carries out expressions and statements nested no deeper than a bound,
each level calling the one below it, so that rendering always ends. `Library.render` writes
one template of a library whose members can include each other by name.
-/

namespace IndexingPipeline.Template

/-- One scope of names. Names set in a scope with a definition in it are also set in the
enclosing that the definition sees. -/
structure Frame where
  vars : List (String × Value)
  enclosing : Option Nat
  deriving Inhabited

/-- A loop under way: what it runs through and how far it has come. -/
structure LoopState where
  target : Target
  body : List Stmt
  recursive : Bool
  depth : Nat
  items : List Value
  place : Nat
  lastSeen : Option Value
  deriving Inhabited

/-- A definition of a template with the names it can see. -/
structure Definition where
  name : String
  parameters : List Parameter
  body : List Stmt
  enclosing : Nat
  deriving Inhabited

/-- Everything that changes while a template is carried out. -/
structure Scene where
  out : String
  frames : List Frame
  outerDepth : Nat
  guarding : Bool
  piped : Value
  enclosings : Array (List (String × Value))
  definitions : Array Definition
  loops : Array LoopState
  spaces : Array (List (Value × Value))
  blocks : List (String × List (List Stmt))
  inBlock : Option (String × Nat)
  parent : Option (Program × String)
  ancestors : List String

abbrev Rendering := StateT Scene (Except Fault)

/-- The templates that can be reached by name. -/
abbrev Library := List (String × Program)

/-- The deepest nesting of scopes, with what calls and includes add to it. -/
def scopeLimit : Nat := 500

/-- Names with these endings guard their output against markup. -/
def guardsMarkup (name : String) : Bool :=
  let stem := if ".j2".toList.isSuffixOf name.toList then
      String.ofList (name.toList.take (name.length - 3)) else name
  ((stem.splitOn ".").getLast?.getD "") ∈ ["html", "htm", "xml"]

namespace Scene

def ownFunctions : List String := ["range", "dict", "debug", "namespace"]

def lookup? (s : Scene) (name : String) : Option Value :=
  match s.frames.findSome? (·.vars.lookup name) with
  | some v => some v
  | none =>
    if name ∈ ownFunctions then some (.handle (.function name)) else none

def depth (s : Scene) : Nat := s.outerDepth + s.frames.length

def assign (s : Scene) (name : String) (v : Value) : Scene :=
  match s.frames with
  | [] => s
  | f :: rest =>
    let frames := { f with vars := (name, v) :: f.vars.filter (·.1 ≠ name) } :: rest
    match f.enclosing with
    | none => { s with frames }
    | some i => { s with frames, enclosings := s.enclosings.modify i ((name, v) :: ·) }

/-- The enclosing of the innermost scope, made from all names seen when there is none yet. -/
def enclose (s : Scene) : Scene × Nat :=
  match s.frames with
  | [] => (s, 0)
  | f :: rest =>
    match f.enclosing with
    | some i => (s, i)
    | none =>
      let i := s.enclosings.size
      ({ s with
          frames := { f with enclosing := some i } :: rest
          enclosings := s.enclosings.push (s.frames.flatMap (·.vars)) }, i)

end Scene

structure Renderer where
  eval : Expr → Rendering Value
  exec : Stmt → Rendering Unit

def orUndefined (v : Option Value) : Value := v.getD .undefined

def inFrame (vars : List (String × Value)) (act : Rendering α) : Rendering α := do
  let s ← get
  if scopeLimit ≤ s.depth then throw .tooDeep
  set { s with frames := ⟨vars, none⟩ :: s.frames }
  let a ← act
  modify fun s => { s with frames := s.frames.drop 1 }
  return a

/-- The text that an action writes, taken out of the output. -/
def captured (act : Rendering Unit) : Rendering Value := do
  let before := (← get).out
  modify ({ · with out := "" })
  act
  let s ← get
  set { s with out := before }
  return .text s.out s.guarding

def write (text : String) : Rendering Unit :=
  modify fun s => { s with out := s.out ++ text }

def emit (v : Value) : Rendering Unit := do
  write (if (← get).guarding then v.guarded else v.display)

mutual

/-- Give a value to a target; several targets take the items of a list, one each. -/
def assignTarget : Target → Value → Rendering Unit
  | .name n, v => modify (·.assign n v)
  | .member space n, v => do
    let s ← get
    match s.lookup? space with
    | some (.handle (.space i)) =>
      set { s with spaces := s.spaces.modify i (Value.insertMember (.ofText n) v) }
    | _ => throw .unsupported
  | .several targets, v =>
    match v with
    | .list items =>
      if items.length = targets.length then assignTargets targets items
      else throw .unsupported
    | _ => throw .unsupported

def assignTargets : List Target → List Value → Rendering Unit
  | t :: ts, v :: vs => do
    assignTarget t v
    assignTargets ts vs
  | _, _ => return ()

end

def LoopState.member (l : LoopState) (name : String) : Value :=
  let n := l.items.length
  match name with
  | "index0" => .int l.place
  | "index" => .int (l.place + 1)
  | "length" => .int n
  | "revindex" => .int (n - l.place)
  | "revindex0" => .int (n - l.place - 1)
  | "first" => .bool (l.place = 0)
  | "last" => .bool (l.place + 1 = n)
  | "depth" => .int (l.depth + 1)
  | "depth0" => .int l.depth
  | "previtem" => if l.place = 0 then .undefined else orUndefined l.items[l.place - 1]?
  | "nextitem" => orUndefined l.items[l.place + 1]?
  | _ => .undefined

def memberOf (v key : Value) : Rendering Value := do
  match v with
  | .handle (.loop i) => return ((← get).loops[i]?).elim .undefined (·.member key.display)
  | .handle (.space i) =>
    return orUndefined (((← get).spaces[i]?).bind (Value.member? key))
  | .handle (.definition i) =>
    let d := (← get).definitions[i]?
    match key.display with
    | "name" => return d.elim .undefined fun d => .ofText d.name
    | "arguments" =>
      return d.elim .undefined fun d => .list (d.parameters.map fun p => .ofText p.name)
    | _ => return .undefined
  | v => liftM (v.item key)

def evalArgs (r : Renderer) (args : List Arg) : Rendering Args :=
  args.foldlM (fun found a => do
    match a with
    | .placed e => return { found with placed := found.placed ++ [← r.eval e] }
    | .named n e => return { found with named := found.named ++ [(n, ← r.eval e)] }
    | .spread e => return { found with placed := found.placed ++ (← itemsOf (← r.eval e)) }
    | .spreadNamed e =>
      match ← r.eval e with
      | .map members =>
        return { found with named := found.named ++ members.map fun (k, v) => (k.display, v) }
      | _ => throw .wrongArguments) ⟨[], []⟩

/-- The values of the parameters of a definition: by place, by name, or undefined. -/
def bindParameters (parameters : List Parameter) (args : Args) :
    Except Fault (List (String × Value)) := do
  if parameters.length < args.placed.length then throw .wrongArguments
  let known (n : String) : Bool := n = "caller" || parameters.any (·.name = n)
  if !args.named.all (known ·.1) then throw .wrongArguments
  let bound ← (List.range parameters.length).mapM fun i => do
    let name := (parameters[i]?.map (·.name)).getD ""
    match args.placed[i]?, args.named.lookup name with
    | some _, some _ => throw .wrongArguments
    | some v, none => return (name, v)
    | none, found => return (name, orUndefined found)
  match args.named.lookup "caller" with
  | some v => return ("caller", v) :: bound
  | none => return bound

/-- The text that a definition writes when it is called. -/
def callDefinition (r : Renderer) (i : Nat) (args : Args) : Rendering Value := do
  let s ← get
  match s.definitions[i]? with
  | none => throw .unsupported
  | some d =>
    let bound ← bindParameters d.parameters args
    if scopeLimit ≤ s.depth + 5 then throw .tooDeep
    let seen := (s.enclosings[d.enclosing]?).getD []
    set { s with
      frames := [⟨bound, none⟩, ⟨seen, none⟩], outerDepth := s.depth + 4, inBlock := none }
    let fill (p : Parameter) : Rendering Unit := do
      match p.fallback, (← get).lookup? p.name with
      | some e, some .undefined => modify (·.assign p.name (← r.eval e))
      | _, _ => return ()
    let result ← captured do
      d.parameters.forM fill
      d.body.forM r.exec
    modify ({ · with frames := s.frames, outerDepth := s.outerDepth, inBlock := s.inBlock })
    return result

/-- The bodies of a block, the most derived first, carried out from one of them on. -/
def runBlock (r : Renderer) (name : String) (level : Nat) : Rendering Unit := do
  let s ← get
  match (s.blocks.lookup name).bind (·[level]?) with
  | none => throw .unsupported
  | some body =>
    set { s with inBlock := some (name, level) }
    inFrame [] (body.forM r.exec)
    modify ({ · with inBlock := s.inBlock })

/-- How many recursive loops a loop that starts here is inside of. -/
def Scene.loopDepth (s : Scene) : Nat :=
  match s.lookup? "loop" with
  | some (.handle (.loop i)) =>
    match s.loops[i]? with
    | some l => if l.recursive then l.depth + 1 else 0
    | none => 0
  | _ => 0

/-- Run through the items of a loop in one scope. -/
def runItems (r : Renderer) (l : LoopState) : Rendering Unit := do
  let i := (← get).loops.size
  modify fun s => { s with loops := s.loops.push { l with depth := s.loopDepth } }
  inFrame [("loop", .handle (.loop i))] do
    (List.range l.items.length).forM fun place => do
      modify fun s => { s with loops := s.loops.modify i ({ · with place }) }
      assignTarget l.target (orUndefined l.items[place]?)
      l.body.forM r.exec

/-- A loop called from inside itself runs through other items. -/
def recurse (r : Renderer) (i : Nat) (args : Args) : Rendering Value := do
  match (← get).loops[i]?, args.placed with
  | some l, [v] =>
    if !l.recursive then throw .unsupported
    captured (runItems r
      { l with items := ← itemsOf v, place := 0, lastSeen := none })
  | _, _ => throw .wrongArguments

/-- The integers from a first to before a last, in steps. -/
def rangeOf (args : Args) : Except Fault Value := do
  if !args.named.isEmpty then throw .wrongArguments
  let bounds ← args.placed.mapM intOf
  let (first, last, step) ← match bounds with
    | [n] => pure (0, n, 1)
    | [a, b] => pure (a, b, 1)
    | [a, b, c] => pure (a, b, c)
    | _ => throw Fault.wrongArguments
  if step = 0 then throw .wrongArguments
  let distance := if 0 < step then last - first else first - last
  let size := (distance + step.natAbs - 1).toNat / step.natAbs
  if 100000 < size then throw .unsupported
  return .list ((List.range size).map fun (i : Nat) => .int (first + step * i))

/-- The members that a call is given: those of one map, and the named arguments. -/
def membersOf (args : Args) : Except Fault (List (Value × Value)) :=
  let named := args.named.map fun (n, v) => (Value.ofText n, v)
  match args.placed with
  | [] => .ok named
  | [.map members] => .ok (members ++ named)
  | [.undefined] => .ok named
  | _ => .error .wrongArguments

/-- A call of one of the scene's own functions. Nothing is shown of the scene itself. -/
def callOwn (name : String) (args : Args) : Rendering Value := do
  match name with
  | "range" => liftM (rangeOf args)
  | "dict" => return .ofMembers (← liftM (membersOf args))
  | "namespace" =>
    let s ← get
    match Value.ofMembers (← liftM (membersOf args)) with
    | .map members =>
      set { s with spaces := s.spaces.push members }
      return .handle (.space s.spaces.size)
    | _ => throw .unsupported
  | "debug" =>
    match args.placed with
    | [] => throw .unsupported
    | [v] => return .ofText (spreadOut 0 v)
    | vs => return .ofText (spreadOut 0 (.list vs))
  | _ => throw .unsupported

def callValue (r : Renderer) (v : Value) (args : Args) : Rendering Value :=
  match v with
  | .handle (.function name) => callOwn name args
  | .handle (.definition i) => callDefinition r i args
  | .handle (.caller i) => callDefinition r i args
  | .handle (.loop i) => recurse r i args
  | _ => throw .unsupported

def callMember (r : Renderer) (v : Value) (name : String) (args : Args) : Rendering Value := do
  match v, name with
  | .undefined, _ => throw .undefinedValue
  | .handle (.loop i), "cycle" =>
    let place := ((← get).loops[i]?).elim 0 (·.place)
    if args.placed.isEmpty then throw .unsupported
    return orUndefined args.placed[place % args.placed.length]?
  | .handle (.loop i), "changed" =>
    let seen := Value.list args.placed
    let changed := match ((← get).loops[i]?).bind (·.lastSeen) with
      | some v => !Value.equal v seen
      | none => true
    modify fun s => { s with loops := s.loops.modify i ({ · with lastSeen := some seen }) }
    return .bool changed
  | .map members, "items" =>
    match Value.member? (.ofText name) members with
    | some f => callValue r f args
    | none => throw .unsupported
  | v, _ =>
    match ← memberOf v (.ofText name) with
    | .undefined => throw .unsupported
    | f => callValue r f args

/-- A filter of a name that is part of an argument list. -/
def nameOf (v : Option Value) : Except Fault String :=
  match v.bind Value.text? with
  | some name => .ok name
  | none => .error .wrongArguments

def testOf (name : String) (v : Value) (args : Args) : Except Fault Bool :=
  match applyTest? name v args with
  | some answer => answer
  | none => .error (.unknownName name)

/-- Keep the items whose test comes out as wanted; without a test, those that hold. -/
def selected (items : List Value) (wanted : Bool) (of : Value → Value) (test : List Value)
    (named : List (String × Value)) : Except Fault Value := do
  match test with
  | [] => return .list (items.filter fun v => (of v).holds == wanted)
  | name :: rest =>
    let name ← nameOf (some name)
    return .list (← items.filterM fun v => do
      return (← testOf name (of v) ⟨rest, named⟩) == wanted)

/-- Items gathered by a member of theirs, in the order of that member. -/
def grouped (items : List Value) (args : Args) : Except Fault Value := do
  let path ← nameOf (args.placed[0]?.or (args.named.lookup "attribute"))
  let caseMatters ← flagOf (args.named.lookup "case_sensitive") false
  let key (v : Value) : Value :=
    match memberAt v path with
    | .undefined => orUndefined (args.named.lookup "default")
    | found => found
  let sorted := sortBy (fun v => sortKey caseMatters (key v)) items
  let same (a b : Value) : Bool :=
    Value.equal (sortKey caseMatters (key a)) (sortKey caseMatters (key b))
  return .list ((sorted.splitBy same).map fun group =>
    .list [orUndefined (group.head?.map key), .list group])

/-- A filter of that name applied to a value, those included that call others. -/
def applyAnyFilter : Nat → String → Value → Args → Except Fault Value
  | 0, _, _, _ => .error .tooDeep
  | bound + 1, name, v, args =>
    match applyFilter? name v args with
    | some answer => answer
    | none => do
      match name with
      | "map" =>
        let items ← itemsOf v
        match args.named.lookup "attribute" with
        | some path =>
          if !args.placed.isEmpty then throw .wrongArguments
          return .list (items.map fun v =>
            match memberAt v path.display with
            | .undefined => orUndefined (args.named.lookup "default")
            | found => found)
        | none =>
          let filter ← nameOf args.placed[0]?
          return .list (← items.mapM fun v =>
            applyAnyFilter bound filter v { args with placed := args.placed.drop 1 })
      | "select" => selected (← itemsOf v) true id args.placed args.named
      | "reject" => selected (← itemsOf v) false id args.placed args.named
      | "selectattr" =>
        let path ← nameOf args.placed[0]?
        selected (← itemsOf v) true (memberAt · path) (args.placed.drop 1) args.named
      | "rejectattr" =>
        let path ← nameOf args.placed[0]?
        selected (← itemsOf v) false (memberAt · path) (args.placed.drop 1) args.named
      | "groupby" => grouped (← itemsOf v) args
      | name => throw (.unknownName name)

/-- How many filters may be called by name inside each other. -/
def filterLimit : Nat := 100

def applyOperator (op : Operator) (a b : Value) : Except Fault Value :=
  match op with
  | .add => a.add b
  | .sub => a.sub b
  | .mul => a.mul b
  | .div => a.div b
  | .intDiv => a.intDiv b
  | .rem => a.rem b
  | .pow => a.pow b
  | .join => .ok (.ofText (a.display ++ b.display))
  | .eq => .ok (.bool (Value.equal a b))
  | .ne => .ok (.bool (!Value.equal a b))
  | .lt => .ok (.bool (Value.order a b == .lt))
  | .le => .ok (.bool (Value.order a b != .gt))
  | .gt => .ok (.bool (Value.order a b == .gt))
  | .ge => .ok (.bool (Value.order a b != .lt))
  | .within => b.contains a
  | .both => .ok (if a.holds then b else a)
  | .either => .ok (if a.holds then a else b)

/-- A call: of a block, of a member, of a name, or of any other value. -/
def evalCall (r : Renderer) (f : Expr) (args : List Arg) : Rendering Value := do
  match f with
  | .var "super" =>
    match (← get).inBlock with
    | some (name, level) => captured (runBlock r name (level + 1))
    | none => throw .unsupported
  | .attr (.var "self") name => captured (runBlock r name 0)
  | .attr e name =>
    let v ← r.eval e
    callMember r v name (← evalArgs r args)
  | .var name =>
    let args ← evalArgs r args
    match (← get).lookup? name with
    | some v => callValue r v args
    | none => throw (.unknownName name)
  | e =>
    let v ← r.eval e
    callValue r v (← evalArgs r args)

/-- The value of an expression, its parts being left to `r`. -/
def evalStep (r : Renderer) : Expr → Rendering Value
  | .var name => return orUndefined ((← get).lookup? name)
  | .const v => return v
  | .negate e => do liftM (← r.eval e).neg
  | .invert e => return .bool (!(← r.eval e).holds)
  | .binary .both a b => do
    let v ← r.eval a
    if v.holds then r.eval b else return v
  | .binary .either a b => do
    let v ← r.eval a
    if v.holds then return v else r.eval b
  | .binary op a b => do
    let v ← r.eval a
    let w ← r.eval b
    liftM (applyOperator op v w)
  | .choice test yes no => do
    if (← r.eval test).holds then r.eval yes
    else match no with
      | some e => r.eval e
      | none => return .undefined
  | .filter name e args => do
    let v ← match e with
      | some e => r.eval e
      | none => pure (← get).piped
    let args ← evalArgs r args
    liftM (applyAnyFilter filterLimit name v args)
  | .test name e args => do
    let v ← r.eval e
    let args ← evalArgs r args
    return .bool (← testOf name v args)
  | .attr e name => do memberOf (← r.eval e) (.ofText name)
  | .item e key => do
    let v ← r.eval e
    memberOf v (← r.eval key)
  | .slice e start stop step => do
    let v ← r.eval e
    let bound (e : Option Expr) : Rendering Value := match e with
      | some e => r.eval e
      | none => pure .none
    let start ← bound start
    let stop ← bound stop
    let step ← bound step
    liftM (v.slice start stop step)
  | .call f args => evalCall r f args
  | .list items => return .list (← items.mapM r.eval)
  | .map members =>
    return .ofMembers (← members.mapM fun (k, v) => return (← r.eval k, ← r.eval v))

/-- Whether output is guarded inside a statement that says so. -/
def guardMode (v : Value) : Except Fault Bool :=
  match v with
  | .text "html" _ => .ok true
  | .text "none" _ => .ok false
  | .text _ _ => .error .unsupported
  | v => .ok (Value.equal v (.bool true))

/-- The blocks of a program, those inside other statements included; at most that deep. -/
def blocksOf : Nat → List Stmt → List (String × List Stmt)
  | 0, _ => []
  | bound + 1, body => body.flatMap fun s =>
    match s with
    | .block name body => (name, body) :: blocksOf bound body
    | .loop _ _ _ _ body otherwise => blocksOf bound body ++ blocksOf bound otherwise
    | .cond _ yes no => blocksOf bound yes ++ blocksOf bound no
    | .withs _ body => blocksOf bound body
    | .capture _ _ body => blocksOf bound body
    | .guard _ body => blocksOf bound body
    | .filtered _ body => blocksOf bound body
    | .define _ _ body => blocksOf bound body
    | .callBlock _ _ _ body => blocksOf bound body
    | _ => []

def addBlocks (there : List (String × List (List Stmt))) (more : List (String × List Stmt)) :
    List (String × List (List Stmt)) :=
  more.foldl (fun all (name, body) =>
    if all.any (·.1 = name) then
      all.map fun (n, bodies) => if n = name then (n, bodies ++ [body]) else (n, bodies)
    else all ++ [(name, [body])]) there

/-- Carry out a program and then, in its place, each template that it extends. -/
def runProgram (r : Renderer) : Nat → Program → Rendering Unit
  | 0, _ => throw .tooDeep
  | bound + 1, program => do
    modify ({ · with parent := none })
    program.forM r.exec
    match (← get).parent with
    | none => return ()
    | some (parent, before) =>
      modify ({ · with out := before })
      runProgram r bound parent

/-- Carry out another template in the place of this statement. -/
def insertTemplate (lib : Library) (r : Renderer) (names : List Value) (ignoreMissing : Bool) :
    Rendering Unit := do
  match names with
  | [] => return ()
  | v :: rest =>
    let name ← nameOf (some v)
    match lib.lookup name with
    | none =>
      if rest.isEmpty then
        if ignoreMissing then return () else throw (.missingTemplate name)
      else insertTemplate lib r rest ignoreMissing
    | some program =>
      let s ← get
      if scopeLimit ≤ s.depth + 10 then throw .tooDeep
      set { s with
        outerDepth := s.outerDepth + 10
        guarding := guardsMarkup name
        blocks := addBlocks [] (blocksOf nestingLimit program)
        inBlock := none
        ancestors := [] }
      runProgram r (lib.length + 1) program
      modify ({ · with
        outerDepth := s.outerDepth, guarding := s.guarding, blocks := s.blocks
        inBlock := s.inBlock, parent := s.parent, ancestors := s.ancestors })

def templateNames : Value → List Value
  | .list names => names
  | v => [v]

def keepDefinition (name : String) (parameters : List Parameter) (body : List Stmt) :
    Rendering Nat := do
  let (s, enclosing) := (← get).enclose
  set { s with definitions := s.definitions.push ⟨name, parameters, body, enclosing⟩ }
  return s.definitions.size

/-- What a statement writes, its parts being left to `r`. -/
def execStep (lib : Library) (r : Renderer) : Stmt → Rendering Unit
  | .data s => write s
  | .emit e => do emit (← r.eval e)
  | .loop target source keep recursive body otherwise => do
    let items ← itemsOf (← r.eval source)
    let items ← match keep with
      | none => pure items
      | some test => inFrame [] (items.filterM fun v => do
          assignTarget target v
          return (← r.eval test).holds)
    runItems r ⟨target, body, recursive, 0, items, 0, none⟩
    if items.isEmpty then otherwise.forM r.exec
  | .cond test yes no => do
    if (← r.eval test).holds then yes.forM r.exec else no.forM r.exec
  | .withs bindings body => inFrame [] do
    bindings.forM fun (target, e) => do assignTarget target (← r.eval e)
    body.forM r.exec
  | .set target e => do assignTarget target (← r.eval e)
  | .capture target filter body => do
    let v ← captured (body.forM r.exec)
    let v ← match filter with
      | none => pure v
      | some f => do
        modify ({ · with piped := v })
        r.eval f
    assignTarget target v
  | .guard mode body => do
    let before := (← get).guarding
    let guarding ← guardMode (← r.eval mode)
    modify ({ · with guarding })
    body.forM r.exec
    modify ({ · with guarding := before })
  | .filtered filter body => do
    let v ← captured (body.forM r.exec)
    modify ({ · with piped := v })
    emit (← r.eval filter)
  | .block name _ => do
    if (← get).parent.isNone then runBlock r name 0
  | .extend e => do
    let name ← nameOf (some (← r.eval e))
    let s ← get
    if s.parent.isSome || name ∈ s.ancestors then throw .unsupported
    match lib.lookup name with
    | none => throw (.missingTemplate name)
    | some program =>
      set { s with
        parent := some (program, s.out)
        blocks := addBlocks s.blocks (blocksOf nestingLimit program)
        ancestors := name :: s.ancestors }
  | .insert e ignoreMissing => do
    insertTemplate lib r (templateNames (← r.eval e)) ignoreMissing
  | .importAll e target => do
    let v ← r.eval e
    let before := (← get).out
    let members ← inFrame [] do
      insertTemplate lib r (templateNames v) false
      return ((← get).frames.headD ⟨[], none⟩).vars
    modify ({ · with out := before })
    assignTarget target (.ofMembers (members.map fun (n, v) => (.ofText n, v)))
  | .importSome e names => do
    let v ← r.eval e
    let before := (← get).out
    let found ← inFrame [] do
      insertTemplate lib r (templateNames v) false
      let s ← get
      return names.map fun (name, alias?) =>
        (alias?.getD name, orUndefined (s.lookup? name))
    modify fun s => found.foldl (fun s (n, v) => s.assign n v) { s with out := before }
  | .define name parameters body => do
    let i ← keepDefinition name parameters body
    modify (·.assign name (.handle (.definition i)))
  | .callBlock f args parameters body => do
    let i ← keepDefinition "caller" parameters body
    let caller := Arg.named "caller" (.const (.handle (.caller i)))
    emit (← evalCall r f (args ++ [caller]))
  | .run f args => do
    let _ ← evalCall r f args
    return ()

/-- Expressions and statements nested at most that deep. -/
def Renderer.ofDepth (lib : Library) : Nat → Renderer
  | 0 => ⟨fun _ => throw .tooDeep, fun _ => throw .tooDeep⟩
  | depth + 1 =>
    let inner : Renderer :=
      ⟨fun e => (ofDepth lib depth).eval e, fun s => (ofDepth lib depth).exec s⟩
    ⟨evalStep inner, execStep lib inner⟩

/-- More than any template can nest before its scopes are too deep. -/
def renderDepth : Nat := 1000000

/-- What the template of that name writes when it can see these names. -/
def Library.render (lib : Library) (name : String) (seen : List (String × Value)) :
    Except Fault String :=
  match lib.lookup name with
  | none => .error (.missingTemplate name)
  | some program =>
    let scene : Scene :=
      { out := "", frames := [⟨seen, none⟩], outerDepth := 0, guarding := guardsMarkup name
        piped := .undefined, enclosings := #[], definitions := #[], loops := #[], spaces := #[]
        blocks := addBlocks [] (blocksOf nestingLimit program)
        inBlock := none, parent := none, ancestors := [name] }
    (runProgram (Renderer.ofDepth lib renderDepth) (lib.length + 1) program scene).map (·.2.out)

end IndexingPipeline.Template
