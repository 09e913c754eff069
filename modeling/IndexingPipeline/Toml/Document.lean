import IndexingPipeline.Toml.Term

/-!
# Configuration documents

A document is a sequence of lines: assignments, headers that open a table, and headers that open
one more row of a list of tables. `Document.read?` builds the tree of values and refuses a
name that is given twice. A table may be opened by a header once; a table that came into being
on the way to another may still be opened; one that was made by a path on the left of an
assignment may only grow by such paths.
-/

namespace IndexingPipeline.Toml

inductive Value where
  | text (s : String)
  | integer (n : Int)
  | real
  | bool (value : Bool)
  | moment (spelling : String)
  | list (items : List Value)
  | table (members : List (String × Value))
  deriving Inhabited

inductive Origin where
  | passed
  | dotted
  | opened
  deriving DecidableEq, Repr

/-- A document under construction. -/
inductive Node where
  | leaf (v : Value)
  | table (origin : Origin) (members : List (String × Node))
  | rows (rows : List (List (String × Node)))
  deriving Inhabited

def setMember (name : String) (v : α) (members : List (String × α)) : List (String × α) :=
  members.map fun (other, w) => if other = name then (other, v) else (other, w)

/-- Apply a change to the last row. -/
def onLast (f : α → Option α) : List α → Option (List α)
  | [] => none
  | [x] => (f x).map ([·])
  | x :: y :: rest => (onLast f (y :: rest)).map (x :: ·)

/-- Put a value under a path of names inside a table. -/
def assign (key : String) (v : Value) :
    List String → List (String × Node) → Option (List (String × Node))
  | [], members =>
    match members.lookup key with
    | some _ => none
    | none => some (members ++ [(key, .leaf v)])
  | name :: path, members =>
    match members.lookup name with
    | none => (assign key v path []).map fun inner => members ++ [(name, .table .dotted inner)]
    | some (.leaf _) => none
    | some (.rows rows) =>
      if path = [] then none
      else (onLast (assign key v path) rows).map fun rows => setMember name (.rows rows) members
    | some (.table origin inner) =>
      if origin = .opened ∨ (path = [] ∧ origin ≠ .dotted) then none
      else
        (assign key v path inner).map fun inner =>
          setMember name (.table origin inner) members

/-- Go down a path of names, making tables on the way, and apply a change to the members that
hold the last name. -/
def descend (f : String → List (String × Node) → Option (List (String × Node))) :
    List String → List (String × Node) → Option (List (String × Node))
  | [], _ => none
  | [name], members => f name members
  | name :: next :: path, members =>
    match members.lookup name with
    | none =>
      (descend f (next :: path) []).map fun inner => members ++ [(name, .table .passed inner)]
    | some (.leaf _) => none
    | some (.rows rows) =>
      (onLast (descend f (next :: path)) rows).map fun rows =>
        setMember name (.rows rows) members
    | some (.table origin inner) =>
      (descend f (next :: path) inner).map fun inner =>
        setMember name (.table origin inner) members

def openTable (name : String) (members : List (String × Node)) :
    Option (List (String × Node)) :=
  match members.lookup name with
  | none => some (members ++ [(name, .table .opened [])])
  | some (.table .passed inner) => some (setMember name (.table .opened inner) members)
  | some _ => none

/-- Open one more row of a list of tables. -/
def openRow (name : String) (members : List (String × Node)) : Option (List (String × Node)) :=
  match members.lookup name with
  | none => some (members ++ [(name, .rows [[]])])
  | some (.rows rows) => some (setMember name (.rows (rows ++ [[]])) members)
  | some _ => none

/-- Apply a change to the members of the table, or of the last row, of that name. -/
def inside (f : List (String × Node) → Option (List (String × Node))) (name : String)
    (members : List (String × Node)) : Option (List (String × Node)) :=
  match members.lookup name with
  | some (.rows rows) =>
    (onLast f rows).map fun rows => setMember name (.rows rows) members
  | some (.table origin inner) =>
    (f inner).map fun inner => setMember name (.table origin inner) members
  | _ => none

mutual

def Node.value : Node → Value
  | .leaf v => v
  | .table _ members => .table (memberValues members)
  | .rows rows => .list (rowValues rows)

def memberValues : List (String × Node) → List (String × Value)
  | [] => []
  | (name, n) :: rest => (name, n.value) :: memberValues rest

def rowValues : List (List (String × Node)) → List Value
  | [] => []
  | row :: rest => .table (memberValues row) :: rowValues rest

end

mutual

/-- The value of a written term, unless a table on one line names a member twice. -/
def Value.ofTerm : Term → Option Value
  | .text s => some (.text s)
  | .integer n => some (.integer n)
  | .real => some .real
  | .bool b => some (.bool b)
  | .moment s => some (.moment s)
  | .list items => (valuesOf items).map .list
  | .table entries => (nodesOf [] entries).map fun nodes => .table (memberValues nodes)

def valuesOf : List Term → Option (List Value)
  | [] => some []
  | t :: rest => do
    let v ← Value.ofTerm t
    let vs ← valuesOf rest
    return v :: vs

/-- The members so far with the assignments still to come put in. -/
def nodesOf (members : List (String × Node)) :
    List (List String × Term) → Option (List (String × Node))
  | [] => some members
  | (path, t) :: rest => do
    let v ← Value.ofTerm t
    let members ← assign (path.getLastD "") v path.dropLast members
    nodesOf members rest

end

inductive Line where
  | table (path : List String)
  | row (path : List String)
  | assignment (path : List String) (t : Term)

/-- Past what may stand after the last token of a line. -/
def endLine (s : List Char) : Option (List Char) :=
  match skipComment s with
  | [] => some []
  | s => newline? s

/-- A header or an assignment, and what follows its line. -/
def readLine (s : List Char) : Option (Line × List Char) :=
  match s with
  | '[' :: '[' :: rest => do
    let (path, rest) ← readPath rest
    match rest with
    | ']' :: ']' :: rest => return (.row path, ← endLine rest)
    | _ => none
  | '[' :: rest => do
    let (path, rest) ← readPath rest
    match rest with
    | ']' :: rest => return (.table path, ← endLine rest)
    | _ => none
  | s => do
    let (path, rest) ← readPath s
    match rest with
    | '=' :: rest =>
      let (t, rest) ← Term.readPart (depthLimit - 1) (skipBlank rest)
      return (.assignment path t, ← endLine rest)
    | _ => none

/-- All headers and assignments; lines with nothing but a comment are skipped. -/
def readLines : Nat → List Char → Option (List Line)
  | 0, s => if s = [] then some [] else none
  | bound + 1, s =>
    match skipComment s with
    | [] => some []
    | rest =>
      match newline? rest with
      | some rest => readLines bound rest
      | none => do
        let (line, rest) ← readLine (skipBlank s)
        let lines ← readLines bound rest
        return line :: lines

/-- The document so far, and the path of the table that assignments go to. -/
structure Draft where
  members : List (String × Node)
  current : List String

def Draft.add (d : Draft) : Line → Option Draft
  | .table path => do
    let members ← descend openTable path d.members
    return ⟨members, path⟩
  | .row path => do
    let members ← descend openRow path d.members
    return ⟨members, path⟩
  | .assignment path t => do
    let v ← Value.ofTerm t
    let put := assign (path.getLastD "") v path.dropLast
    let members ← match d.current with
      | [] => put d.members
      | current => descend (inside put) current d.members
    return ⟨members, d.current⟩

/-- The members of the document that a text spells. -/
def Document.read? (text : String) : Option (List (String × Value)) := do
  let s := match text.toList with
    | '\ufeff' :: rest => rest
    | s => s
  let lines ← readLines (s.length + 1) s
  let draft ← lines.foldlM Draft.add ⟨[], []⟩
  return memberValues draft.members

end IndexingPipeline.Toml
