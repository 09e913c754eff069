/-!
# Documents

What is kept of a document: its body and the version of it, and how far the index has followed.
Writing a document leaves alone what the index points at; that moves only when a run switches
a revision in.
-/

namespace IndexingPipeline

inductive IndexStatus where
  | pending
  | ready
  | error
  deriving DecidableEq, Repr, Inhabited

def IndexStatus.name : IndexStatus → String
  | .pending => "pending"
  | .ready => "ready"
  | .error => "error"

structure Document where
  id : String
  workspaceId : String
  baseId : String
  body : String
  versionId : String
  currentRevisionId : Option String
  currentChunkSetId : Option String
  indexedVersionId : Option String
  indexStatus : IndexStatus
  indexError : Option String
  updatedAt : Int
  deriving DecidableEq, Repr, Inhabited

/-- At most one document of each identifier in a workspace. -/
abbrev Documents := List Document

namespace Documents

def isAt (workspace id : String) (d : Document) : Bool :=
  d.workspaceId = workspace && d.id = id

def document? (ds : Documents) (workspace id : String) : Option Document :=
  ds.find? (isAt workspace id)

def update (ds : Documents) (workspace id : String) (f : Document → Document) : Documents :=
  ds.map fun d => if isAt workspace id d then f d else d

/-- Write a body under a version. A document that is already there stays in its base. -/
def put (ds : Documents) (now : Int) (workspace base id version body : String) : Documents :=
  match ds.document? workspace id with
  | some _ =>
    ds.update workspace id fun d =>
      { d with
        body, versionId := version, indexStatus := .pending, indexError := none
        updatedAt := now }
  | none =>
    ds ++ [{ id, workspaceId := workspace, baseId := base, body, versionId := version
             currentRevisionId := none, currentChunkSetId := none, indexedVersionId := none
             indexStatus := .pending, indexError := none, updatedAt := now }]

/-- The documents of a base by identifier. -/
def list (ds : Documents) (workspace base : String) : List Document :=
  (ds.filter fun d => d.workspaceId = workspace && d.baseId = base).mergeSort
    fun a b => !decide (b.id < a.id)

/-- The documents that have a current revision, by workspace and identifier. -/
def indexed (ds : Documents) : List Document :=
  (ds.filter (·.currentRevisionId.isSome)).mergeSort fun a b =>
    decide (a.workspaceId < b.workspaceId) ||
      (a.workspaceId == b.workspaceId && !decide (b.id < a.id))

def markUpToDate (ds : Documents) (now : Int) (workspace id version : String) : Documents :=
  ds.update workspace id fun d =>
    { d with
      indexedVersionId := some version, indexStatus := .ready, indexError := none
      updatedAt := now }

def markError (ds : Documents) (now : Int) (workspace id reason : String) : Documents :=
  ds.update workspace id fun d =>
    { d with indexStatus := .error, indexError := some reason, updatedAt := now }

def switch (ds : Documents) (now : Int) (workspace id revision chunkSet : String) :
    Documents :=
  ds.update workspace id fun d =>
    { d with
      currentRevisionId := some revision, currentChunkSetId := some chunkSet
      updatedAt := now }

def isCurrent (ds : Documents) (revision : String) : Bool :=
  ds.any (·.currentRevisionId = some revision)

end Documents

end IndexingPipeline
