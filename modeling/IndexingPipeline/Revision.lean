import IndexingPipeline.Document

/-!
# Revisions

One generation of a document's index. It is opened before anything is written for it, becomes
ready when it is switched in, and fails when its run does; a revision that a document points at
is never failed afterwards.
-/

namespace IndexingPipeline

inductive RevisionStatus where
  | processing
  | ready
  | failed
  deriving DecidableEq, Repr, Inhabited

def RevisionStatus.name : RevisionStatus → String
  | .processing => "processing"
  | .ready => "ready"
  | .failed => "failed"

def RevisionStatus.ofName? : String → Option RevisionStatus
  | "processing" => some .processing
  | "ready" => some .ready
  | "failed" => some .failed
  | _ => none

structure Revision where
  id : String
  workspaceId : String
  documentId : String
  versionId : String
  policyDigest : String
  status : RevisionStatus
  chunkSetId : Option String
  chunkCount : Int
  totalTokens : Int
  totalChars : Int
  startedAt : Int
  finishedAt : Option Int
  reason : Option String
  deriving DecidableEq, Repr, Inhabited

/-- What is to change about a revision; what is not named stays. -/
structure RevisionChange where
  status : Option RevisionStatus := none
  chunkSetId : Option String := none
  chunkCount : Option Int := none
  totalTokens : Option Int := none
  totalChars : Option Int := none
  finishedAt : Option Int := none
  reason : Option String := none
  deriving DecidableEq, Repr, Inhabited

/-- Revisions in the order in which they were opened. -/
abbrev Revisions := List Revision

namespace Revision

def fresh (id workspace document version digest : String) (now : Int) : Revision :=
  { id, workspaceId := workspace, documentId := document, versionId := version
    policyDigest := digest, status := .processing, chunkSetId := none, chunkCount := 0
    totalTokens := 0, totalChars := 0, startedAt := now, finishedAt := none, reason := none }

def change (r : Revision) (c : RevisionChange) : Revision :=
  { r with
    status := c.status.getD r.status
    chunkSetId := c.chunkSetId.or r.chunkSetId
    chunkCount := c.chunkCount.getD r.chunkCount
    totalTokens := c.totalTokens.getD r.totalTokens
    totalChars := c.totalChars.getD r.totalChars
    finishedAt := c.finishedAt.or r.finishedAt
    reason := c.reason.or r.reason }

def failed (r : Revision) (now : Int) (reason : String) : Revision :=
  { r with status := .failed, finishedAt := some now, reason := some reason }

end Revision

namespace Revisions

def revision? (rs : Revisions) (id : String) : Option Revision := rs.find? (·.id = id)

def update (rs : Revisions) (id : String) (c : RevisionChange) : Revisions :=
  rs.map fun r => if r.id = id then r.change c else r

def markReady (rs : Revisions) (now : Int) (id : String) : Revisions :=
  rs.update id { status := some .ready, finishedAt := some now }

/-- Whether a revision may be failed: its run has not ended and no document points at it. -/
def isOpen (ds : Documents) (r : Revision) : Bool :=
  r.status = .processing && !ds.isCurrent r.id

/-- Fail a revision if it may be failed; whether it was. -/
def markFailed (rs : Revisions) (ds : Documents) (now : Int) (id reason : String) :
    Bool × Revisions :=
  let hit (r : Revision) : Bool := r.id = id && isOpen ds r
  (rs.any hit, rs.map fun r => if hit r then r.failed now reason else r)

/-- Fail the revisions that were opened before a moment and whose run has not ended since. -/
def failAbandoned (rs : Revisions) (ds : Documents) (now olderThan : Int) : Nat × Revisions :=
  let hit (r : Revision) : Bool := r.startedAt < olderThan && isOpen ds r
  (rs.countP hit,
    rs.map fun r =>
      if hit r then r.failed now "abandoned: indexing run did not finish" else r)

def current? (rs : Revisions) (ds : Documents) (workspace document : String) :
    Option Revision :=
  ((ds.document? workspace document).bind (·.currentRevisionId)).bind fun id => rs.revision? id

/-- The revisions of a document, the oldest first. -/
def list (rs : Revisions) (workspace document : String) : List Revision :=
  (rs.filter fun r => r.workspaceId = workspace && r.documentId = document).mergeSort
    fun a b => a.startedAt ≤ b.startedAt

end Revisions

end IndexingPipeline
