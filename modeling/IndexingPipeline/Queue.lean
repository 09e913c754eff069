import IndexingPipeline.Config.Basic
import IndexingPipeline.Clock

/-!
# The queue of jobs

A job asks for one version of one document to be indexed. It waits until its time, is claimed
by a worker, and ends completed or failed, unless it is put back. The queue keeps jobs in the
order in which they were added and never drops one. Only failed executions count as attempts.
-/

namespace IndexingPipeline

inductive JobStatus where
  | pending
  | processing
  | completed
  | failed
  deriving DecidableEq, Repr, Inhabited

def JobStatus.name : JobStatus → String
  | .pending => "pending"
  | .processing => "processing"
  | .completed => "completed"
  | .failed => "failed"

def JobStatus.ofName? : String → Option JobStatus
  | "pending" => some .pending
  | "processing" => some .processing
  | "completed" => some .completed
  | "failed" => some .failed
  | _ => none

structure Job where
  id : String
  workspaceId : String
  baseId : String
  documentId : String
  versionId : String
  status : JobStatus
  attempts : Nat
  lastError : Option String
  scheduledAt : Int
  claimedAt : Option Int
  createdAt : Int
  updatedAt : Int
  finishedAt : Option Int
  deriving DecidableEq, Repr, Inhabited

/-- Jobs in the order in which they were added. -/
abbrev Queue := List Job

/-- A choice of jobs by workspace, base and the moment from which on they were added. -/
structure JobScope where
  workspaceId : Option String := none
  baseId : Option String := none
  since : Option Int := none
  deriving DecidableEq, Repr, Inhabited

def JobScope.includes (s : JobScope) (j : Job) : Bool :=
  s.workspaceId.all (· = j.workspaceId) && s.baseId.all (· = j.baseId) &&
    s.since.all (· ≤ j.createdAt)

structure JobCounts where
  pending : Nat
  processing : Nat
  completed : Nat
  failed : Nat
  deriving DecidableEq, Repr, Inhabited

namespace JobCounts

def total (c : JobCounts) : Nat :=
  wrapU64 (c.pending + c.processing + c.completed + c.failed)

def active (c : JobCounts) : Nat := wrapU64 (c.pending + c.processing)

end JobCounts

/-- What becomes of a job that may be tried again. -/
inductive RetryOutcome where
  | rescheduled (attempts : Nat) (scheduledAt : Int)
  | failed (attempts : Nat)
  deriving DecidableEq, Repr

/-- How long to wait after that many failed executions: twice as long each time, up to the
longest. -/
def WorkerSettings.backoff (w : WorkerSettings) (attempts : Nat) : Nat :=
  let factor := Number.twoTo (min (attempts - 1) 32)
  min (min (w.backoffBaseMs * factor) (Number.twoTo 64 - 1)) w.backoffMaxMs

/-- What is said of a job that has used up its attempts. -/
def givingUp (attempts : Nat) (reason : String) : String :=
  "giving up after " ++ toString attempts ++ " attempts: " ++ reason

namespace Queue

def job? (q : Queue) (id : String) : Option Job := q.find? (·.id = id)

def update (q : Queue) (id : String) (f : Job → Job) : Queue :=
  q.map fun j => if j.id = id then f j else j

/-- The job that was added last, those added at the same moment in their order. -/
def newest? (q : Queue) : Option Job :=
  q.foldl (fun best j =>
    match best with
    | none => some j
    | some b => if b.createdAt ≤ j.createdAt then some j else some b) none

/-- Whether a job is to be claimed before another that was added earlier. -/
def isSooner (j b : Job) : Bool :=
  j.scheduledAt < b.scheduledAt ||
    (j.scheduledAt == b.scheduledAt && j.createdAt < b.createdAt)

/-- The job that is due first: by its time, then by the moment it was added, then by its
place. -/
def soonest? (q : Queue) : Option Job :=
  q.foldl (fun best j =>
    match best with
    | none => some j
    | some b => if isSooner j b then some j else some b) none

/-- The job that waits for a document, if any does. -/
def waiting? (q : Queue) (workspace document : String) : Option Job :=
  newest? (q.filter fun j =>
    j.workspaceId = workspace && j.documentId = document && j.status = .pending)

/-- Ask for a version of a document to be indexed. A job that already waits for the document
is pointed at the version instead of adding another. -/
def enqueue (q : Queue) (now : Int) (newId workspace base document version : String) :
    Job × Queue :=
  match q.waiting? workspace document with
  | some j =>
    let reuse (j : Job) : Job := { j with versionId := version, updatedAt := now }
    (reuse j, q.update j.id reuse)
  | none =>
    let j : Job :=
      { id := newId, workspaceId := workspace, baseId := base, documentId := document
        versionId := version, status := .pending, attempts := 0, lastError := none
        scheduledAt := now, claimedAt := none, createdAt := now, updatedAt := now
        finishedAt := none }
    (j, q ++ [j])

def due (q : Queue) (now : Int) : Queue :=
  q.filter fun j => j.status = .pending && j.scheduledAt ≤ now

def claim (q : Queue) (now : Int) : Option Job × Queue :=
  match soonest? (q.due now) with
  | none => (none, q)
  | some j =>
    let take (j : Job) : Job :=
      { j with status := .processing, claimedAt := some now, updatedAt := now }
    (some (take j), q.update j.id take)

/-- Put a job back, to be claimed again from a moment on. No attempt is counted. -/
def reschedule (q : Queue) (now : Int) (id : String) (notBefore : Int) (reason : String) :
    Queue :=
  q.update id fun j =>
    { j with
      status := .pending, scheduledAt := notBefore, claimedAt := none
      lastError := some reason, updatedAt := now }

def fail (q : Queue) (now : Int) (id reason : String) : Queue :=
  q.update id fun j =>
    { j with
      status := .failed, lastError := some reason, finishedAt := some now, updatedAt := now }

def complete (q : Queue) (now : Int) (id : String) : Queue :=
  q.update id fun j =>
    { j with
      status := .completed, lastError := none, finishedAt := some now, updatedAt := now }

/-- Count a failed execution of a job as it was claimed: put it back for later, or end it when
its attempts are used up. -/
def retry (q : Queue) (w : WorkerSettings) (now : Int) (claimed : Job) (reason : String) :
    RetryOutcome × Queue :=
  let attempts := wrapU32 (claimed.attempts + 1)
  if w.maxAttempts ≤ attempts then
    let counted := q.update claimed.id fun j => { j with attempts }
    (.failed attempts, counted.fail now claimed.id (givingUp attempts reason))
  else
    let moment := after now (w.backoff attempts)
    (.rescheduled attempts moment, q.update claimed.id fun j =>
      { j with
        status := .pending, attempts, scheduledAt := moment, claimedAt := none
        lastError := some reason, updatedAt := now })

/-- Whether the worker that claimed a job is taken to be dead. -/
def isStale (w : WorkerSettings) (now : Int) (j : Job) : Bool :=
  j.status = .processing &&
    j.claimedAt.any (· ≤ before now w.visibilityTimeoutSeconds)

/-- A stale job counted as a failed execution: ended when its attempts are used up, put back
otherwise. -/
def recovered (w : WorkerSettings) (now : Int) (j : Job) : Job :=
  if w.maxAttempts ≤ j.attempts + 1 then
    { j with
      status := .failed, attempts := j.attempts + 1, finishedAt := some now, updatedAt := now
      lastError := some "worker stopped while processing; attempts exhausted" }
  else
    { j with
      status := .pending, attempts := j.attempts + 1, scheduledAt := now, claimedAt := none
      updatedAt := now, lastError := some "reclaimed stale job" }

def recover (q : Queue) (w : WorkerSettings) (now : Int) : Nat × Queue :=
  (q.countP (isStale w now),
    q.map fun j => if isStale w now j then recovered w now j else j)

def countOf (q : Queue) (scope : JobScope) (status : JobStatus) : Nat :=
  q.countP fun j => scope.includes j && j.status = status

def counts (q : Queue) (scope : JobScope) : JobCounts :=
  { pending := q.countOf scope .pending
    processing := q.countOf scope .processing
    completed := q.countOf scope .completed
    failed := q.countOf scope .failed }

/-- The first so many; all of them when the limit is negative. -/
def limited (limit : Int) (xs : List α) : List α :=
  if limit < 0 then xs else xs.take limit.toNat

/-- Jobs of a scope, those changed last first. -/
def list (q : Queue) (scope : JobScope) (status : Option JobStatus) (limit : Int) : List Job :=
  limited limit
    ((q.filter fun j => scope.includes j && status.all (· = j.status)).mergeSort
      fun a b => b.updatedAt ≤ a.updatedAt)

end Queue

end IndexingPipeline
