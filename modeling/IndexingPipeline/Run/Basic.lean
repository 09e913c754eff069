import IndexingPipeline.Chunk.Basic
import IndexingPipeline.Failure
import IndexingPipeline.Point.Basic
import IndexingPipeline.Policy.Basic
import IndexingPipeline.Queue

/-!
# Runs

A run takes one claimed job to its outcome. Its stages are named for what is done next; all that
a run knows between two steps is in its stage. A run that has the document's lock gives it back
at its last stage, whichever way led there.
-/

namespace IndexingPipeline

inductive Outcome where
  | completed (revisionId : String) (previous : Option String) (chunks : Nat)
      (cleaned : Option Nat)
  | lockBusy (retryAt : Int)
  | paused (retryAt : Int)
  | retrying (attempts : Nat) (retryAt : Int)
  | failed (reason : String)
  deriving DecidableEq, Repr

/-- Whether the job got anywhere, so that the next may follow at once. -/
def Outcome.isHandled : Outcome → Bool
  | .lockBusy _ => false
  | .paused _ => false
  | _ => true

/-- What a run has gathered since it opened a revision. -/
structure Draft where
  policy : Policy
  provider : Provider
  revisionId : String
  set : ChunkSet
  token : Option String
  vectors : List Vector32
  usages : List (Option Nat)
  deriving Repr

/-- What a run does next. -/
inductive Stage where
  | looking
  | deferring (outcome : Outcome) (retryAt : Int) (reason : String)
  | locking (settings : RunSettings)
  /-- Settle on a policy and a provider and open a revision. -/
  | opening (settings : RunSettings)
  | chunking (draft : Draft)
  | sizing (draft : Draft)
  /-- Ask the usage gate. -/
  | admitting (draft : Draft)
  | authorizing (draft : Draft)
  | embedding (draft : Draft) (left : List Chunk)
  /-- Make sure of the collection. -/
  | ensuring (draft : Draft)
  | writing (draft : Draft)
  /-- Write down what the provider says it cost. -/
  | accounting (draft : Draft)
  | switching (draft : Draft)
  /-- Delete the points of other revisions. -/
  | cleaning (draft : Draft) (previous : Option String)
  | failing (revision : Option String) (e : JobError)
  | settling (e : JobError)
  | marking (reason : String)
  /-- Tell the action. -/
  | noting (reason : String)
  | refreshing (outcome : Outcome)
  | releasing (outcome : Outcome)
  | finished (outcome : Outcome)
  /-- Stopped by something that nothing handles. -/
  | crashed
  deriving Repr

namespace Stage

/-- How far a stage is from the end; stages only lead to lower ones. -/
def rank : Stage → Nat
  | .looking => 20
  | .locking _ => 19
  | .opening _ => 18
  | .chunking _ => 17
  | .sizing _ => 16
  | .admitting _ => 15
  | .authorizing _ => 14
  | .embedding _ _ => 13
  | .ensuring _ => 12
  | .writing _ => 11
  | .accounting _ => 10
  | .switching _ => 9
  | .cleaning _ _ => 8
  | .failing _ _ => 7
  | .settling _ => 6
  | .marking _ => 5
  | .noting _ => 4
  | .refreshing _ => 3
  | .releasing _ => 2
  | .deferring _ _ _ => 1
  | .finished _ => 0
  | .crashed => 0

def left : Stage → Nat
  | .embedding _ chunks => chunks.length
  | _ => 0

def isOver : Stage → Bool
  | .finished _ => true
  | .crashed => true
  | _ => false

end Stage

structure Run where
  job : Job
  holder : Option String
  stage : Stage
  deriving Repr

def Run.start (job : Job) : Run := ⟨job, none, .looking⟩

end IndexingPipeline
