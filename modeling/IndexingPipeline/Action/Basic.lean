import IndexingPipeline.Action.Report
import IndexingPipeline.Action.Progress

/-!
# Actions

An action follows the indexing of a knowledge base: all jobs of the base from the moment the
action was started on. Its counts are never added to but counted anew. Every write says which
version of the row it was made from and is refused when the row has changed since.

An action under way ends done or in error, or is paused or canceled; a paused one is resumed or
canceled. Nothing moves an action that has ended.
-/

namespace IndexingPipeline

inductive ActionStatus where
  | processing
  | paused
  | canceled
  | done
  | error
  deriving DecidableEq, Repr, Inhabited

namespace ActionStatus

def name : ActionStatus → String
  | .processing => "processing"
  | .paused => "paused"
  | .canceled => "canceled"
  | .done => "done"
  | .error => "error"

def ofName? : String → Option ActionStatus
  | "processing" => some .processing
  | "paused" => some .paused
  | "canceled" => some .canceled
  | "done" => some .done
  | "error" => some .error
  | _ => none

def isTerminal : ActionStatus → Bool
  | .canceled => true
  | .done => true
  | .error => true
  | _ => false

end ActionStatus

inductive ActionStage where
  | indexing
  | paused
  | canceled
  | completed
  | failed
  | timedOut
  deriving DecidableEq, Repr, Inhabited

def ActionStage.name : ActionStage → String
  | .indexing => "indexing"
  | .paused => "paused"
  | .canceled => "canceled"
  | .completed => "completed"
  | .failed => "failed"
  | .timedOut => "timed_out"

structure Action where
  id : String
  workspaceId : String
  baseId : String
  status : ActionStatus
  stage : ActionStage
  displayText : String
  report : ActionReport
  createdAt : Int
  processingSince : Int
  updatedAt : Int
  rowVersion : Nat
  deriving DecidableEq, Repr, Inhabited

/-- Actions in the order in which they were started. -/
abbrev Actions := List Action

/-- What an operator can do to an action. -/
inductive Control where
  | pause
  | resume
  | cancel
  deriving DecidableEq, Repr, Inhabited

namespace Control

def target : Control → ActionStatus
  | .pause => .paused
  | .resume => .processing
  | .cancel => .canceled

def stage : Control → ActionStage
  | .pause => .paused
  | .resume => .indexing
  | .cancel => .canceled

/-- What is said of it: as an event, and to readers. -/
def texts : Control → String × String
  | .pause => ("indexing paused", "Indexing paused")
  | .resume => ("indexing resumed", "Indexing resumed")
  | .cancel => ("indexing canceled", "Indexing canceled")

/-- Whether it can be done to an action of that status. -/
def isAllowed : Control → ActionStatus → Bool
  | .pause, .processing => true
  | .resume, .paused => true
  | .cancel, .processing => true
  | .cancel, .paused => true
  | _, _ => false

end Control

inductive ControlError where
  | unknown (id : String)
  | notAllowed (id : String) (old new : ActionStatus)
  | kept (id : String) (new : ActionStatus)
  deriving DecidableEq, Repr

def ControlError.message : ControlError → String
  | .unknown id => "action " ++ id ++ " not found"
  | .notAllowed id old new =>
    "cannot move action " ++ id ++ " from " ++ old.name ++ " to " ++ new.name
  | .kept id new =>
    "action " ++ id ++ " kept changing, could not move it to " ++ new.name

namespace Action

/-- The jobs that an action follows. -/
def scope (a : Action) : JobScope :=
  ⟨some a.workspaceId, some a.baseId, some a.createdAt⟩

def fresh (s : ActionSettings) (now : Int) (id workspace base : String)
    (settings : RunSettings) : Action :=
  { id, workspaceId := workspace, baseId := base, status := .processing, stage := .indexing
    displayText := "Indexing started"
    report := ({ settings } : ActionReport).push s.maxEvents
      ⟨now, "info", "indexing started", none⟩
    createdAt := now, processingSince := now, updatedAt := now, rowVersion := 0 }

/-- The documents of failed jobs, as many as are listed. -/
def failedOf (q : Queue) (scope : JobScope) (most : Nat) : List FailedDocument :=
  (q.list scope (some .failed) (wrap64 most)).map fun j =>
    ⟨j.documentId, j.lastError.getD ""⟩

def recounted (s : ActionSettings) (q : Queue) (a : Action) : Action :=
  let p := Progress.ofCounts (q.counts a.scope)
  { a with report := { a.report with
      total := p.total
      processed := p.processed
      failedCount := p.failed
      percent := p.percent
      failed := if 0 < p.failed then failedOf q a.scope s.maxFailedListed
        else a.report.failed } }

/-- The action ended at a stage, with an event of a level that says so. -/
def ended (s : ActionSettings) (now : Int) (a : Action) (status : ActionStatus)
    (stage : ActionStage) (displayText level event : String) : Action :=
  { a with
    status, stage, displayText
    report := a.report.push s.maxEvents ⟨now, level, event, none⟩ }

/-- Whether an action under way has been so for too long. -/
def isOverdue (s : ActionSettings) (now : Int) (a : Action) : Bool :=
  millis s.timeoutSeconds < wrap64 (now - a.processingSince)

/-- An action under way, moved on as the counts of its jobs and its time demand. -/
def settled (s : ActionSettings) (now : Int) (a : Action) (ending : Option Ending) : Action :=
  let r := a.report
  match ending with
  | some .done =>
    a.ended s now .done .completed ("Indexed " ++ toString r.total ++ " documents")
      "info" "indexing completed"
  | some .error =>
    let text := "Indexing finished with " ++ toString r.failedCount ++ " failed of " ++
      toString r.total ++ " documents"
    a.ended s now .error .failed text "error" text
  | none =>
    if isOverdue s now a then
      let text := "Indexing timed out after " ++ toString s.timeoutSeconds ++ "s at " ++
        toString r.percent ++ "%"
      a.ended s now .error .timedOut text "error" text
    else
      { a with displayText := "Indexed " ++ toString r.processed ++ " of " ++
          toString r.total ++ " documents (" ++ toString r.percent ++ "%)" }

/-- The action as its jobs and the time demand. Only one under way is moved on. -/
def refreshed (s : ActionSettings) (q : Queue) (now : Int) (a : Action) : Action :=
  let next := recounted s q a
  let ending := (Progress.ofCounts (q.counts a.scope)).ending
  let next := if a.status = .processing then next.settled s now ending else next
  { next with updatedAt := now }

/-- The action after something was done to it that is allowed. -/
def controlled (s : ActionSettings) (now : Int) (c : Control) (a : Action) : Action :=
  let (event, text) := c.texts
  { a with
    processingSince := if c = .resume then now else a.processingSince
    status := c.target
    stage := c.stage
    displayText := text
    updatedAt := now
    report := a.report.push s.maxEvents ⟨now, "info", event, none⟩ }

end Action

namespace Actions

def action? (as : Actions) (id : String) : Option Action := as.find? (·.id = id)

/-- The action of a base that was started last. -/
def latest? (as : Actions) (workspace base : String) : Option Action :=
  (as.filter fun a => a.workspaceId = workspace && a.baseId = base).foldl (fun best a =>
    match best with
    | none => some a
    | some b => if b.createdAt ≤ a.createdAt then some a else some b) none

/-- Write an action that was made from the row of that version; nothing when the row is of
another version by now. -/
def write? (as : Actions) (next : Action) : Option Actions :=
  if as.any fun a => a.id = next.id && a.rowVersion = next.rowVersion then
    some (as.map fun a =>
      if a.id = next.id then { next with rowVersion := next.rowVersion + 1 } else a)
  else none

/-- How often a write is tried before it is given up. -/
def writeTries : Nat := 5

/-- Count an action's jobs anew and write it, from the row that was read or, when that write
is refused, from the row as it is then. -/
def refreshFrom (s : ActionSettings) (q : Queue) (now : Int) :
    Nat → Actions → Action → Action × Actions
  | 0, as, a => (a, as)
  | tries + 1, as, a =>
    if a.status.isTerminal then (a, as)
    else
      let next := a.refreshed s q now
      match as.write? next with
      | some written => ({ next with rowVersion := next.rowVersion + 1 }, written)
      | none => refreshFrom s q now tries as ((as.action? a.id).getD a)

/-- Count the jobs of a base's latest action anew. -/
def refreshLatest (as : Actions) (s : ActionSettings) (q : Queue) (now : Int)
    (workspace base : String) : Option Action × Actions :=
  match as.latest? workspace base with
  | none => (none, as)
  | some a =>
    let (a, as) := refreshFrom s q now writeTries as a
    (some a, as)

/-- Whether an action has been under way for too long when the clock is looked at once. -/
def isExpired (s : ActionSettings) (now : Int) (a : Action) : Bool :=
  a.status = .processing && a.processingSince < before now s.timeoutSeconds

/-- Count the jobs of these actions anew, one after the other; how many have timed out. -/
def refreshAll (s : ActionSettings) (q : Queue) (now : Int) :
    Nat → Actions → List Action → Nat × Actions
  | expired, as, [] => (expired, as)
  | expired, as, a :: rest =>
    let (a, as) := refreshFrom s q now writeTries as a
    refreshAll s q now (if a.stage = .timedOut then expired + 1 else expired) as rest

/-- Look after all actions that have been under way for too long. -/
def expire (as : Actions) (s : ActionSettings) (q : Queue) (now : Int) : Nat × Actions :=
  refreshAll s q now 0 as (as.filter (isExpired s now))

/-- Try so often to add an event to an action; an action that is not there has none. -/
def tryAppend (s : ActionSettings) (id : String) (e : ActionEvent) : Nat → Actions → Actions
  | 0, as => as
  | tries + 1, as =>
    match as.action? id with
    | none => as
    | some a =>
      match as.write? { a with report := a.report.push s.maxEvents e, updatedAt := e.moment } with
      | some written => written
      | none => tryAppend s id e tries as

def append (as : Actions) (s : ActionSettings) (id : String) (e : ActionEvent) : Actions :=
  tryAppend s id e writeTries as

def tryControl (s : ActionSettings) (now : Int) (id : String) (c : Control) :
    Nat → Actions → Except ControlError Action × Actions
  | 0, as => (.error (.kept id c.target), as)
  | tries + 1, as =>
    match as.action? id with
    | none => (.error (.unknown id), as)
    | some a =>
      if c.isAllowed a.status then
        let next := a.controlled s now c
        match as.write? next with
        | some written => (.ok { next with rowVersion := next.rowVersion + 1 }, written)
        | none => tryControl s now id c tries as
      else (.error (.notAllowed id a.status c.target), as)

def control (as : Actions) (s : ActionSettings) (now : Int) (id : String) (c : Control) :
    Except ControlError Action × Actions :=
  tryControl s now id c writeTries as

end Actions

end IndexingPipeline
