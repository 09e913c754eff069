import IndexingPipeline.Run.Step

/-!
# Workers

A worker polls: it puts back what dead workers have left behind, and takes at most one job to
its outcome. It goes on at once while jobs get somewhere, and stops where one does not.
-/

namespace IndexingPipeline

inductive PollResult where
  | idle
  | ran (outcome : Outcome)
  | crashed
  deriving DecidableEq, Repr

namespace World

/-- Look after what dead workers have left behind: their jobs, their revisions, and the actions
that have been under way for too long. -/
def housekeeping (cfg : Config) (w : World) : World :=
  let w := w.onJobs fun q => (q.recover cfg.worker w.now).2
  let w := w.onRevisions fun rs =>
    (rs.failAbandoned w.db.documents w.now (before w.now cfg.worker.lockTtlSeconds)).2
  w.onActions fun as => (as.expire cfg.actions w.db.jobs w.now).2

def claim (w : World) : Option Job × World :=
  let (job, jobs) := w.db.jobs.claim w.now
  (job, { w with db := { w.db with jobs } })

def poll (s : Setup) (w : World) : PollResult × World :=
  match (w.housekeeping s.config).claim with
  | (none, w) => (.idle, w)
  | (some job, w) =>
    match w.process s job with
    | (some outcome, w) => (.ran outcome, w)
    | (none, w) => (.crashed, w)

def hasDue (w : World) : Bool := !(w.db.jobs.due w.now).isEmpty

/-- Whether a job is due or under way. -/
def isBusy (w : World) : Bool := w.hasDue || w.db.jobs.any (·.status = .processing)

/-- How often a job that has failed so often can still be executed: until its attempts are used up,
and once in any case. A count at the end of its word begins anew. -/
def attemptsLeft (cfg : Config) (attempts : Nat) : Nat :=
  if attempts + 1 < Number.twoTo 32 then max 1 (cfg.worker.maxAttempts - attempts)
  else 1 + cfg.worker.maxAttempts

def executionsLeft (cfg : Config) (j : Job) : Nat :=
  match j.status with
  | .pending => attemptsLeft cfg j.attempts
  | .processing => attemptsLeft cfg j.attempts
  | _ => 0

/-- How many jobs others may still add while a provider is at work. -/
def submissionsLeft (w : World) : Nat :=
  (w.turns.flatMap (·.meanwhile)).countP fun i =>
    match i with
    | .submit _ _ _ _ _ => true
    | _ => false

/-- How many polls there can be until nothing is due: each executes a job once more or puts one
off, and one that is put off comes due again only when a provider has moved the clock. -/
def pollsLeft (cfg : Config) (w : World) : Nat :=
  let executions := w.db.jobs.foldl (fun n j => n + executionsLeft cfg j) 0 +
    w.submissionsLeft * max 1 cfg.worker.maxAttempts
  (1 + 2 * executions) * (1 + w.turns.length)

/-- Poll until nothing is due or a job gets nowhere, at most so often: the outcomes in order,
and whether something nothing handles has stopped it. -/
def drainWithin (s : Setup) : Nat → World → List Outcome × Bool × World
  | 0, w => ([], false, w)
  | bound + 1, w =>
    match w.poll s with
    | (.idle, w) => ([], false, w)
    | (.crashed, w) => ([], true, w)
    | (.ran outcome, w) =>
      if outcome.isHandled then
        let (more, crashed, w) := drainWithin s bound w
        (outcome :: more, crashed, w)
      else ([outcome], false, w)

/-- Poll until nothing is due or a job gets nowhere. -/
def drain (s : Setup) (w : World) : List Outcome × Bool × World :=
  w.drainWithin s (w.pollsLeft s.config)

/-- Poll once, and then, at most so often, while a job is due or under way. -/
def workWithin (s : Setup) : Nat → World → World
  | 0, w => w
  | bound + 1, w =>
    let w := (w.poll s).2
    if w.isBusy then workWithin s bound w else w

def work (s : Setup) (w : World) : World := w.workWithin s (w.pollsLeft s.config)

end World

end IndexingPipeline
