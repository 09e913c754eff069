import IndexingPipeline.Point.Payload
import IndexingPipeline.Policy.Readiness
import IndexingPipeline.Policy.Usage
import IndexingPipeline.Run.Basic
import IndexingPipeline.World

/-!
# The steps of a run

`Run.step` does what the stage of a run says and leads to the next stage. Each step is one
statement or transaction of the database or one request to a service, so that the steps of
several runs can be put in any order. `Run.complete` takes a run to its end.
-/

namespace IndexingPipeline

/-- Put `.failing` in the place of what was to follow, with a reason that is final. -/
def Stage.fail (revision : Option String) (reason : String) : Stage :=
  .failing revision (.fatal reason)

namespace Run

/-- Look at the latest action of the job's base: a paused one sends the job back, a canceled
one fails it, one under way lends its settings. -/
def look (s : Setup) (job : Job) (w : World) : Stage × World :=
  match w.db.actions.latest? job.workspaceId job.baseId with
  | none => (.locking {}, w)
  | some a =>
    match a.status with
    | .paused =>
      let moment := after w.now s.config.worker.pauseRecheckMs
      (.deferring (.paused moment) moment "action paused", w)
    | .canceled =>
      (.failing none (.canceled ("action " ++ a.id ++ " was canceled")), w)
    | .processing => (.locking a.report.settings, w)
    | .done => (.locking {}, w)
    | .error => (.locking {}, w)

def putBack (job : Job) (outcome : Outcome) (moment : Int) (reason : String) (w : World) :
    Stage × World :=
  (.finished outcome, w.onJobs (·.reschedule w.now job.id moment reason))

/-- Take the document's lock, or wait until it is free. -/
def takeLock (s : Setup) (job : Job) (settings : RunSettings) (w : World) :
    Option String × Stage × World :=
  match w.acquire (World.lockLifetime s.config) job.workspaceId job.documentId with
  | (some holder, w) => (some holder, .opening settings, w)
  | (none, w) =>
    let moment := after w.now s.config.worker.lockRetryDelayMs
    (none,
      .deferring (.lockBusy moment) moment "document is being indexed by another job", w)

/-- The policy and the provider of a run, or why it has none. -/
def plan (s : Setup) (env : Environment) (job : Job) (settings : RunSettings) :
    Except String (Policy × Provider) :=
  match Policy.effective s.config job.baseId settings with
  | .error e => .error e.message
  | .ok policy =>
    match s.config.readiness env policy.providerId with
    | .error e => .error ("embedding provider unavailable: " ++ e.message)
    | .ok () =>
      match s.config.providerFor? policy.providerId policy.model with
      | none => .error ("provider '" ++ policy.providerId ++ "' not found")
      | some provider => .ok (policy, provider)

/-- Open a revision under the policy of the run. -/
def openRevision (s : Setup) (job : Job) (settings : RunSettings) (w : World) :
    Stage × World :=
  match plan s w.env job settings with
  | .error reason => (.fail none reason, w)
  | .ok (policy, provider) =>
    let (r, w) := w.openRevision job.workspaceId job.documentId job.versionId policy.digest
    (.chunking
      { policy, provider, revisionId := r.id, set := ⟨"", r.id, job.documentId, []⟩
        token := none, vectors := [], usages := [] }, w)

/-- Split the document as it is now and store its chunks. -/
def chunk (job : Job) (d : Draft) (w : World) : Stage × World :=
  match w.chunkDocument? job.workspaceId job.documentId d.revisionId d.policy.window with
  | none =>
    (.fail (some d.revisionId) ("document " ++ job.documentId ++ " not found"), w)
  | some (set, w) => (.sizing { d with set }, w)

/-- Write down how large the revision is; it has at least one chunk. -/
def size (d : Draft) (w : World) : Stage × World :=
  if d.set.chunks.isEmpty then
    (.fail (some d.revisionId) "document produced no chunks", w)
  else
    (.admitting d, w.onRevisions (·.update d.revisionId {
      chunkSetId := some d.set.id
      chunkCount := some d.set.chunks.length
      totalTokens := some d.set.totalTokens
      totalChars := some d.set.totalChars }))

def askGate (s : Setup) (job : Job) (d : Draft) : Stage :=
  match s.config.usage.decide job.documentId d.set.chunks.length with
  | .allowed => .authorizing d
  | .denied code message =>
    .fail (some d.revisionId) ("usage limit reached (" ++ code ++ "): " ++ message)

def authorize (d : Draft) (w : World) : Stage × World :=
  match w.accessToken d.provider with
  | (.given token, w) => (.embedding { d with token } d.set.chunks, w)
  | (.refused e, w) => (.failing (some d.revisionId) (.ofToken e), w)
  | (.beyondClock, w) => (.crashed, w)

/-- What is wrong with a vector that has another length than those before it. -/
def lengthMismatch (index total found expected : Nat) : String :=
  "embedding for chunk " ++ toString index ++ " of " ++ toString total ++ " has " ++
    toString found ++ " dimensions, expected " ++ toString expected

/-- A vector behind those before it, which have to be of the same length. -/
def keepVector (d : Draft) (left : List Chunk) (e : Embedding) : Stage :=
  let expected := (d.vectors.head?.map List.length).getD e.vector.length
  if e.vector.length = expected then
    .embedding { d with
      vectors := d.vectors ++ [e.vector], usages := d.usages ++ [e.usage] } left
  else
    .fail (some d.revisionId)
      (lengthMismatch (d.vectors.length + 1) d.set.chunks.length e.vector.length expected)

/-- Embed the next chunk. A token that the provider does not accept is forgotten. -/
def embedNext (s : Setup) (d : Draft) (c : Chunk) (left : List Chunk) (w : World) :
    Stage × World :=
  match w.embed s d.provider d.token c.text with
  | (.ok e, w) => (keepVector d left e, w)
  | (.error e, w) =>
    let w := match e with
      | .api 401 _ => { w with desk := w.desk.invalidate d.provider.id }
      | _ => w
    (.failing (some d.revisionId)
      (.ofEmbedding e (d.vectors.length + 1) d.set.chunks.length), w)

def collection (s : Setup) (job : Job) : String :=
  collectionName s.config.store.collectionStem job.workspaceId

/-- Make sure of a collection for vectors of this length. -/
def ensure (s : Setup) (job : Job) (d : Draft) (w : World) : Stage × World :=
  let dims := (d.vectors.head?.map List.length).getD 0
  match w.ensureCollection s (collection s job) dims with
  | (.ok (), w) => (.writing d, w)
  | (.error e, w) =>
    (.fail (some d.revisionId) ("ensure collection failed: " ++ e.message), w)

/-- The names under which the points of a run are found. -/
def scope (job : Job) (d : Draft) : PointScope :=
  { workspaceId := job.workspaceId, baseId := job.baseId, documentId := job.documentId
    versionId := job.versionId, revisionId := d.revisionId, chunkSetId := d.set.id }

def points (job : Job) (d : Draft) : Except PayloadError (List Point) := do
  let templates ← FieldTemplates.ofFields d.policy.fields
  Point.buildAll templates d.policy.fields (scope job d) (d.set.chunks.zip d.vectors)

def write (s : Setup) (job : Job) (d : Draft) (w : World) : Stage × World :=
  match points job d with
  | .error e => (.fail (some d.revisionId) e.message, w)
  | .ok batch =>
    match w.writePoints s (collection s job) batch with
    | (.ok (), w) => (.accounting d, w)
    | (.error e, w) => (.fail (some d.revisionId) ("upsert failed: " ++ e.message), w)

/-- The sum of what the provider says each chunk cost; none unless it says so of each. -/
def totalUsage (usages : List (Option Nat)) : Option Nat :=
  usages.foldl (fun sum usage => do return wrapU64 ((← sum) + (← usage))) (some 0)

def account (d : Draft) (w : World) : Stage × World :=
  match totalUsage d.usages with
  | none => (.switching d, w)
  | some total =>
    (.switching d,
      w.onRevisions (·.update d.revisionId { totalTokens := some (wrap64 total) }))

def switch (job : Job) (d : Draft) (w : World) : Stage × World :=
  match w.db.switchIn? w.now job d.revisionId d.set.id with
  | none =>
    (.fail (some d.revisionId)
      ("document " ++ job.workspaceId ++ "/" ++ job.documentId ++ " not found"), w)
  | some (previous, db) => (.cleaning d previous, { w with db })

/-- Delete the points of the document's other revisions, as well as that can be done. -/
def clean (s : Setup) (job : Job) (d : Draft) (previous : Option String) (w : World) :
    Stage × World :=
  let (answer, w) := w.deletePoints s (collection s job)
    (.superseded job.workspaceId job.documentId d.revisionId)
  (.refreshing (.completed d.revisionId previous d.set.chunks.length answer.toOption), w)

/-- Fail the revision that was opened, if it can still be failed. -/
def failRevision (revision : Option String) (e : JobError) (w : World) : Stage × World :=
  match revision with
  | none => (.settling e, w)
  | some id =>
    (.settling e,
      w.onRevisions fun rs => (rs.markFailed w.db.documents w.now id e.message).2)

/-- Put the job back when it may be tried again, and end it otherwise. -/
def settle (s : Setup) (job : Job) (e : JobError) (w : World) : Stage × World :=
  if e.isRetryable then
    match w.db.jobs.retry s.config.worker w.now job e.message with
    | (.rescheduled attempts moment, jobs) =>
      (.refreshing (.retrying attempts moment), w.onJobs fun _ => jobs)
    | (.failed attempts, jobs) =>
      (.marking (givingUp attempts e.message), w.onJobs fun _ => jobs)
  else (.marking e.message, w.onJobs (·.fail w.now job.id e.message))

/-- Say on the document why it could not be indexed. -/
def mark (job : Job) (reason : String) (w : World) : Stage × World :=
  (.noting reason,
    w.onDocuments (·.markError w.now job.workspaceId job.documentId reason))

/-- Say on the latest action why the document could not be indexed. -/
def note (s : Setup) (job : Job) (reason : String) (w : World) : Stage × World :=
  (.refreshing (.failed reason),
    match w.db.actions.latest? job.workspaceId job.baseId with
    | none => w
    | some a =>
      w.onActions (·.append s.config.actions a.id
        ⟨w.now, "error", reason, some job.documentId⟩))

/-- Count the jobs of the latest action anew; then only the lock is left to give back. -/
def refresh (s : Setup) (r : Run) (outcome : Outcome) (w : World) : Stage × World :=
  ((match r.holder with
    | some _ => .releasing outcome
    | none => .finished outcome),
    (w.refreshAction s.config r.job.workspaceId r.job.baseId).2)

def release (r : Run) (outcome : Outcome) (w : World) : Stage × World :=
  (.finished outcome,
    match r.holder with
    | some holder => w.onLocks (·.release r.job.workspaceId r.job.documentId holder)
    | none => w)

def act (s : Setup) (r : Run) (w : World) : Option String × Stage × World :=
  match r.stage with
  | .looking => (r.holder, look s r.job w)
  | .deferring outcome moment reason => (r.holder, putBack r.job outcome moment reason w)
  | .locking settings => takeLock s r.job settings w
  | .opening settings => (r.holder, openRevision s r.job settings w)
  | .chunking d => (r.holder, chunk r.job d w)
  | .sizing d => (r.holder, size d w)
  | .admitting d => (r.holder, askGate s r.job d, w)
  | .authorizing d => (r.holder, authorize d w)
  | .embedding d [] => (r.holder, .ensuring d, w)
  | .embedding d (c :: left) => (r.holder, embedNext s d c left w)
  | .ensuring d => (r.holder, ensure s r.job d w)
  | .writing d => (r.holder, write s r.job d w)
  | .accounting d => (r.holder, account d w)
  | .switching d => (r.holder, switch r.job d w)
  | .cleaning d previous => (r.holder, clean s r.job d previous w)
  | .failing revision e => (r.holder, failRevision revision e w)
  | .settling e => (r.holder, settle s r.job e w)
  | .marking reason => (r.holder, mark r.job reason w)
  | .noting reason => (r.holder, note s r.job reason w)
  | .refreshing outcome => (r.holder, refresh s r outcome w)
  | .releasing outcome => (r.holder, release r outcome w)
  | .finished outcome => (r.holder, .finished outcome, w)
  | .crashed => (r.holder, .crashed, w)

def step (s : Setup) (r : Run) (w : World) : Run × World :=
  let (holder, stage, w) := act s r w
  ({ r with holder, stage }, w)

/-- A stage leads to one that is nearer to the end, or has fewer chunks left. -/
def Nearer (a b : Stage) : Prop := Prod.Lex (· < ·) (· < ·) (a.rank, a.left) (b.rank, b.left)

theorem nearer_of_rank {a b : Stage} (h : a.rank < b.rank) : Nearer a b := .left _ _ h

theorem act_nearer (s : Setup) (r : Run) (w : World) (h : r.stage.isOver = false) :
    Nearer (act s r w).2.1 r.stage := by
  unfold act
  split <;> rename_i hs <;> simp only [hs] at h ⊢
  case h_1 =>
    apply nearer_of_rank
    unfold look
    split
    · simp [Stage.rank]
    · split <;> simp [Stage.rank]
  case h_2 => exact nearer_of_rank (by simp [putBack, Stage.rank])
  case h_3 =>
    apply nearer_of_rank
    unfold takeLock
    split <;> simp [Stage.rank]
  case h_4 =>
    apply nearer_of_rank
    unfold openRevision
    split <;> simp [Stage.rank, Stage.fail]
  case h_5 =>
    apply nearer_of_rank
    unfold chunk
    split <;> simp [Stage.rank, Stage.fail]
  case h_6 =>
    apply nearer_of_rank
    unfold size
    split <;> simp [Stage.rank, Stage.fail]
  case h_7 =>
    apply nearer_of_rank
    unfold askGate
    split <;> simp [Stage.rank, Stage.fail]
  case h_8 =>
    apply nearer_of_rank
    unfold authorize
    split <;> simp [Stage.rank]
  case h_9 => exact nearer_of_rank (by simp [Stage.rank])
  case h_10 =>
    unfold embedNext
    split
    · unfold keepVector
      simp only
      split
      · exact .right _ (by simp [Stage.left])
      · exact nearer_of_rank (by simp [Stage.rank, Stage.fail])
    · exact nearer_of_rank (by simp [Stage.rank])
  case h_11 =>
    apply nearer_of_rank
    unfold ensure
    simp only
    split <;> simp [Stage.rank, Stage.fail]
  case h_12 =>
    apply nearer_of_rank
    unfold write
    split
    · simp [Stage.rank, Stage.fail]
    · split <;> simp [Stage.rank, Stage.fail]
  case h_13 =>
    apply nearer_of_rank
    unfold account
    split <;> simp [Stage.rank]
  case h_14 =>
    apply nearer_of_rank
    unfold switch
    split <;> simp [Stage.rank, Stage.fail]
  case h_15 => exact nearer_of_rank (by simp [clean, Stage.rank])
  case h_16 =>
    apply nearer_of_rank
    unfold failRevision
    split <;> simp [Stage.rank]
  case h_17 =>
    apply nearer_of_rank
    unfold settle
    split
    · split <;> simp [Stage.rank]
    · simp [Stage.rank]
  case h_18 => exact nearer_of_rank (by simp [mark, Stage.rank])
  case h_19 => exact nearer_of_rank (by simp [note, Stage.rank])
  case h_20 =>
    apply nearer_of_rank
    unfold refresh
    cases r.holder <;> simp [Stage.rank]
  case h_21 => exact nearer_of_rank (by simp [release, Stage.rank])
  case h_22 => simp [Stage.isOver] at h
  case h_23 => simp [Stage.isOver] at h

theorem step_nearer (s : Setup) (r : Run) (w : World) (h : r.stage.isOver = false) :
    Nearer (step s r w).1.stage r.stage := act_nearer s r w h

def complete (s : Setup) (r : Run) (w : World) : Run × World :=
  if _ : r.stage.isOver then (r, w)
  else complete s (step s r w).1 (step s r w).2
termination_by (r.stage.rank, r.stage.left)
decreasing_by exact step_nearer s r w (by simpa using ‹¬r.stage.isOver = true›)

end Run

/-- What becomes of a claimed job: its outcome, or none when something nothing handles has
stopped its run. -/
def World.process (s : Setup) (w : World) (job : Job) : Option Outcome × World :=
  match Run.complete s (Run.start job) w with
  | (⟨_, _, .finished outcome⟩, w) => (some outcome, w)
  | (_, w) => (none, w)

end IndexingPipeline
