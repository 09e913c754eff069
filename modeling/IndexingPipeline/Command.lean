import IndexingPipeline.Layout
import IndexingPipeline.Sweep
import IndexingPipeline.Worker

/-!
# Commands

What an operator can ask for and the lines that are printed for it. A command works with the
services that the configuration names and starts without tokens.
-/

namespace IndexingPipeline

inductive Command where
  | put (workspace base document : String) (version : Option String) (file : String)
      (body : Option String)
  | enqueue (workspace base document : String) (version : Option String)
  | work
  | jobs (workspace base : Option String) (status : Option String) (limit : Int)
  | start (workspace base : String) (settings : RunSettings) (reindex : Bool)
  | action (workspace base : String)
  | control (id : String) (c : Control)
  | sweep
  | revisions (workspace document : String)

inductive CommandError where
  | unreadable (file : String)
  | unknownDocument (id : String)
  | unknownStatus (name : String)
  | control (e : ControlError)
  /-- Stopped by something that nothing handles. -/
  | crashed
  deriving DecidableEq, Repr

def unknownStatus (kind name : String) : String := "unknown " ++ kind ++ ": '" ++ name ++ "'"

def CommandError.message : CommandError → String
  | .unreadable file => "Failed to read " ++ file
  | .unknownDocument id => "document not found: " ++ id
  | .unknownStatus name => IndexingPipeline.unknownStatus "JobStatus" name
  | .control e => e.message
  | .crashed => ""

/-- The printed lines, and why nothing more came of it if so. -/
structure Printed where
  lines : List String
  error : Option CommandError := none
  deriving DecidableEq, Repr

namespace Command

open Layout

def countLines (c : JobCounts) : List String :=
  ["Indexing jobs", "=============", "",
    "  Pending:     " ++ toString c.pending,
    "  Processing:  " ++ toString c.processing,
    "  Completed:   " ++ toString c.completed,
    "  Failed:      " ++ toString c.failed]

def jobRow (id document status tries scheduled : String) : String :=
  "  " ++ left 36 id ++ " " ++ left 24 document ++ " " ++ status ++ " " ++ right 3 tries ++
    "   " ++ scheduled

def jobLines (now : Int) (j : Job) : List String :=
  jobRow j.id j.documentId j.status.name (toString j.attempts) (relative now j.scheduledAt) ::
    (j.lastError.map fun reason => "  " ++ blanks 36 ++ " " ++ reason).toList

def jobTable (now : Int) (jobs : List Job) : List String :=
  if jobs.isEmpty then []
  else
    "" :: jobRow "JOB" "DOCUMENT" (left 10 "STATUS") "TRY" "SCHEDULED" ::
      ("  " ++ rule 96) :: jobs.flatMap (jobLines now)

def failedLines (failed : List FailedDocument) : List String :=
  if failed.isEmpty then []
  else "" :: "  Failed documents:" ::
    failed.map fun d => "    " ++ d.documentId ++ ": " ++ d.reason

def eventLines (now : Int) (events : List ActionEvent) : List String :=
  if events.isEmpty then []
  else "" :: "  Events:" ::
    events.map fun e =>
      "    " ++ relative now e.moment ++ " [" ++ e.level ++ "] " ++ e.message

def actionLines (now : Int) (a : Action) : List String :=
  let r := a.report
  ["Action:    " ++ a.id,
   "Status:    " ++ a.status.name ++ " (" ++ a.stage.name ++ ")",
   "Progress:  " ++ a.displayText,
   "Documents: " ++ toString r.processed ++ " / " ++ toString r.total ++ " processed, " ++
     toString r.failedCount ++ " failed (" ++ toString r.percent ++ "%)"] ++
    failedLines r.failed ++ eventLines now r.events

def revisionRow (mark id status chunks tokens started : String) : String :=
  "  " ++ left 2 mark ++ " " ++ left 36 id ++ " " ++ status ++ " " ++ right 6 chunks ++ " " ++
    right 8 tokens ++ "   " ++ started

def revisionLines (now : Int) (current : Option String) (r : Revision) : List String :=
  revisionRow (if current = some r.id then "*" else "") r.id r.status.name
      (toString r.chunkCount) (toString r.totalTokens) (relative now r.startedAt) ::
    (r.reason.map fun reason => "  " ++ blanks 2 ++ " " ++ reason).toList

def documentLines (now : Int) (d : Document) (revisions : List Revision) : List String :=
  ["Document:  " ++ d.id,
   "Version:   " ++ d.versionId,
   "Indexed:   " ++ d.indexedVersionId.getD "-" ++ " (" ++ d.indexStatus.name ++ ")"] ++
    (d.indexError.map fun reason => "Error:     " ++ reason).toList ++
    ["",
     revisionRow "" "REVISION" (left 10 "STATUS") "CHUNKS" "TOKENS" "STARTED",
     "  " ++ rule 84] ++
    revisions.flatMap (revisionLines now d.currentRevisionId)

/-- Ask for every document of a list to be indexed in its stored version. -/
def enqueueAll (w : World) (workspace base : String) : List Document → World
  | [] => w
  | d :: rest => enqueueAll (w.enqueue workspace base d.id d.versionId).2 workspace base rest

/-- Start an action; with `reindex`, ask for every document of the base to be indexed. -/
def startAction (cfg : Config) (w : World) (workspace base : String) (settings : RunSettings) :
    Action × World :=
  let (id, w) := w.draw
  let a := Action.fresh cfg.actions w.now id workspace base settings
  (a, w.onActions (· ++ [a]))

/-- The version asked for: the one named, or the one stored. -/
def versionOf (w : World) (workspace document : String) : Option String →
    Except CommandError String
  | some version => .ok version
  | none =>
    match w.db.documents.document? workspace document with
    | some d => .ok d.versionId
    | none => .error (.unknownDocument document)

def statusOf : Option String → Except CommandError (Option JobStatus)
  | none => .ok none
  | some name =>
    match JobStatus.ofName? name with
    | some status => .ok (some status)
    | none => .error (.unknownStatus name)

/-- Store a document and ask for its version to be indexed; a version is drawn when none is
named. -/
def runPut (w : World) (workspace base document : String) (version : Option String)
    (body : String) : Printed × World :=
  let (version, w) := match version with
    | some version => (version, w)
    | none => w.draw
  let (job, w) := w.submit workspace base document version body
  ({ lines := ["Stored " ++ document ++ " (version " ++ version ++ ")",
      "Queued job " ++ job.id] }, w)

def runEnqueue (w : World) (workspace base document : String) (version : Option String) :
    Printed × World :=
  match versionOf w workspace document version with
  | .error e => ({ lines := [], error := some e }, w)
  | .ok version =>
    let (job, w) := w.enqueue workspace base document version
    ({ lines := ["Queued job " ++ job.id ++ " for " ++ document ++ " (version " ++ version ++
        ")"] }, w)

def runJobs (w : World) (workspace base status : Option String) (limit : Int) : Printed :=
  match statusOf status with
  | .error e => { lines := [], error := some e }
  | .ok status =>
    let scope : JobScope := { workspaceId := workspace, baseId := base }
    { lines := countLines (w.db.jobs.counts scope) ++
        jobTable w.now (w.db.jobs.list scope status limit) ++ [""] }

def runStart (cfg : Config) (w : World) (workspace base : String) (settings : RunSettings)
    (reindex : Bool) : Printed × World :=
  let (a, w) := startAction cfg w workspace base settings
  let started := "Started action " ++ a.id
  if reindex then
    let documents := w.db.documents.list workspace base
    ({ lines := [started, "Queued " ++ toString documents.length ++ " document(s)"] },
      enqueueAll w workspace base documents)
  else ({ lines := [started] }, w)

def runAction (cfg : Config) (w : World) (workspace base : String) : Printed × World :=
  match w.refreshAction cfg workspace base with
  | (some a, w) => ({ lines := actionLines w.now a }, w)
  | (none, w) => ({ lines := ["No indexing action for " ++ workspace ++ "/" ++ base] }, w)

def runControl (cfg : Config) (w : World) (id : String) (c : Control) : Printed × World :=
  match w.control cfg id c with
  | (.ok a, w) => ({ lines := actionLines w.now a }, w)
  | (.error e, w) => ({ lines := [], error := some (.control e) }, w)

def runWork (s : Setup) (w : World) : Printed × World :=
  let (outcomes, crashed, w) := w.drain s
  let lines := outcomes.map fun o => "  " ++ outcome o
  if crashed then ({ lines, error := some .crashed }, w)
  else
    ({ lines := lines ++ ["Processed " ++ toString outcomes.length ++ " job(s)."] }, w)

def runSweep (s : Setup) (w : World) : Printed × World :=
  let (report, w) := w.sweep s
  ({ lines := ["Swept " ++ toString report.documents ++ " document(s): " ++
      toString report.deleted ++ " orphaned point(s) deleted, " ++
      toString report.failures ++ " failure(s)."] }, w)

def runRevisions (w : World) (workspace document : String) : Printed :=
  match w.db.documents.document? workspace document with
  | none => { lines := [], error := some (.unknownDocument document) }
  | some d => { lines := documentLines w.now d (w.db.revisions.list workspace document) }

def setup (cfg : Config) (env : Environment) : Setup :=
  ⟨cfg, true, some (Gateway.ofSettings cfg.store env)⟩

/-- Act without the tokens at hand, which are there again afterwards. -/
def withoutTokens (w : World) (act : World → Printed × World) : Printed × World :=
  let (printed, after) := act { w with desk := { w.desk with cache := {} } }
  (printed, { after with desk := { after.desk with cache := w.desk.cache } })

def run (cfg : Config) (w : World) : Command → Printed × World
  | .put _ _ _ _ file none => ({ lines := [], error := some (.unreadable file) }, w)
  | .put workspace base document version _ (some body) =>
    runPut w workspace base document version body
  | .enqueue workspace base document version => runEnqueue w workspace base document version
  | .work => withoutTokens w (runWork (setup cfg w.env))
  | .jobs workspace base status limit => (runJobs w workspace base status limit, w)
  | .start workspace base settings reindex => runStart cfg w workspace base settings reindex
  | .action workspace base => runAction cfg w workspace base
  | .control id c => runControl cfg w id c
  | .sweep => runSweep (setup cfg w.env) w
  | .revisions workspace document => (runRevisions w workspace document, w)

end Command

end IndexingPipeline
