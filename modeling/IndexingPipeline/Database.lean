import IndexingPipeline.Action.Basic
import IndexingPipeline.Chunk.Basic
import IndexingPipeline.Lock
import IndexingPipeline.Queue
import IndexingPipeline.Revision

/-!
# The database

Everything that outlives a run: jobs, actions, documents, revisions, locks and chunk sets. Each
table keeps its rows in the order in which they were added. An operation on the database is one
statement, or one transaction of several.
-/

namespace IndexingPipeline

structure StoredChunkSet where
  set : ChunkSet
  createdAt : Int
  deriving DecidableEq, Repr

structure Database where
  jobs : Queue := []
  actions : Actions := []
  documents : Documents := []
  revisions : Revisions := []
  locks : Locks := []
  chunkSets : List StoredChunkSet := []
  deriving DecidableEq, Repr, Inhabited

namespace Database

def chunkSet? (db : Database) (id : String) : Option StoredChunkSet :=
  db.chunkSets.find? (·.set.id = id)

/-- Write a document and ask for the version to be indexed. -/
def submit (db : Database) (now : Int) (newId workspace base document version body : String) :
    Job × Database :=
  let documents := db.documents.put now workspace base document version body
  let (job, jobs) := db.jobs.enqueue now newId workspace base document version
  (job, { db with documents, jobs })

/-- Point a document at a revision. Which revision was current before, or none of it when there
is no such document. -/
def switch? (db : Database) (now : Int) (workspace document revision chunkSet : String) :
    Option (Option String × Database) :=
  (db.documents.document? workspace document).map fun d =>
    (d.currentRevisionId,
      { db with documents := db.documents.switch now workspace document revision chunkSet })

def markReady (db : Database) (now : Int) (revision : String) : Database :=
  { db with revisions := db.revisions.markReady now revision }

/-- The transaction that switches a revision in: the document points at it, it is ready, the
job is completed and the document is up to date. -/
def switchIn? (db : Database) (now : Int) (job : Job) (revision chunkSet : String) :
    Option (Option String × Database) :=
  (db.switch? now job.workspaceId job.documentId revision chunkSet).map fun (previous, db) =>
    (previous,
      { db.markReady now revision with
        jobs := db.jobs.complete now job.id
        documents :=
          db.documents.markUpToDate now job.workspaceId job.documentId job.versionId })

end Database

end IndexingPipeline
