import IndexingPipeline.Json.Record
import IndexingPipeline.Policy.Basic

/-!
# What an action reports

The counts of an action, the documents that failed, the last events and the settings of its
runs. A report is stored as one JSON text: `ActionReport.toTree` fixes the form in which it is
written, `ActionReport.ofTree` what is taken for one when it is read.
-/

namespace IndexingPipeline

structure ActionEvent where
  moment : Int
  level : String
  message : String
  documentId : Option String
  deriving DecidableEq, Repr, Inhabited

structure FailedDocument where
  documentId : String
  reason : String
  deriving DecidableEq, Repr, Inhabited

structure ActionReport where
  total : Nat := 0
  processed : Nat := 0
  percent : Nat := 0
  failedCount : Nat := 0
  failed : List FailedDocument := []
  events : List ActionEvent := []
  settings : RunSettings := {}
  deriving DecidableEq, Repr, Inhabited

namespace ActionEvent

def toTree (e : ActionEvent) : Json.Tree :=
  .object ([
    Json.member "at" (.ofInt e.moment),
    Json.member "level" (.ofString e.level),
    Json.member "message" (.ofString e.message)] ++
    (e.documentId.map fun id => Json.member "document_id" (.ofString id)).toList)

def ofTree (t : Json.Tree) : Option ActionEvent := do
  let fields ← t.fields? ["at", "level", "message", "document_id"]
  let moment ← Json.need fields "at" Json.Tree.integer?
  let level ← Json.need fields "level" Json.Tree.text?
  let message ← Json.need fields "message" Json.Tree.text?
  let documentId ← Json.maybe fields "document_id" Json.Tree.text?
  return ⟨moment, level, message, documentId⟩

end ActionEvent

namespace FailedDocument

def toTree (d : FailedDocument) : Json.Tree :=
  .object [
    Json.member "document_id" (.ofString d.documentId),
    Json.member "error" (.ofString d.reason)]

def ofTree (t : Json.Tree) : Option FailedDocument := do
  let fields ← t.fields? ["document_id", "error"]
  let documentId ← Json.need fields "document_id" Json.Tree.text?
  let reason ← Json.need fields "error" Json.Tree.text?
  return ⟨documentId, reason⟩

end FailedDocument

namespace RunSettings

/-- Only what is asked for is written. -/
def toTree (s : RunSettings) : Json.Tree :=
  .object (
    (s.providerId.map fun id => Json.member "provider_id" (.ofString id)).toList ++
    (s.model.map fun m => Json.member "model" (.ofString m)).toList ++
    (s.chunkSize.map fun n => Json.member "chunk_size" (.ofInt n)).toList ++
    (s.chunkOverlap.map fun n => Json.member "chunk_overlap" (.ofInt n)).toList)

def ofTree (t : Json.Tree) : Option RunSettings := do
  let fields ← t.fields? ["provider_id", "model", "chunk_size", "chunk_overlap"]
  let providerId ← Json.maybe fields "provider_id" Json.Tree.text?
  let model ← Json.maybe fields "model" Json.Tree.text?
  let chunkSize ← Json.maybe fields "chunk_size" (Json.Tree.natural? (Number.twoTo 64))
  let chunkOverlap ← Json.maybe fields "chunk_overlap" (Json.Tree.natural? (Number.twoTo 64))
  return { providerId, model, chunkSize, chunkOverlap }

end RunSettings

namespace ActionReport

def toTree (r : ActionReport) : Json.Tree :=
  .object [
    Json.member "total_documents" (.ofInt r.total),
    Json.member "processed_documents" (.ofInt r.processed),
    Json.member "progress_percent" (.ofInt r.percent),
    Json.member "failed_documents" (.ofInt r.failedCount),
    Json.member "failed" (.list (r.failed.map FailedDocument.toTree)),
    Json.member "events" (.list (r.events.map ActionEvent.toTree)),
    Json.member "config" r.settings.toTree]

def ofTree (t : Json.Tree) : Option ActionReport := do
  let fields ← t.fields? ["total_documents", "processed_documents", "progress_percent",
    "failed_documents", "failed", "events", "config"]
  let count := Json.Tree.natural? (Number.twoTo 64)
  let total ← Json.part fields "total_documents" 0 count
  let processed ← Json.part fields "processed_documents" 0 count
  let percent ← Json.part fields "progress_percent" 0 (Json.Tree.natural? (Number.twoTo 8))
  let failedCount ← Json.part fields "failed_documents" 0 count
  let failed ← Json.part fields "failed" [] (Json.Tree.items? FailedDocument.ofTree)
  let events ← Json.part fields "events" [] (Json.Tree.items? ActionEvent.ofTree)
  let settings ← Json.part fields "config" {} RunSettings.ofTree
  return { total, processed, percent, failedCount, failed, events, settings }

def compact (r : ActionReport) : String := r.toTree.compact

def read? (s : String) : Option ActionReport :=
  (Json.Tree.readDeep? s.toList).bind ofTree

/-- An event behind the others; of more than so many, only the last are kept. -/
def push (r : ActionReport) (most : Nat) (e : ActionEvent) : ActionReport :=
  let events := r.events ++ [e]
  { r with events := events.drop (events.length - most) }

end ActionReport

end IndexingPipeline
