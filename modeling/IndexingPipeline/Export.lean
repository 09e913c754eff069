import IndexingPipeline.Config.Basic
import IndexingPipeline.Database
import IndexingPipeline.Run.Basic
import IndexingPipeline.Policy.Usage
import IndexingPipeline.Sweep

/-!
# Records as values

The form in which the configuration and the records of the pipeline are handed to other
programs: one object a record, with null for what a record does not have.
-/

namespace IndexingPipeline

open Json (Value)

/-- A written form as a value; every form that is written here has one. -/
def writtenValue (t : Json.Tree) : Value := (Value.ofTree t).getD .null

def SchemaField.toValue (f : SchemaField) : Value :=
  .ofMembers [("name", .text f.name), ("template", .text f.template)]

def fieldsValue (fields : List SchemaField) : Value := .list (fields.map SchemaField.toValue)

def Auth.toValue : Auth → Value
  | .none => .ofMembers [("type", .text "none")]
  | .key name => .ofMembers [("type", .text "static"), ("api_key_env", .text name)]
  | .token url name scope => .ofMembers [("type", .text "oauth"), ("token_url", .text url),
      ("credentials_env", .text name), ("scope", .ofText? scope)]

def Provider.toValue (p : Provider) : Value :=
  .ofMembers [("id", .text p.id), ("kind", .text p.kind.name), ("url", .text p.url),
    ("model", .text p.model), ("dims", .ofOption .ofNat p.dims), ("active", .bool p.active),
    ("timeout_secs", .ofNat p.timeoutSeconds), ("auth", p.auth.toValue)]

def PolicySettings.toValue (p : PolicySettings) : Value :=
  .ofMembers [("provider_id", .text p.providerId), ("model", .ofText? p.model),
    ("chunk_size", .ofNat p.chunkSize), ("chunk_overlap", .ofNat p.chunkOverlap),
    ("schema_fields", fieldsValue p.schemaFields)]

def WorkerSettings.toValue (w : WorkerSettings) : Value :=
  .list ([w.pollIntervalMs, w.maxAttempts, w.backoffBaseMs, w.backoffMaxMs, w.lockRetryDelayMs,
    w.pauseRecheckMs, w.lockTtlSeconds, w.visibilityTimeoutSeconds].map .ofNat)

def StoreSettings.toValue (s : StoreSettings) : Value :=
  .ofMembers [("url", .text s.url), ("api_key_env", .ofText? s.keyEnvName),
    ("collection_prefix", .text s.collectionStem), ("timeout_secs", .ofNat s.timeoutSeconds)]

def ActionSettings.toValue (a : ActionSettings) : Value :=
  .list ([a.timeoutSeconds, a.maxEvents, a.maxFailedListed].map .ofNat)

def UsageSettings.toValue (u : UsageSettings) : Value :=
  .ofMembers [("enabled", .bool u.enabled),
    ("max_chunks_per_document", .ofOption .ofNat u.maxChunksPerDocument)]

namespace Config

/-- The knowledge bases stand in the order of their identifiers. -/
def members (cfg : Config) : List (String × Value) :=
  let bases := cfg.bases.mergeSort fun a b => !decide (b.1 < a.1)
  [("db_path", .text cfg.dataPath), ("worker", cfg.worker.toValue),
    ("policy", cfg.policy.toValue),
    ("knowledge_bases", .list (bases.map fun b => .list [.text b.1, fieldsValue b.2])),
    ("providers", .list (cfg.providers.map Provider.toValue)),
    ("vector_store", cfg.store.toValue), ("actions", cfg.actions.toValue),
    ("usage", cfg.usage.toValue)]

end Config

def Policy.toValue (p : Policy) : Value := writtenValue p.toTree

def Chunk.toValue (c : Chunk) : Value :=
  .ofMembers [("document_id", .text c.documentId), ("ordinal", .ofInt c.ordinal),
    ("text", .text c.text), ("start", .ofInt c.charStart), ("end", .ofInt c.charEnd),
    ("chars", .ofInt c.charCount), ("tokens", .ofInt c.tokenCount),
    ("hash", .text c.contentHash)]

/-- A chunk set by its counts. -/
def ChunkSet.toValue (set : ChunkSet) : Value :=
  .ofMembers [("id", .text set.id), ("document_id", .text set.documentId),
    ("chunks", .ofNat set.chunks.length), ("total_chars", .ofInt set.totalChars),
    ("total_tokens", .ofInt set.totalTokens)]

def Chunk.toRow (c : Chunk) : Value :=
  .list [.ofInt c.ordinal, .ofInt c.charStart, .ofInt c.charEnd, .ofInt c.charCount,
    .ofInt c.tokenCount, .text c.documentId, .text c.text, .text c.contentHash]

def StoredChunkSet.toRow (c : StoredChunkSet) : Value :=
  .list [.text c.set.documentId, .ofNat c.set.chunks.length, .ofInt c.createdAt]

def UsageDecision.toValue : UsageDecision → Value
  | .allowed =>
    .ofMembers [("allowed", .bool true), ("reason_code", .null), ("message", .null)]
  | .denied code message =>
    .ofMembers [("allowed", .bool false), ("reason_code", .text code),
      ("message", .text message)]

def RetryOutcome.toValue : RetryOutcome → Value
  | .rescheduled attempts moment => .ofMembers [("rescheduled", .bool true),
      ("attempts", .ofNat attempts), ("scheduled_at", .ofInt moment)]
  | .failed attempts =>
    .ofMembers [("rescheduled", .bool false), ("attempts", .ofNat attempts)]

def Job.toValue (j : Job) : Value :=
  .ofMembers [("id", .text j.id), ("workspace_id", .text j.workspaceId),
    ("base_id", .text j.baseId), ("document_id", .text j.documentId),
    ("version_id", .text j.versionId), ("status", .text j.status.name),
    ("attempts", .ofNat (wrapU32 j.attempts)), ("last_error", .ofText? j.lastError),
    ("scheduled_at", .ofInt j.scheduledAt), ("claimed_at", .ofOption .ofInt j.claimedAt),
    ("created_at", .ofInt j.createdAt)]

def JobCounts.toValue (c : JobCounts) : Value :=
  .ofMembers [("pending", .ofNat c.pending), ("processing", .ofNat c.processing),
    ("completed", .ofNat c.completed), ("failed", .ofNat c.failed), ("total", .ofNat c.total),
    ("active", .ofNat c.active)]

def Ending.name : Ending → String
  | .done => "done"
  | .error => "error"

def Progress.toValue (p : Progress) : Value :=
  .ofMembers [("total", .ofNat p.total), ("processed", .ofNat p.processed),
    ("failed", .ofNat p.failed), ("percent", .ofNat p.percent),
    ("outcome", .ofOption (fun e => .text e.name) p.ending)]

def ActionReport.toValue (r : ActionReport) : Value := writtenValue r.toTree

def Action.toValue (a : Action) : Value :=
  .ofMembers [("id", .text a.id), ("workspace_id", .text a.workspaceId),
    ("base_id", .text a.baseId), ("status", .text a.status.name),
    ("stage", .text a.stage.name), ("display_text", .text a.displayText),
    ("payload", a.report.toValue), ("created_at", .ofInt a.createdAt),
    ("processing_since", .ofInt a.processingSince), ("updated_at", .ofInt a.updatedAt),
    ("row_version", .ofNat a.rowVersion)]

def Revision.toValue (r : Revision) : Value :=
  .ofMembers [("id", .text r.id), ("workspace_id", .text r.workspaceId),
    ("document_id", .text r.documentId), ("version_id", .text r.versionId),
    ("policy_hash", .text r.policyDigest), ("status", .text r.status.name),
    ("chunk_set_id", .ofText? r.chunkSetId), ("chunk_count", .ofInt r.chunkCount),
    ("total_tokens", .ofInt r.totalTokens), ("total_chars", .ofInt r.totalChars),
    ("started_at", .ofInt r.startedAt), ("finished_at", .ofOption .ofInt r.finishedAt),
    ("revision_error", .ofText? r.reason)]

def Document.toValue (d : Document) : Value :=
  .ofMembers [("id", .text d.id), ("workspace_id", .text d.workspaceId),
    ("base_id", .text d.baseId), ("body", .text d.body), ("version_id", .text d.versionId),
    ("current_revision_id", .ofText? d.currentRevisionId),
    ("current_chunk_set_id", .ofText? d.currentChunkSetId),
    ("indexed_version_id", .ofText? d.indexedVersionId),
    ("index_status", .text d.indexStatus.name), ("index_error", .ofText? d.indexError),
    ("updated_at", .ofInt d.updatedAt)]

namespace Outcome

/-- The name of an outcome and what belongs to it. -/
def members : Outcome → List (String × Value)
  | .completed revision previous chunks cleaned =>
    [("outcome", .text "completed"), ("revision_id", .text revision),
      ("previous_revision_id", .ofText? previous), ("chunk_count", .ofNat chunks),
      ("cleaned", .ofOption .ofNat cleaned)]
  | .lockBusy moment => [("outcome", .text "lock_busy"), ("retry_at", .ofInt moment)]
  | .paused moment => [("outcome", .text "paused"), ("retry_at", .ofInt moment)]
  | .retrying attempts moment =>
    [("outcome", .text "retrying"), ("attempts", .ofNat attempts), ("retry_at", .ofInt moment)]
  | .failed reason => [("outcome", .text "failed"), ("failure", .text reason)]

def toValue (o : Outcome) : Value := .ofMembers (o.members ++ [("handled", .bool o.isHandled)])

end Outcome

def SweepReport.toValue (r : SweepReport) : Value :=
  .ofMembers [("documents", .ofNat r.documents), ("deleted", .ofNat r.deleted),
    ("failures", .ofNat r.failures)]

end IndexingPipeline
