import IndexingPipeline.Config.Basic
import IndexingPipeline.Toml.Document

/-!
# Reading a configuration

A record is written as a table whose members are found by name, or as a list whose items are
taken in the order of the fields. Members that no field asks for are ignored. Whatever does not
fit makes the whole text unreadable.
-/

namespace IndexingPipeline

open Toml (Value)

inductive Record where
  | named (members : List (String × Value))
  | placed (items : List Value)

namespace Record

/-- A date or time stands where a table may stand, and has none of the names asked for. -/
def of? : Value → Option Record
  | .table members => some (.named members)
  | .list items => some (.placed items)
  | .moment _ => some (.named [])
  | _ => none

/-- The value of a field, by its name or by its place. -/
def get? (r : Record) (place : Nat) (name : String) : Option Value :=
  match r with
  | .named members => members.lookup name
  | .placed items => items[place]?

def need (r : Record) (place : Nat) (name : String) (read : Value → Option α) : Option α :=
  (r.get? place name).bind read

def orElse (r : Record) (place : Nat) (name : String) (read : Value → Option α) (fallback : α) :
    Option α :=
  match r.get? place name with
  | none => some fallback
  | some v => read v

def maybe (r : Record) (place : Nat) (name : String) (read : Value → Option α) :
    Option (Option α) :=
  match r.get? place name with
  | none => some none
  | some v => (read v).map some

end Record

namespace Read

def text : Value → Option String
  | .text s => some s
  | _ => none

def bool : Value → Option Bool
  | .bool b => some b
  | _ => none

def natural : Value → Option Nat
  | .integer n => if 0 ≤ n then some n.toNat else none
  | _ => none

def small (v : Value) : Option Nat := do
  let n ← natural v
  if n < Number.twoTo 32 then some n else none

def listOf (item : Value → Option α) : Value → Option (List α)
  | .list items => items.mapM item
  | _ => none

def schemaField (v : Value) : Option SchemaField := do
  let r ← Record.of? v
  let name ← r.need 0 "name" text
  let template ← r.need 1 "template" text
  return { name, template }

/-- A kind by its name, or as a table with nothing but an empty member of that name. -/
def kind : Value → Option ProviderKind
  | .text s => ProviderKind.ofName? s
  | .table [(name, .table [])] => ProviderKind.ofName? name
  | .table [(name, .list [])] => ProviderKind.ofName? name
  | _ => none

/-- The way of authorisation is told by its member `type`, or by the first item of a list. -/
def auth (v : Value) : Option Auth := do
  let r ← Record.of? v
  let way ← r.need 0 "type" text
  match way with
  | "none" => return .none
  | "static" => return .key (← r.need 1 "api_key_env" text)
  | "oauth" =>
    let url ← r.need 1 "token_url" text
    let envName ← r.need 2 "credentials_env" text
    let scope ← r.maybe 3 "scope" text
    return .token url envName scope
  | _ => none

def provider (v : Value) : Option Provider := do
  let r ← Record.of? v
  let id ← r.need 0 "id" text
  let kind ← r.need 1 "kind" kind
  let url ← r.need 2 "url" text
  let model ← r.need 3 "model" text
  let dims ← r.maybe 4 "dims" natural
  let active ← r.orElse 5 "active" bool true
  let timeoutSeconds ← r.orElse 6 "timeout_secs" natural 30
  let auth ← r.orElse 7 "auth" auth .none
  return { id, kind, url, model, dims, active, timeoutSeconds, auth }

def worker (v : Value) : Option WorkerSettings := do
  let r ← Record.of? v
  let pollIntervalMs ← r.orElse 0 "poll_interval_ms" natural 5000
  let maxAttempts ← r.orElse 1 "max_attempts" small 5
  let backoffBaseMs ← r.orElse 2 "backoff_base_ms" natural 5000
  let backoffMaxMs ← r.orElse 3 "backoff_max_ms" natural 300000
  let lockRetryDelayMs ← r.orElse 4 "lock_retry_delay_ms" natural 3000
  let pauseRecheckMs ← r.orElse 5 "pause_recheck_ms" natural 10000
  let lockTtlSeconds ← r.orElse 6 "lock_ttl_secs" natural 1800
  let visibilityTimeoutSeconds ← r.orElse 7 "visibility_timeout_secs" natural 1800
  return { pollIntervalMs, maxAttempts, backoffBaseMs, backoffMaxMs, lockRetryDelayMs,
           pauseRecheckMs, lockTtlSeconds, visibilityTimeoutSeconds }

def policy (v : Value) : Option PolicySettings := do
  let r ← Record.of? v
  let providerId ← r.need 0 "provider_id" text
  let model ← r.maybe 1 "model" text
  let chunkSize ← r.orElse 2 "chunk_size" natural 1200
  let chunkOverlap ← r.orElse 3 "chunk_overlap" natural 200
  let schemaFields ← r.orElse 4 "schema_fields" (listOf schemaField) []
  return { providerId, model, chunkSize, chunkOverlap, schemaFields }

def base (v : Value) : Option (List SchemaField) := do
  let r ← Record.of? v
  r.orElse 0 "schema_fields" (listOf schemaField) []

def bases : Value → Option (List (String × List SchemaField))
  | .table members => members.mapM fun (name, v) => (base v).map fun fields => (name, fields)
  | _ => none

def store (v : Value) : Option StoreSettings := do
  let r ← Record.of? v
  let url ← r.need 0 "url" text
  let keyEnvName ← r.maybe 1 "api_key_env" text
  let collectionStem ← r.orElse 2 "collection_prefix" text "kb"
  let timeoutSeconds ← r.orElse 3 "timeout_secs" natural 30
  return { url, keyEnvName, collectionStem, timeoutSeconds }

def actions (v : Value) : Option ActionSettings := do
  let r ← Record.of? v
  let timeoutSeconds ← r.orElse 0 "timeout_secs" natural 3600
  let maxEvents ← r.orElse 1 "max_events" natural 50
  let maxFailedListed ← r.orElse 2 "max_failed_listed" natural 10
  return { timeoutSeconds, maxEvents, maxFailedListed }

def usage (v : Value) : Option UsageSettings := do
  let r ← Record.of? v
  let enabled ← r.orElse 0 "enabled" bool false
  let maxChunksPerDocument ← r.maybe 1 "max_chunks_per_document" natural
  return { enabled, maxChunksPerDocument }

def dataPath (v : Value) : Option String := do
  let r ← Record.of? v
  r.need 0 "path" text

def config (members : List (String × Value)) : Option Config := do
  let r := Record.named members
  let dataPath ← r.need 0 "db" dataPath
  let worker ← r.orElse 1 "worker" worker {}
  let policy ← r.need 2 "policy" policy
  let bases ← r.orElse 3 "knowledge_bases" bases []
  let providers ← r.orElse 4 "providers" (listOf provider) []
  let store ← r.need 5 "vector_store" store
  let actions ← r.orElse 6 "actions" actions {}
  let usage ← r.orElse 7 "usage" usage {}
  return { dataPath, worker, policy, bases, providers, store, actions, usage }

end Read

/-- The configuration that a text spells, if it is one and its settings agree. -/
def Config.read (text : String) : Except ConfigError Config :=
  match (Toml.Document.read? text).bind Read.config with
  | none => .error .unreadable
  | some cfg =>
    match cfg.check with
    | .error e => .error e
    | .ok () => .ok cfg

end IndexingPipeline
