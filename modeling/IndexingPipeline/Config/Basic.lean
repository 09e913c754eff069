import IndexingPipeline.Text.Blank

/-!
# Configuration

What an operator decides: where the data is kept, how patient the workers are, which policy
documents are indexed under, which providers turn text into vectors and how they are asked, and
where the vectors go. Durations keep the unit of their name. `Config.check` refuses the
combinations under which a run could not keep its promises.
-/

namespace IndexingPipeline

/-- One named member of a point's payload, rendered from a template. -/
structure SchemaField where
  name : String
  template : String
  deriving DecidableEq, Repr, Inhabited

inductive ProviderKind where
  | openai
  | gigachat
  | ollama
  deriving DecidableEq, Repr, Inhabited

def ProviderKind.name : ProviderKind → String
  | .openai => "openai"
  | .gigachat => "gigachat"
  | .ollama => "ollama"

def ProviderKind.ofName? : String → Option ProviderKind
  | "openai" => some .openai
  | "gigachat" => some .gigachat
  | "ollama" => some .ollama
  | _ => none

/-- How a provider wants to be authorised: not at all, by a key from the environment, or by a
token that an endpoint gives for credentials from the environment. -/
inductive Auth where
  | none
  | key (envName : String)
  | token (url : String) (envName : String) (scope : Option String)
  deriving DecidableEq, Repr, Inhabited

structure Provider where
  id : String
  kind : ProviderKind
  url : String
  model : String
  dims : Option Nat := Option.none
  active : Bool := true
  timeoutSeconds : Nat := 30
  auth : Auth := .none
  deriving DecidableEq, Repr, Inhabited

structure WorkerSettings where
  pollIntervalMs : Nat := 5000
  maxAttempts : Nat := 5
  backoffBaseMs : Nat := 5000
  backoffMaxMs : Nat := 300000
  lockRetryDelayMs : Nat := 3000
  pauseRecheckMs : Nat := 10000
  lockTtlSeconds : Nat := 1800
  visibilityTimeoutSeconds : Nat := 1800
  deriving DecidableEq, Repr, Inhabited

/-- The policy of every run that does not ask for something else. -/
structure PolicySettings where
  providerId : String
  model : Option String := none
  chunkSize : Nat := 1200
  chunkOverlap : Nat := 200
  schemaFields : List SchemaField := []
  deriving DecidableEq, Repr, Inhabited

structure StoreSettings where
  url : String
  keyEnvName : Option String := none
  collectionStem : String := "kb"
  timeoutSeconds : Nat := 30
  deriving DecidableEq, Repr, Inhabited

structure ActionSettings where
  timeoutSeconds : Nat := 3600
  maxEvents : Nat := 50
  maxFailedListed : Nat := 10
  deriving DecidableEq, Repr, Inhabited

structure UsageSettings where
  enabled : Bool := false
  maxChunksPerDocument : Option Nat := none
  deriving DecidableEq, Repr, Inhabited

structure Config where
  dataPath : String
  worker : WorkerSettings := {}
  policy : PolicySettings
  bases : List (String × List SchemaField) := []
  providers : List Provider := []
  store : StoreSettings
  actions : ActionSettings := {}
  usage : UsageSettings := {}
  deriving DecidableEq, Repr, Inhabited

/-- The environment variables that a configuration mentions. -/
def Config.environmentNames (cfg : Config) : List String :=
  cfg.store.keyEnvName.toList ++ cfg.providers.filterMap fun p =>
    match p.auth with
    | .none => none
    | .key name => some name
    | .token _ name _ => some name

inductive ConfigError where
  | unreadable
  | chunkSizeZero
  | overlapTooLarge
  | noAttempts
  | backoffReversed
  | lockTooShort
  | repeatedProvider (id : String)
  | dimsZero (id : String)
  | unnamedField
  deriving DecidableEq, Repr

def ConfigError.message : ConfigError → String
  | .unreadable => "Failed to parse config file"
  | .chunkSizeZero => "policy.chunk_size must be > 0"
  | .overlapTooLarge => "policy.chunk_overlap must be smaller than policy.chunk_size"
  | .noAttempts => "worker.max_attempts must be >= 1"
  | .backoffReversed => "worker.backoff_base_ms must not exceed worker.backoff_max_ms"
  | .lockTooShort => "worker.lock_ttl_secs must be >= worker.visibility_timeout_secs"
  | .repeatedProvider id => "Duplicate provider id: '" ++ id ++ "'"
  | .dimsZero id => "providers." ++ id ++ ".dims must be > 0"
  | .unnamedField => "schema field names must not be empty"

namespace Config

/-- The first provider of that id. -/
def provider? (cfg : Config) (id : String) : Option Provider :=
  cfg.providers.find? (·.id = id)

/-- The fields of a knowledge base: its own when it names any, else those of the policy. -/
def schemaFor (cfg : Config) (base : String) : List SchemaField :=
  match cfg.bases.lookup base with
  | some (f :: fs) => f :: fs
  | _ => cfg.policy.schemaFields

/-- The first provider that repeats an id or has no dimension. -/
def checkProviders (seen : List String) : List Provider → Except ConfigError Unit
  | [] => .ok ()
  | p :: rest =>
    if p.id ∈ seen then .error (.repeatedProvider p.id)
    else if p.dims = some 0 then .error (.dimsZero p.id)
    else checkProviders (p.id :: seen) rest

/-- The rules that tie settings to each other, in the order in which they are reported. -/
def check (cfg : Config) : Except ConfigError Unit :=
  if cfg.policy.chunkSize = 0 then .error .chunkSizeZero
  else if cfg.policy.chunkSize ≤ cfg.policy.chunkOverlap then .error .overlapTooLarge
  else if cfg.worker.maxAttempts = 0 then .error .noAttempts
  else if cfg.worker.backoffMaxMs < cfg.worker.backoffBaseMs then .error .backoffReversed
  else if cfg.worker.lockTtlSeconds < cfg.worker.visibilityTimeoutSeconds then
    .error .lockTooShort
  else
    match checkProviders [] cfg.providers with
    | .error e => .error e
    | .ok () =>
      let fields := cfg.policy.schemaFields ++ cfg.bases.flatMap (·.2)
      if fields.any (Text.isAllBlank ·.name) then .error .unnamedField else .ok ()

end Config

end IndexingPipeline
