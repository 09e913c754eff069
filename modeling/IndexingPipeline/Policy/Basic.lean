import IndexingPipeline.Config.Basic
import IndexingPipeline.Chunk.Split
import IndexingPipeline.Json.Tree
import IndexingPipeline.Digest.Sha256

/-!
# The policy of a run

A run works under the configured policy, with the parts that its settings ask for put in their
place and the fields of the knowledge base. The digest of the policy's written form stands on
every revision; `Policy.toTree` fixes that form.
-/

namespace IndexingPipeline

/-- What one run asks for instead of the configured policy. -/
structure RunSettings where
  providerId : Option String := none
  model : Option String := none
  chunkSize : Option Nat := none
  chunkOverlap : Option Nat := none
  deriving DecidableEq, Repr, Inhabited

structure Policy where
  providerId : String
  model : Option String
  chunkSize : Nat
  chunkOverlap : Nat
  fields : List SchemaField
  deriving DecidableEq, Repr, Inhabited

inductive PolicyError where
  | chunkSizeZero
  | overlapTooLarge (overlap size : Nat)
  deriving DecidableEq, Repr

def PolicyError.message : PolicyError → String
  | .chunkSizeZero => "chunk_size must be > 0"
  | .overlapTooLarge overlap size =>
    "chunk_overlap (" ++ toString overlap ++ ") must be smaller than chunk_size (" ++
      toString size ++ ")"

namespace Policy

/-- The configured policy with the run's settings in front of it. -/
def merged (cfg : Config) (base : String) (run : RunSettings) : Policy :=
  { providerId := run.providerId.getD cfg.policy.providerId
    model := run.model.or cfg.policy.model
    chunkSize := run.chunkSize.getD cfg.policy.chunkSize
    chunkOverlap := run.chunkOverlap.getD cfg.policy.chunkOverlap
    fields := cfg.schemaFor base }

/-- The policy a run works under, unless its sizes contradict each other. -/
def effective (cfg : Config) (base : String) (run : RunSettings) : Except PolicyError Policy :=
  let p := merged cfg base run
  if p.chunkSize = 0 then .error .chunkSizeZero
  else if p.chunkSize ≤ p.chunkOverlap then
    .error (.overlapTooLarge p.chunkOverlap p.chunkSize)
  else .ok p

def window (p : Policy) : Window := ⟨p.chunkSize, p.chunkOverlap⟩

def fieldTree (f : SchemaField) : Json.Tree :=
  .object [Json.member "name" (.ofString f.name), Json.member "template" (.ofString f.template)]

/-- The written form: five members in a fixed order, no model being null. -/
def toTree (p : Policy) : Json.Tree :=
  .object [
    Json.member "provider_id" (.ofString p.providerId),
    Json.member "model" (p.model.elim .null .ofString),
    Json.member "chunk_size" (.ofInt p.chunkSize),
    Json.member "chunk_overlap" (.ofInt p.chunkOverlap),
    Json.member "schema_fields" (.list (p.fields.map fieldTree))]

def digest (p : Policy) : String := Digest.ofText p.toTree.compact

end Policy

end IndexingPipeline
