import IndexingPipeline.Config.Basic
import IndexingPipeline.Failure
import IndexingPipeline.Point.Basic

/-!
# Embedding

What a provider is asked for, and what is taken out of its answer. The three kinds of providers
word both differently. A component of a vector is the double nearest to the number written,
rounded to single precision.
-/

namespace IndexingPipeline

/-- A vector with what the provider says it cost and calls it. -/
structure Embedding where
  vector : Vector32
  usage : Option Nat
  id : Option String
  deriving DecidableEq, Repr, Inhabited

namespace Embedding

/-- The list item a path of names leads to first. -/
def firstItem? (name : String) (body : Json.Value) : Option Json.Value :=
  ((body.get? name).bind Json.Value.list?).bind (·.head?)

def components : List Json.Value → Except EmbeddingError Vector32
  | [] => .ok []
  | v :: rest =>
    match v.double? with
    | none => .error (.invalidResponse ("non-numeric component: " ++ v.compact))
    | some x => (components rest).map (x.toSingle :: ·)

/-- The vector that a value spells; it has at least one component. -/
def vectorOf (v : Option Json.Value) : Except EmbeddingError Vector32 :=
  match v.bind Json.Value.list? with
  | none => .error (.invalidResponse "embedding is not an array")
  | some items =>
    match components items with
    | .error e => .error e
    | .ok [] => .error .emptyVector
    | .ok vector => .ok vector

def countAt? (path : List String) (body : Json.Value) : Option Nat :=
  (body.at? path).bind Json.Value.natural?

end Embedding

namespace ProviderKind

def request (kind : ProviderKind) (model text : String) (dims : Option Nat) : Json.Value :=
  match kind with
  | .openai =>
    let asked := [("model", Json.Value.text model), ("input", .text text)]
    .ofMembers (match dims with
      | some n => asked ++ [("dimensions", .ofNat n)]
      | none => asked)
  | .gigachat => .ofMembers [("model", .text model), ("input", .list [.text text])]
  | .ollama => .ofMembers [("model", .text model), ("input", .text text)]

def embeddingOf (kind : ProviderKind) (body : Json.Value) : Except EmbeddingError Embedding :=
  match kind with
  | .openai =>
    match Embedding.firstItem? "data" body with
    | none => .error (.invalidResponse "missing data[0]")
    | some item => do
      let vector ← Embedding.vectorOf (item.get? "embedding")
      let usage := ((body.at? ["usage", "total_tokens"]).or
        (body.at? ["usage", "prompt_tokens"])).bind Json.Value.natural?
      return ⟨vector, usage, (body.get? "id").bind Json.Value.text?⟩
  | .gigachat =>
    match Embedding.firstItem? "data" body with
    | none => .error (.invalidResponse "missing data[0]")
    | some item => do
      let vector ← Embedding.vectorOf (item.get? "embedding")
      let usage := Embedding.countAt? ["usage", "prompt_tokens"] item
      return ⟨vector, usage, (Embedding.countAt? ["index"] item).map toString⟩
  | .ollama =>
    match Embedding.firstItem? "embeddings" body with
    | none => .error (.invalidResponse "missing embeddings array")
    | some item => do
      let vector ← Embedding.vectorOf (some item)
      return ⟨vector, Embedding.countAt? ["prompt_eval_count"] body, none⟩

end ProviderKind

end IndexingPipeline
