import IndexingPipeline.Config.Basic

/-!
# The usage gate

Before a document is embedded the gate is asked whether it may be. Without a limit, and
whenever the gate is switched off, it may.
-/

namespace IndexingPipeline

inductive UsageDecision where
  | allowed
  | denied (code message : String)
  deriving DecidableEq, Repr

/-- The gate's answer for a document that makes that many chunks. -/
def UsageSettings.decide (usage : UsageSettings) (documentId : String) (chunks : Nat) :
    UsageDecision :=
  match usage.maxChunksPerDocument with
  | some limit =>
    if usage.enabled && limit < chunks then
      .denied "chunk_budget_exceeded"
        ("document " ++ documentId ++ " needs " ++ toString chunks ++
          " embeddings, limit is " ++ toString limit)
    else .allowed
  | none => .allowed

end IndexingPipeline
