import IndexingPipeline.World

/-!
# The orphan sweep

Points of a revision that never became current, or no longer is, are orphans. The sweep goes
through all documents that have a current revision and deletes their points of every other one.
A document whose points could not be deleted is counted and passed over.
-/

namespace IndexingPipeline

structure SweepReport where
  documents : Nat
  deleted : Nat
  failures : Nat
  deriving DecidableEq, Repr, Inhabited

namespace World

/-- Delete a document's points of every revision but its current one. -/
def sweepDocument (s : Setup) (report : SweepReport) (w : World) (d : Document) :
    SweepReport × World :=
  match d.currentRevisionId with
  | none => (report, w)
  | some revision =>
    let report := { report with documents := report.documents + 1 }
    match w.deletePoints s (collectionName s.config.store.collectionStem d.workspaceId)
        (.superseded d.workspaceId d.id revision) with
    | (.ok n, w) => ({ report with deleted := wrapU64 (report.deleted + n) }, w)
    | (.error _, w) => ({ report with failures := report.failures + 1 }, w)

def sweepAll (s : Setup) (report : SweepReport) (w : World) :
    List Document → SweepReport × World
  | [] => (report, w)
  | d :: rest =>
    let (report, w) := w.sweepDocument s report d
    sweepAll s report w rest

/-- Sweep every document that has a current revision now. -/
def sweep (s : Setup) (w : World) : SweepReport × World :=
  w.sweepAll s ⟨0, 0, 0⟩ w.db.documents.indexed

end World

end IndexingPipeline
