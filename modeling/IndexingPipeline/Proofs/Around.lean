import IndexingPipeline.Proofs.Drafts
import IndexingPipeline.Worker

/-!
# What is done around runs

Between the moves of runs a worker looks after what dead ones have left behind and claims the
next job, and operators write documents, control actions and mark revisions as failed. All of it
keeps a world sound, ends revisions at most, points no document anywhere else and leaves the
chunk sets alone.
-/

namespace IndexingPipeline

open Identifier (Ahead)

namespace World

theorem initial_sound (now : Int) (env : Environment) (peer : Peer) :
    (World.initial now env peer).Sound where
  jobs_once := List.nodup_nil
  jobs := fun _ member => absurd member List.not_mem_nil
  revisions := fun _ member => absurd member List.not_mem_nil
  standings := fun _ member => absurd member List.not_mem_nil
  locks := fun _ member => absurd member List.not_mem_nil

/-- What may have become of a world around the moves of runs. -/
structure Around (w w' : World) : Prop where
  sound : w.Sound → w'.Sound
  drawn : w.drawn ≤ w'.drawn
  revisions : ∀ id a, w.db.revisions.revision? id = some a →
    ∃ b, w'.db.revisions.revision? id = some b ∧ a.EndsAs b
  standings : Grown w.db.documents.standings w'.db.documents.standings
  chunkSets : w'.db.chunkSets = w.db.chunkSets

namespace Around

variable {w w' : World}

theorem refl (w : World) : Around w w where
  sound := id
  drawn := Nat.le_refl _
  revisions := fun _ a found => ⟨a, found, .refl a⟩
  standings := .refl _
  chunkSets := rfl

theorem trans {a b c : World} (ab : Around a b) (bc : Around b c) : Around a c where
  sound := fun sound => bc.sound (ab.sound sound)
  drawn := Nat.le_trans ab.drawn bc.drawn
  revisions := by
    intro id x found
    obtain ⟨y, found, first⟩ := ab.revisions id x found
    obtain ⟨z, found, second⟩ := bc.revisions id y found
    exact ⟨z, found, first.trans second⟩
  standings := ab.standings.trans bc.standings
  chunkSets := bc.chunkSets.trans ab.chunkSets

theorem of_meanwhile (h : Meanwhile w w') : Around w w' where
  sound := h.sound
  drawn := h.drawn
  revisions := fun _ a found => ⟨a, h.revisions.symm ▸ found, .refl a⟩
  standings := h.standings
  chunkSets := h.chunkSets

theorem spares (h : Around w w') (id : String) : w.Spares id w' where
  row := h.revisions id
  unpointed := fun none_points x member points =>
    none_points x ((h.standings.mem_iff (by simp [points])).mp member) points

end Around

variable (w : World)

theorem onJobs_around {f : Queue → Queue} (same : (f w.db.jobs).ids = w.db.jobs.ids) :
    Around w (w.onJobs f) :=
  { Around.refl w with sound := fun h => h.onJobs same }

theorem onRevisions_around {hit : Revision → Bool} {now : Int} {reason : String}
    (processing : ∀ r, hit r = true → r.status = .processing) :
    Around w (w.onRevisions (·.map fun r => if hit r then r.failed now reason else r)) := by
  have ends : ∀ r : Revision, r.EndsAs (if hit r then r.failed now reason else r) := by
    intro r
    split
    · exact Revision.endsAs_failed (processing r ‹_›) now reason
    · exact .refl r
  exact { Around.refl w with
    sound := fun h => h.onRevisions fun r => (ends r).id
    revisions := fun _ _ found => Revisions.endsAs_map ends found }

theorem markFailed_around (now : Int) (id reason : String) :
    Around w (w.onRevisions fun rs => (rs.markFailed w.db.documents now id reason).2) := by
  refine w.onRevisions_around ?_
  intro r hit
  simp only [Revisions.isOpen, Bool.and_eq_true, decide_eq_true_eq] at hit
  exact hit.2.1

theorem failAbandoned_around (now olderThan : Int) :
    Around w (w.onRevisions fun rs => (rs.failAbandoned w.db.documents now olderThan).2) := by
  refine w.onRevisions_around ?_
  intro r hit
  simp only [Revisions.isOpen, Bool.and_eq_true, decide_eq_true_eq] at hit
  exact hit.2.1

theorem onActions_around (f : Actions → Actions) : Around w (w.onActions f) :=
  .of_meanwhile (.of_same (Nat.le_refl _) rfl rfl rfl rfl rfl rfl)

theorem recover_around (settings : WorkerSettings) :
    Around w (w.onJobs fun q => (q.recover settings w.now).2) :=
  w.onJobs_around (w.db.jobs.ids_recover settings w.now)

theorem housekeeping_around (cfg : Config) : Around w (w.housekeeping cfg) :=
  ((w.recover_around cfg.worker).trans
    (failAbandoned_around _ w.now (before w.now cfg.worker.lockTtlSeconds))).trans
    (onActions_around _ fun as =>
      (as.expire cfg.actions (w.db.jobs.recover cfg.worker w.now).2 w.now).2)

theorem outside_around (elsewhere : World) :
    Around w { elsewhere with drawn := w.drawn, db := w.db } :=
  { Around.refl w with sound := fun h => h.of_db (Nat.le_refl _) rfl }

theorem claim_around : Around w w.claim.2 := by
  have same : w.claim.2 = w.onJobs fun q => (q.claim w.now).2 := rfl
  rw [same]
  exact w.onJobs_around (w.db.jobs.ids_claim w.now)

/-- A job that is claimed is there, and under way. -/
theorem claim_claimed (h : w.Sound) {job : Job} (claimed : w.claim.1 = some job) :
    w.claim.2.db.jobs.job? job.id = some job ∧ job.status = .processing :=
  Queue.job?_claim h.jobs_once claimed

end World

end IndexingPipeline
