import IndexingPipeline.Proofs.Course
import IndexingPipeline.Proofs.Incidents

/-!
# The rows of jobs

A run reports on its own job alone. All other rows stay as they are, but that asking for a version
points a job that waits at it, or adds one. So whatever else is done, a job that waits keeps its
time and its attempts, and one that has ended stays as it is.
-/

namespace IndexingPipeline

/-- What asking for versions makes of the row of one identifier. -/
inductive Job.Repointed : Option Job → Option Job → Prop
  | absent : Repointed none none
  | added (j : Job) : j.status = .pending → Repointed none (some j)
  | kept (j : Job) (version : String) (moment : Int) :
      Repointed (some j) (some { j with versionId := version, updatedAt := moment })

namespace Job.Repointed

theorem refl (row : Option Job) : Repointed row row := by
  cases row with
  | none => exact .absent
  | some j => exact .kept j j.versionId j.updatedAt

theorem of_eq {a b : Option Job} (same : b = a) : Repointed a b := same ▸ refl a

theorem trans {a b c : Option Job} (ab : Repointed a b) (bc : Repointed b c) : Repointed a c := by
  cases ab with
  | absent => exact bc
  | added j waits =>
    cases bc with
    | kept _ version moment => exact .added _ waits
  | kept j version moment =>
    cases bc with
    | kept _ version moment => exact .kept j version moment

end Job.Repointed

open Job (Repointed)

namespace Queue

theorem enqueue_repoints (q : Queue) (now : Int)
    (newId workspace base document version id : String) :
    Repointed (q.job? id) ((q.enqueue now newId workspace base document version).2.job? id) := by
  rcases q.enqueue_cases now newId workspace base document version with
    ⟨k, _, pointed⟩ | ⟨_, added⟩
  · rw [pointed, job?_updated q k.id id (Job.pointedAt_id version now)]
    split
    · rename_i here
      rw [here]
      cases q.job? k.id with
      | none => exact .absent
      | some j => exact .kept j version now
    · exact .refl _
  · rw [added, job?_added]
    cases q.job? id with
    | some j => exact .refl _
    | none =>
      rw [Option.none_or]
      split
      · exact .added _ rfl
      · exact .absent

end Queue

namespace World

variable {s : Setup} {w : World}

theorem interfere_repoints (cfg : Config) (w : World) (i : Interference) (id : String) :
    Repointed (w.db.jobs.job? id) ((w.interfere cfg i).db.jobs.job? id) := by
  cases i with
  | submit workspace base document version body =>
    exact w.db.jobs.enqueue_repoints w.now (Identifier.ofNat w.drawn) workspace base document
      version id
  | advance | control | lock => exact .refl _

theorem embed_repoints (s : Setup) (w : World) (p : Provider) (token : Option String)
    (text id : String) :
    Repointed (w.db.jobs.job? id) ((w.embed s p token text).2.db.jobs.job? id) :=
  embed_preserves (I := fun v => Repointed (w.db.jobs.job? id) (v.db.jobs.job? id)) s w p token text
    (fun _ => .refl _) (.refl _)
    fun v i _ before => before.trans (interfere_repoints s.config v i id)

end World

namespace Run

variable {s : Setup} {r r' : Run} {w w' : World}

/-- A move leaves the row of a job as it is, or it reports on its own. -/
theorem Move.row_moves (m : Move s r w r' w') (id : String) :
    Repointed (w.db.jobs.job? id) (w'.db.jobs.job? id) ∨
    id = r.job.id ∧ ∃ v : Verdict, w'.db.jobs.job? id =
      (w.db.jobs.job? id).map (v.row s.config.worker w.now r.job) := by
  rcases m.jobs_moves with ⟨v, reported⟩ | ⟨p, token, text, beside⟩ | same
  · rw [reported, v.write_eq, Queue.job?_updated _ _ _ (v.row_id s.config.worker w.now r.job)]
    split
    · subst id
      exact .inr ⟨rfl, v, rfl⟩
    · exact .inl (.refl _)
  · rw [beside]
    exact .inl (w.embed_repoints s p token text id)
  · rw [same]
    exact .inl (.refl _)

/-- A move does to the row of another job what asking for versions does. -/
theorem Move.repoints (m : Move s r w r' w') {id : String} (other : id ≠ r.job.id) :
    Repointed (w.db.jobs.job? id) (w'.db.jobs.job? id) :=
  (m.row_moves id).resolve_right fun own => other own.1

end Run

namespace Queue

theorem tended_of_calm {settings : WorkerSettings} {now : Int} {j : Job}
    (calm : j.status ≠ .processing) : tended settings now j = j := by
  rw [tended, if_neg]
  exact fun stale => calm (processing_of_isStale stale)

theorem claim_due {q : Queue} {now : Int} {job : Job} (once : q.ids.Nodup)
    (claimed : (q.claim now).1 = some job) :
    ∃ j, q.job? job.id = some j ∧ j.status = .pending ∧ j.scheduledAt ≤ now ∧
      job = j.taken now ∧ (q.claim now).2 = q.update job.id (Job.taken now) := by
  rcases q.claim_cases now with nothing | ⟨j, member, waits, due, taken⟩
  · rw [nothing] at claimed
    cases claimed
  · rw [taken] at claimed ⊢
    obtain rfl := Option.some.inj claimed
    exact ⟨j, job?_of_mem once member, waits, due, rfl, rfl⟩

end Queue

namespace World

variable {s : Setup} {w : World} {id : String}

theorem housekeeping_row (cfg : Config) (w : World) (id : String) :
    (w.housekeeping cfg).db.jobs.job? id =
      (w.db.jobs.job? id).map (Queue.tended cfg.worker w.now) :=
  Queue.job?_map (Queue.tended_id cfg.worker w.now) id

theorem claim_row (sound : w.Sound) (other : ∀ job, w.claim.1 = some job → id ≠ job.id) :
    w.claim.2.db.jobs.job? id = w.db.jobs.job? id := by
  cases claimed : w.claim.1 with
  | none => rw [claim_none claimed]
  | some job =>
    obtain ⟨_, _, _, _, _, jobs⟩ := Queue.claim_due sound.jobs_once claimed
    change (w.db.jobs.claim w.now).2.job? id = _
    rw [jobs, Queue.job?_update_ne (Job.taken_id w.now) (other job claimed)]

/-- What a poll does to the row of a job that it does not claim, and a worker that dies in the midst
of it. -/
theorem attend_repoints (sound : w.Sound)
    (other : ∀ job, (w.housekeeping s.config).claim.1 = some job → id ≠ job.id) :
    Repointed ((w.db.jobs.job? id).map (Queue.tended s.config.worker w.now))
        ((w.poll s).2.db.jobs.job? id) ∧
      ∀ n, Repointed ((w.db.jobs.job? id).map (Queue.tended s.config.worker w.now))
        ((w.incur s (.death n)).db.jobs.job? id) := by
  have kept := (w.housekeeping_around s.config).sound sound
  have row := (claim_row kept other).trans (w.housekeeping_row s.config id)
  let before : Repointed _ ((w.housekeeping s.config).claim.2.db.jobs.job? id) := .of_eq row
  exact attend_keeps (s := s) (w := w)
    (I := fun r v => id ≠ r.job.id ∧
      Repointed ((w.db.jobs.job? id).map (Queue.tended s.config.worker w.now))
        (v.db.jobs.job? id))
    (J := fun v => Repointed ((w.db.jobs.job? id).map (Queue.tended s.config.worker w.now))
      (v.db.jobs.job? id))
    before (fun job claimed => ⟨other job claimed, before⟩)
    (fun _ _ _ _ h m => ⟨m.same_job ▸ h.1, h.2.trans (m.repoints h.1)⟩) (fun _ _ h => h.2)

end World

end IndexingPipeline
