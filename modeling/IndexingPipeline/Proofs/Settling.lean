import IndexingPipeline.Proofs.Incidents
import IndexingPipeline.Proofs.Lifecycle
import IndexingPipeline.Proofs.Outcome

/-!
# How a failure is settled

A run that has an error to settle reports on its job what the error demands, and ends with the
outcome that says so. Nothing on the way there changes either, so both are told by the error, the
row that was claimed and the moment of the report.
-/

namespace IndexingPipeline

namespace JobError

def verdict (e : JobError) : Verdict :=
  if e.isRetryable then .retry e.message else .failed e.message

def outcome (settings : WorkerSettings) (now : Int) (job : Job) (e : JobError) : Outcome :=
  let counted := wrapU32 (job.attempts + 1)
  if e.isRetryable then
    if settings.maxAttempts ≤ counted then .failed (givingUp counted e.message)
    else .retrying counted (after now (settings.backoff counted))
  else .failed e.message

end JobError

namespace Stage

def error? : Stage → Option JobError
  | .failing _ e => some e
  | .settling e => some e
  | _ => none

/-- The outcome that a run leads to once it has reported on its job. -/
def outcome? : Stage → Option Outcome
  | .marking reason => some (.failed reason)
  | .noting reason => some (.failed reason)
  | .refreshing outcome => some outcome
  | .releasing outcome => some outcome
  | .finished outcome => some outcome
  | _ => none

theorem error?_of_isOver {stage : Stage} (ended : stage.isOver = true) : stage.error? = none := by
  cases stage <;> first | rfl | cases ended

theorem finished_of_outcome? {stage : Stage} {outcome : Outcome} (ended : stage.isOver = true)
    (leads : stage.outcome? = some outcome) : stage = .finished outcome := by
  cases stage with
  | finished => exact congrArg _ (Option.some.inj leads)
  | crashed => cases leads
  | _ => cases ended

end Stage

namespace Run

variable {s : Setup} {job : Job} {e : JobError} {moment : Int} {w w' : World} {r r' : Run}

theorem complete_steps (s : Setup) (n : Nat) (r : Run) (w : World) :
    complete s (steps s n r w).1 (steps s n r w).2 = complete s r w := by
  induction n generalizing r w with
  | zero => rfl
  | succ n ih =>
    rw [steps, ih]
    by_cases ended : r.stage.isOver = true
    · rw [step_over s r w ended]
    · symm
      rw [complete, dif_neg ended]

/-- The outcome that a run leads to does not change any more. -/
theorem Move.outcome?_kept {outcome : Outcome} (m : Move s r w r' w')
    (leads : r.stage.outcome? = some outcome) : r'.stage.outcome? = some outcome := by
  cases m with
  | @refreshed _ holder => cases holder <;> exact leads
  | marked | unnoted | noted | released | unlocked => exact leads
  | _ => cases leads

theorem complete_outcome? {outcome : Outcome} (leads : r.stage.outcome? = some outcome) :
    (complete s r w).1.stage = .finished outcome :=
  Stage.finished_of_outcome? (complete_isOver s r w)
    (complete_keeps (I := fun r _ => r.stage.outcome? = some outcome)
      (fun _ _ _ _ leads m => m.outcome?_kept leads) r w leads)

/-- A run that has an error to settle, or has settled it. -/
structure Settles (s : Setup) (job : Job) (e : JobError) (moment : Int) (r : Run) (w : World) :
    Prop where
  same_job : r.job = job
  now : w.now = moment
  row : r.stage.error? = some e ∧ w.db.jobs.job? job.id = some job ∨
    r.stage.outcome? = some (e.outcome s.config.worker moment job) ∧
      w.db.jobs.job? job.id = some (e.verdict.row s.config.worker moment job job)

namespace Settles

theorem row_written (settings : WorkerSettings) (moment : Int) (e : JobError) {q : Queue}
    (row : q.job? job.id = some job) :
    (e.verdict.write settings moment job q).job? job.id =
      some (e.verdict.row settings moment job job) := by
  rw [Verdict.write_eq, Queue.job?_update (Verdict.row_id _ _ _ · _), row]
  rfl

theorem outcome_retried {q jobs : Queue} {attempts : Nat} {later : Int}
    (retryable : e.isRetryable = true)
    (retry : q.retry s.config.worker moment job e.message = (.rescheduled attempts later, jobs)) :
    e.outcome s.config.worker moment job = .retrying attempts later := by
  unfold Queue.retry at retry
  unfold JobError.outcome
  simp only [retryable, if_true] at retry ⊢
  split at retry
  · cases retry
  · cases retry
    rw [if_neg ‹_›]

theorem outcome_exhausted {q jobs : Queue} {attempts : Nat} (retryable : e.isRetryable = true)
    (retry : q.retry s.config.worker moment job e.message = (.failed attempts, jobs)) :
    e.outcome s.config.worker moment job = .failed (givingUp attempts e.message) := by
  unfold Queue.retry at retry
  unfold JobError.outcome
  simp only [retryable, if_true] at retry ⊢
  split at retry
  · cases retry
    rw [if_pos ‹_›]
  · cases retry

theorem move (h : Settles s job e moment r w) (m : Move s r w r' w') :
    Settles s job e moment r' w' where
  same_job := m.same_job.trans h.same_job
  now := by
    have now := h.now
    rcases h.row with ⟨stage, _⟩ | ⟨stage, _⟩
    · cases m <;> first | exact now | cases stage
    · cases m <;> first | exact now | cases stage
  row := by
    obtain ⟨rfl, rfl, row⟩ := h
    rcases row with ⟨stage, row⟩ | ⟨stage, row⟩
    · have verdict : ∀ {jobs}, e.isRetryable = true →
          (w.db.jobs.retry s.config.worker w.now r.job e.message).2 = jobs →
          jobs.job? r.job.id = some (e.verdict.row s.config.worker w.now r.job r.job) := by
        rintro _ retryable rfl
        have written := row_written s.config.worker w.now e row
        rwa [JobError.verdict, if_pos retryable] at written ⊢
      cases m with
      | unopened | failed =>
        cases stage
        exact .inl ⟨rfl, row⟩
      | retried _ _ _ jobs retryable retry =>
        cases stage
        refine .inr ⟨?_, verdict retryable (congrArg Prod.snd retry)⟩
        rw [outcome_retried retryable retry]
        rfl
      | exhausted _ _ jobs retryable retry =>
        cases stage
        refine .inr ⟨?_, verdict retryable (congrArg Prod.snd retry)⟩
        rw [outcome_exhausted retryable retry]
        rfl
      | final _ final =>
        cases stage
        have written := row_written s.config.worker w.now e row
        have unretryable : ¬ e.isRetryable = true := Bool.eq_false_iff.mp final
        rw [JobError.verdict, if_neg unretryable] at written
        refine .inr ⟨?_, ?_⟩
        · rw [JobError.outcome, if_neg unretryable]
          rfl
        · rw [JobError.verdict, if_neg unretryable]
          exact written
      | _ => cases stage
    · refine .inr ⟨m.outcome?_kept stage, ?_⟩
      cases m with
      | marked | unnoted | noted | refreshed | released | unlocked => exact row
      | _ => cases stage

/-- A run that has an error to settle ends with the outcome that it demands, and so does the row of
its job. -/
theorem complete (h : Settles s job e moment r w) :
    (complete s r w).1.stage = .finished (e.outcome s.config.worker (complete s r w).2.now job) ∧
    (complete s r w).2.db.jobs.job? job.id =
      some (e.verdict.row s.config.worker (complete s r w).2.now job job) := by
  have done := complete_keeps (fun _ _ _ _ h m => Settles.move h m) _ _ h
  have ended := complete_isOver s r w
  obtain ⟨_, rfl, row⟩ := done
  rcases row with ⟨stage, _⟩ | ⟨stage, row⟩
  · rw [Stage.error?_of_isOver ended] at stage
    cases stage
  · exact ⟨Stage.finished_of_outcome? ended stage, row⟩

end Settles

/-- The run of a claimed job is abreast of its stage after every step. -/
theorem abreast_steps (s : Setup) (n : Nat) (sound : w.Sound)
    (claimed : w.db.jobs.job? job.id = some job) (taken : job.status = .processing) :
    Abreast s job w (steps s n (.start job) w).1 (steps s n (.start job) w).2 :=
  steps_keeps (fun _ _ _ _ h m => h.move m (by simp [taken])) n (.start s sound claimed)

/-- Whenever a run has an error to settle, its job is still as it was claimed. -/
theorem Abreast.settles {w₀ : World} (h : Abreast s job w₀ r w) (stage : r.stage.error? = some e) :
    Settles s job e w.now r w where
  same_job := h.same_job
  now := rfl
  row := by
    refine .inl ⟨stage, h.row ?_⟩
    generalize r.stage = failed at *
    cases failed <;> first | rfl | cases stage

end Run

end IndexingPipeline
