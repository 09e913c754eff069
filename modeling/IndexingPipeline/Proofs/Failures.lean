import IndexingPipeline.Proofs.Notice
import IndexingPipeline.Proofs.Rows
import IndexingPipeline.Proofs.Switchover

/-!
# Failures and documents

A run that fails its job says so on the document, with the reason that the job has: whatever else
is done in the same poll, a job that came to be failed in it is either one that was run, and its
document says why, or one whose worker is taken to be dead and whose attempts are used up. Looking
after dead workers fails such a job and leaves its document as it was.
-/

namespace IndexingPipeline

open Job (Repointed)

/-- A job whose worker is taken to be dead and whose attempts are used up. -/
def Queue.isGivenUp (settings : WorkerSettings) (now : Int) (j : Job) : Bool :=
  isStale settings now j && settings.maxAttempts ≤ j.attempts + 1

/-- A job that is failed after dead workers were looked after was failed before, or is given up. -/
theorem Queue.failed_of_tended {settings : WorkerSettings} {now : Int} {j : Job}
    (failed : (tended settings now j).status = .failed) :
    j.status = .failed ∨ isGivenUp settings now j = true := by
  rw [tended] at failed
  split at failed
  · rename_i stale
    rcases recovered_cases settings now j with ⟨spent, _⟩ | ⟨_, made⟩
    · exact .inr (Bool.and_eq_true_iff.mpr ⟨stale, decide_eq_true spent⟩)
    · rw [made] at failed
      cases failed
  · exact .inl failed

namespace Run

variable {s : Setup} {job : Job} {w₀ w w' : World} {r r' : Run} {workspace id : String}

/-- What there is of a run's own job: its row is of the document that it was claimed for, and is as
it was claimed when nothing handles what has stopped the run. -/
structure Owns (s : Setup) (job : Job) (w₀ : World) (r : Run) (w : World) : Prop where
  abreast : Abreast s job w₀ r w
  row : ∃ j, w.db.jobs.job? job.id = some j ∧ j.isOf job.workspaceId job.documentId = true
  crashed : r.stage = .crashed → w.db.jobs.job? job.id = some job

theorem Owns.start (sound : w.Sound) (claimed : w.db.jobs.job? job.id = some job) :
    Owns s job w (.start job) w where
  abreast := .start s sound claimed
  row := ⟨job, claimed, Job.isOf_iff.mpr ⟨rfl, rfl⟩⟩
  crashed := fun _ => claimed

theorem Owns.move (h : Owns s job w₀ r w) (claimed : job.status ≠ .pending)
    (m : Move s r w r' w') : Owns s job w₀ r' w' where
  abreast := h.abreast.move m claimed
  row := by
    obtain ⟨j, found, own⟩ := h.row
    rcases m.row_moves job.id with same | ⟨_, v, report⟩
    · rw [found] at same
      cases same' : w'.db.jobs.job? job.id with
      | none => rw [same'] at same; cases same
      | some j' =>
        rw [same'] at same
        cases same
        exact ⟨_, rfl, own⟩
    · rw [report, found]
      exact ⟨_, rfl, ((v.row_same _ _ _ _).isOf _ _).trans own⟩
  crashed := by
    intro crashed
    have row := h.abreast.row
    cases m with
    | stopped => exact row rfl
    | @refreshed _ holder => cases holder <;> cases crashed
    | _ => cases crashed

/-- A run that comes to its end with its job failed has said so on the document. -/
theorem Owns.marked (h : Owns s job w₀ r w) (ended : r.stage.isOver = true)
    (taken : job.status = .processing) {j : Job} (found : w.db.jobs.job? job.id = some j)
    (failed : j.status = .failed) {d : Document}
    (there : w.db.documents.document? j.workspaceId j.documentId = some d) :
    d.indexStatus = .error ∧ d.indexError = j.lastError := by
  obtain ⟨k, row, own⟩ := h.row
  obtain rfl : k = j := Option.some.inj (row.symm.trans found)
  obtain ⟨workspace, document⟩ := Job.isOf_iff.mp own
  have crashed := h.crashed
  have recorded := h.abreast.recorded
  rw [workspace, document] at there
  generalize r.stage = stage at ended crashed recorded
  cases stage with
  | crashed =>
    obtain rfl := Option.some.inj (row.symm.trans (crashed rfl))
    rw [taken] at failed
    cases failed
  | finished outcome =>
    -- only one outcome leaves the job failed
    have status : ∀ {p : Job → Prop}, JobRow w job p → p k := by
      rintro p ⟨j, there, holds⟩
      obtain rfl := Option.some.inj (row.symm.trans there)
      exact holds
    cases outcome with
    | failed reason =>
      obtain ⟨recorded, said⟩ := recorded
      obtain ⟨_, error⟩ := status recorded
      rw [error]
      exact said d there
    | completed =>
      have := (status recorded.1).1
      rw [failed] at this
      cases this
    | retrying =>
      have := (status recorded.1).1
      rw [failed] at this
      cases this
    | lockBusy | paused =>
      have := (status recorded.1).1
      rw [failed] at this
      cases this
  | _ => cases ended

end Run

namespace World

variable {s : Setup} {w : World} {workspace id : String}

/-- A poll leaves alone every document of whose jobs it runs none, unless others write it. -/
theorem poll_document (sound : w.Sound) (unwritten : w.awaitsWrite workspace id = false)
    (elsewhere : ∀ job, (w.housekeeping s.config).claim.1 = some job →
      job.isOf workspace id = false) :
    (w.poll s).2.db.documents.document? workspace id =
      w.db.documents.document? workspace id := by
  have kept := (w.housekeeping_around s.config).sound sound
  rcases w.poll_cases s with ⟨_, idle⟩ | ⟨job, claimed, ran, _⟩
  · rw [idle]
    rfl
  · obtain ⟨row, taken⟩ := claim_claimed _ kept claimed
    have other := elsewhere job claimed
    have done := Run.complete_keeps (s := s)
      (I := fun r v => Run.Abreast s job (w.housekeeping s.config).claim.2 r v ∧
        v.awaitsWrite workspace id = false ∧
        v.docket workspace id = (w.housekeeping s.config).claim.2.docket workspace id)
      (fun _ _ _ _ h m => ⟨h.1.move m (by simp [taken]), m.awaitsWrite h.2.1,
        ((m.docket_grown h.1 (.inl other)).2 h.2.1).trans h.2.2⟩)
      (.start job) _ ⟨.start s ((claim_around _).sound kept) row, unwritten, rfl⟩
    rw [ran]
    exact congrArg Docket.document done.2.2

/-- A job that came to be failed in a poll was given up, or its document says why. -/
theorem poll_failed (sound : w.Sound) {j : Job} (member : j ∈ (w.poll s).2.db.jobs)
    (failed : j.status = .failed) :
    (∃ k, w.db.jobs.job? j.id = some k ∧
      (k.status = .failed ∨ Queue.isGivenUp s.config.worker w.now k = true)) ∨
    ∀ d, (w.poll s).2.db.documents.document? j.workspaceId j.documentId = some d →
      d.indexStatus = .error ∧ d.indexError = j.lastError := by
  have kept := (w.housekeeping_around s.config).sound sound
  have found := Queue.job?_of_mem (sound.incur s (.op .poll)).jobs_once member
  change (w.poll s).2.db.jobs.job? j.id = some j at found
  by_cases own : ∃ job, (w.housekeeping s.config).claim.1 = some job ∧ j.id = job.id
  · right
    obtain ⟨job, claimed, same⟩ := own
    rcases w.poll_cases s with ⟨nothing, _⟩ | ⟨job', claimed', ran, _⟩
    · rw [nothing] at claimed
      cases claimed
    · obtain rfl := Option.some.inj (claimed.symm.trans claimed')
      obtain ⟨row, taken⟩ := claim_claimed _ kept claimed
      have done := Run.complete_keeps (fun _ _ _ _ h m => h.move (by simp [taken]) m) _ _
        (Run.Owns.start (s := s) ((claim_around _).sound kept) row)
      rw [ran] at found ⊢
      intro d there
      rw [same] at found
      exact done.marked (Run.complete_isOver s _ _) taken found failed there
  · left
    have other : ∀ job, (w.housekeeping s.config).claim.1 = some job → j.id ≠ job.id :=
      fun job claimed same => own ⟨job, claimed, same⟩
    have moves := (attend_repoints (s := s) sound other).1
    rw [found] at moves
    generalize row : (w.db.jobs.job? j.id).map (Queue.tended s.config.worker w.now) = before
      at moves
    cases moves with
    | added _ waits =>
      rw [failed] at waits
      cases waits
    | kept k =>
      obtain ⟨before, there, rfl⟩ := Option.map_eq_some_iff.mp row
      exact ⟨before, there, Queue.failed_of_tended failed⟩

end World

/-- Whatever has happened on a database that was empty, runs of other workers included: a job that
comes to be failed in a poll is one that the poll has run, and its document says that it could not
be indexed, for the reason that the job has, unless it is one whose worker is taken to be dead and
whose attempts are used up. A document of whose jobs the poll runs none stays as it is, unless
others write it meanwhile. -/
theorem failure_marked (s : Setup) (now : Int) (env : Environment) (peer : Peer)
    (turns : List Turn) :
    let w := ((Crew.initial now env peer).play turns).world
    let u := (w.poll s).2
    (∀ j ∈ u.db.jobs, j.status = .failed →
      (∀ k, w.db.jobs.job? j.id = some k →
        k.status ≠ .failed ∧ Queue.isGivenUp s.config.worker w.now k = false) →
      ∀ d, u.db.documents.document? j.workspaceId j.documentId = some d →
        d.indexStatus = .error ∧ d.indexError = j.lastError) ∧
    ∀ workspace id, w.awaitsWrite workspace id = false →
      (∀ job, (w.housekeeping s.config).claim.1 = some job →
        job.isOf workspace id = false) →
      u.db.documents.document? workspace id = w.db.documents.document? workspace id := by
  intro w u
  have sound : w.Sound := ((Crew.initial_good now env peer).play turns).1.sound
  constructor
  · intro j member failed moved
    refine (World.poll_failed sound member failed).resolve_left ?_
    rintro ⟨k, there, before | givenUp⟩
    · exact (moved k there).1 before
    · rw [(moved k there).2] at givenUp
      cases givenUp
  · intro workspace id unwritten elsewhere
    exact World.poll_document sound unwritten elsewhere

namespace Sample

/-- A document is written and asked to be indexed, and the provider has no vector for it. -/
def doomed : World :=
  ((Crew.initial 1000 [] {}).play
    [.put "w" "b" "d" "v1" "hello world", .enqueue "w" "b" "d" "v1"]).world

/-- A worker claims the document's job, and is not heard of again. -/
def deserted : World :=
  ((Crew.initial 1000 [] {}).play
    [.put "w" "b" "d" "v1" "hello world", .enqueue "w" "b" "d" "v1", .claim,
      .interfere hasty.config (.advance 1800001)]).world

/-- The poll has run the job of the document, and it is failed. -/
theorem doomed_failed :
    (doomed.poll setup).2.db.jobs.any (fun j => j.status = .failed && j.isOf "w" "d" &&
      (doomed.db.jobs.job? j.id).all fun k =>
        k.status ≠ .failed && !Queue.isGivenUp setup.config.worker doomed.now k) = true ∧
    ((doomed.poll setup).2.db.documents.document? "w" "d").isSome = true := by
  have claimed : (doomed.housekeeping setup.config).claim.1 =
      some ((doomed.housekeeping setup.config).claim.1.getD default) := by decide +kernel
  rw [World.poll_of_steps 16 claimed (by decide +kernel)]
  decide +kernel

end Sample

theorem failure_marked_sample :
    let u := (Sample.doomed.poll Sample.setup).2
    ∃ j ∈ u.db.jobs, j.status = .failed ∧
      ∃ d, u.db.documents.document? "w" "d" = some d ∧ d.indexStatus = .error ∧
        d.indexError = j.lastError := by
  obtain ⟨any, there⟩ := Sample.doomed_failed
  obtain ⟨j, member, all⟩ := List.any_eq_true.mp any
  obtain ⟨d, found⟩ := Option.isSome_iff_exists.mp there
  simp only [Bool.and_eq_true, decide_eq_true_eq, Option.all_eq_true, Bool.not_eq_true',
    Job.isOf_iff] at all
  obtain ⟨⟨failed, workspace, document⟩, moved⟩ := all
  have marked := (failure_marked Sample.setup 1000 [] {}
    [.put "w" "b" "d" "v1" "hello world", .enqueue "w" "b" "d" "v1"]).1 j member failed moved
  rw [workspace, document] at marked
  exact ⟨j, member, failed, d, found, marked d found⟩

/-- Looking after dead workers fails a job whose attempts are used up, and its document still says
that it waits to be indexed. -/
theorem failure_unmarked :
    let u := (Sample.deserted.poll Sample.hasty).2
    (∃ j ∈ u.db.jobs, j.status = .failed ∧ j.isOf "w" "d" = true ∧
      j.lastError = some "worker stopped while processing; attempts exhausted" ∧
      (Sample.deserted.db.jobs.job? j.id).any (fun k => k.status = .processing) = true) ∧
    ∃ d, u.db.documents.document? "w" "d" = some d ∧ d.indexStatus = .pending ∧
      d.indexError = none := by
  constructor
  · decide +kernel
  · have pending : ((Sample.deserted.poll Sample.hasty).2.db.documents.document? "w" "d").any
        (fun d => d.indexStatus = .pending && d.indexError = none) = true := by decide +kernel
    obtain ⟨d, found, all⟩ := (Option.any_eq_true _ _).mp pending
    simp only [Bool.and_eq_true, decide_eq_true_eq] at all
    exact ⟨d, found, all⟩

end IndexingPipeline
