import IndexingPipeline.Proofs.Around

/-!
# What a run leaves recorded

When a run is over, the database says of the job, of its revision and of its document what the
outcome says. A run has come as far as its stage when what it has to record before that stage
is recorded and nothing else of the job has been touched; every move keeps this. The lock it
took is gone, no revision that it opened is left under way, and where documents point has
changed for the job's document only, and only when its revision was switched in.
-/

namespace IndexingPipeline

open Identifier (ahead_ofNat)

/-- The job has a row, of which this is true. -/
def JobRow (w : World) (job : Job) (p : Job → Prop) : Prop :=
  ∃ j, w.db.jobs.job? job.id = some j ∧ p j

/-- What the database says after a run that found it in `w₀`. -/
def Recorded (s : Setup) (job : Job) (w₀ w : World) : Outcome → Prop
  | .completed revisionId previous chunks _ =>
    JobRow w job (fun j => j.status = .completed ∧ j.lastError = none) ∧
    (∃ a d setId, w.db.revisions.revision? revisionId = some a ∧
      w.db.documents.document? job.workspaceId job.documentId = some d ∧
      a.status = .ready ∧ a.chunkCount = chunks ∧ a.chunkSetId = some setId ∧
      d.currentRevisionId = some revisionId ∧ d.currentChunkSetId = some setId ∧
      d.indexedVersionId = some job.versionId) ∧
    previous = w₀.pointer job.workspaceId job.documentId
  | .retrying attempts moment =>
    JobRow w job (fun j =>
      j.status = .pending ∧ j.attempts = attempts ∧ j.scheduledAt = moment) ∧
    attempts = wrapU32 (job.attempts + 1) ∧ attempts < s.config.worker.maxAttempts ∧
    (job.attempts + 1 < Number.twoTo 32 → attempts = job.attempts + 1)
  | .failed reason =>
    JobRow w job (fun j => j.status = .failed ∧ j.lastError = some reason) ∧
    ∀ d, w.db.documents.document? job.workspaceId job.documentId = some d →
      d.indexStatus = .error ∧ d.indexError = some reason
  | .lockBusy moment | .paused moment =>
    JobRow w job (fun j =>
      j.status = .pending ∧ j.scheduledAt = moment ∧ j.attempts = job.attempts) ∧
    w.db.revisions = w₀.db.revisions ∧ w.db.locks = w₀.db.locks

namespace Stage

def isUndecided : Stage → Bool
  | .looking => true
  | .deferring _ _ _ => true
  | .locking _ => true
  | .opening _ => true
  | .failing _ _ => true
  | .settling _ => true
  | stage => stage.draft?.isSome

/-- The run has not tried to take the lock, or not got it. -/
def isOutside : Stage → Bool
  | .looking => true
  | .deferring _ _ _ => true
  | .locking _ => true
  | _ => false

def isSwitched : Stage → Bool
  | .cleaning _ _ => true
  | .refreshing (.completed _ _ _ _) => true
  | .releasing (.completed _ _ _ _) => true
  | .finished (.completed _ _ _ _) => true
  | _ => false

/-- What is recorded when a run comes to a stage. -/
def Recorded (s : Setup) (job : Job) (w₀ w : World) : Stage → Prop
  | .deferring outcome moment _ => outcome = .lockBusy moment ∨ outcome = .paused moment
  | .cleaning d previous => ∀ cleaned, IndexingPipeline.Recorded s job w₀ w
      (.completed d.revisionId previous d.set.chunks.length cleaned)
  | .marking reason => JobRow w job (fun j => j.status = .failed ∧ j.lastError = some reason)
  | .noting reason => IndexingPipeline.Recorded s job w₀ w (.failed reason)
  | .refreshing outcome => outcome.isHandled = true ∧ IndexingPipeline.Recorded s job w₀ w outcome
  | .releasing outcome => outcome.isHandled = true ∧ IndexingPipeline.Recorded s job w₀ w outcome
  | .finished outcome => IndexingPipeline.Recorded s job w₀ w outcome
  | _ => True

end Stage

/-- A run that found the world in `w₀` has come as far as its stage. -/
structure Run.Abreast (s : Setup) (job : Job) (w₀ : World) (r : Run) (w : World) : Prop where
  same_job : r.job = job
  sound : w.Sound
  known : r.Known w
  drafted : r.Drafted w
  row : r.stage.isUndecided = true → w.db.jobs.job? job.id = some job
  outside : r.stage.isOutside = true →
    r.holder = none ∧ w.db.revisions = w₀.db.revisions ∧ w.db.locks = w₀.db.locks
  opened : r.stage ≠ .crashed → ∀ a ∈ w.db.revisions, a.status = .processing →
    (∃ b ∈ w₀.db.revisions, b.id = a.id) ∨ r.stage.open? = some a.id
  locked : ∀ h, r.holder = some h → ∀ l ∈ w.db.locks, l.holder = h →
    Locks.isFor job.workspaceId job.documentId l = true
  unlocked : ∀ h outcome, r.holder = some h → r.stage = .finished outcome →
    ∀ l ∈ w.db.locks, l.holder ≠ h
  pointers : ∀ workspace id, w.pointer workspace id = w₀.pointer workspace id ∨
    r.stage.isSwitched = true ∧ workspace = job.workspaceId ∧ id = job.documentId
  recorded : r.stage.Recorded s job w₀ w

theorem wrapU32_of_lt {n : Nat} (h : n < Number.twoTo 32) : wrapU32 n = n := Nat.mod_eq_of_lt h

theorem Recorded.of_tables {s : Setup} {job : Job} {w₀ w w' : World} {outcome : Outcome}
    (h : Recorded s job w₀ w outcome) (handled : outcome.isHandled = true)
    (jobs : w'.db.jobs = w.db.jobs) (documents : w'.db.documents = w.db.documents)
    (revisions : w'.db.revisions = w.db.revisions) : Recorded s job w₀ w' outcome := by
  cases outcome with
  | completed | retrying | failed =>
    simpa only [Recorded, JobRow, jobs, documents, revisions] using h
  | lockBusy | paused => cases handled

namespace Run

variable {s : Setup} {job : Job} {w₀ : World} {r r' : Run} {w w' : World}

namespace Abreast

theorem start (s : Setup) (sound : w₀.Sound) (claimed : w₀.db.jobs.job? job.id = some job) :
    Abreast s job w₀ (.start job) w₀ where
  same_job := rfl
  sound := sound
  known := .start job w₀
  drafted := .start job w₀
  row := fun _ => claimed
  outside := fun _ => ⟨rfl, rfl, rfl⟩
  opened := fun _ a member _ => .inl ⟨a, member, rfl⟩
  locked := by
    intro h held
    cases held
  unlocked := by
    intro h outcome held
    cases held
  pointers := fun _ _ => .inl rfl
  recorded := trivial

variable (h : Abreast s job w₀ r w) (m : Move s r w r' w')
include h m

/-- The row of a job stays until something is decided about it. -/
theorem row_kept (claimed : job.status ≠ .pending) (undecided : r'.stage.isUndecided = true) :
    w'.db.jobs.job? job.id = some job := by
  have kept := m.jobs_kept
  have row := h.row
  have sound := h.sound
  cases m with
  | kept | mismatched | unembedded | unaccepted =>
    exact (World.embed_meanwhile _ s _ _ _).jobs sound job claimed (row rfl)
  | vanished => exact row rfl
  | @refreshed _ holder => cases holder <;> cases undecided
  | deferred | switched | retried | exhausted | final | cleaned | marked | unnoted | noted |
      released | unlocked => cases undecided
  | _ =>
    rw [kept (by simp [Stage.writes])]
    exact row rfl

theorem outside_kept (outside : r'.stage.isOutside = true) :
    r'.holder = none ∧ w'.db.revisions = w₀.db.revisions ∧ w'.db.locks = w₀.db.locks := by
  have before := h.outside
  cases m with
  | free | watched | ended | paused => exact before rfl
  | busy settings refused =>
    obtain ⟨_, revisions, locks⟩ := before rfl
    exact ⟨rfl, revisions, (World.locks_of_refused refused).trans locks⟩
  | @refreshed _ holder => cases holder <;> cases outside
  | _ => cases outside

/-- No revision but the one that a run has open is under way and was not there before. -/
theorem opened_kept (alive : r'.stage ≠ .crashed) :
    ∀ a ∈ w'.db.revisions, a.status = .processing →
      (∃ b ∈ w₀.db.revisions, b.id = a.id) ∨ r'.stage.open? = some a.id := by
  have kept := m.revisions_kept
  have before := h.opened (by cases m <;> simp)
  have unpointed := h.drafted.unpointed
  cases m with
  | opened =>
    intro a member processing
    rcases List.mem_append.mp member with old | new
    · rcases before a old processing with there | opened
      · exact .inl there
      · cases opened
    · rw [List.mem_singleton.mp new]
      exact .inr rfl
  | sized | accounted =>
    intro a member processing
    obtain ⟨b, old, rfl⟩ := List.mem_map.mp member
    rw [Revisions.status_updated rfl] at processing
    rw [Revisions.id_updated]
    exact before b old processing
  | switched d =>
    intro a member processing
    obtain ⟨b, old, rfl⟩ := List.mem_map.mp member
    by_cases own : b.id = d.revisionId
    · rw [if_pos own] at processing
      cases processing
    · rw [if_neg own] at processing ⊢
      rcases before b old processing with there | opened
      · exact .inl there
      · exact absurd (Option.some.inj opened).symm own
  | failed id e =>
    intro a member processing
    obtain ⟨old, ne⟩ := Revisions.status_failed member processing
    have current : w.db.documents.isCurrent id = false := by
      rw [← Bool.not_eq_true, Documents.isCurrent_iff]
      rintro ⟨x, member, points⟩
      exact unpointed id rfl x member points
    rcases before a old processing with there | opened
    · exact .inl there
    · exact absurd (Option.some.inj opened).symm (ne current)
  | stopped => exact absurd rfl alive
  | unplanned | blank | unaccounted | vanished | unopened =>
    simpa [Stage.open?, Stage.draft?, Stage.fail] using before
  | @refreshed _ holder =>
    cases holder <;> simpa [Stage.open?, Stage.draft?, World.refreshAction] using before
  | _ =>
    rw [kept (by simp [Stage.writes])]
    simpa [Stage.open?, Stage.draft?, Stage.fail] using before

theorem locked_kept : ∀ holder, r'.holder = some holder → ∀ l ∈ w'.db.locks,
    l.holder = holder → Locks.isFor job.workspaceId job.documentId l = true := by
  have kept := m.locks_kept
  have before := h.locked
  have known := h.known.holder
  have sound := h.sound
  have same := h.same_job
  cases m with
  | @locked _ _ w settings mine got =>
    subst same
    rintro _ ⟨⟩ l member held
    have fresh := World.holder_of_acquire got
    rcases Locks.mem_acquire member with old | rfl
    · exact absurd (ahead_ofNat.mpr (Nat.le_refl w.drawn)) (fresh ▸ held ▸ sound.locks l old)
    · simp [Locks.isFor]
  | busy => intro holder held; cases held
  | kept | mismatched | unembedded | unaccepted =>
    intro holder held l member mine
    rcases (World.embed_meanwhile _ s _ _ _).locks l member with old | ahead
    · exact before holder held l old mine
    · exact absurd (mine ▸ ahead) (known holder held)
  | released =>
    exact fun holder held l member => before holder held l (Locks.mem_release.mp member).1
  | unlocked => exact before
  | _ =>
    rw [kept (by simp [Stage.writes])]
    exact before

theorem unlocked_kept (holder : String) (outcome : Outcome) (held : r'.holder = some holder)
    (ended : r'.stage = .finished outcome) : ∀ l ∈ w'.db.locks, l.holder ≠ holder := by
  have outside := h.outside
  have locked := h.locked
  have same := h.same_job
  cases m with
  | deferred =>
    rw [(outside rfl).1] at held
    cases held
  | @refreshed _ mine =>
    cases mine with
    | none => cases held
    | some _ => cases ended
  | released =>
    subst same
    cases held
    intro l member mine
    obtain ⟨old, kept⟩ := Locks.mem_release.mp member
    exact kept ⟨locked holder rfl l old mine, mine⟩
  | unlocked => cases held
  | _ => cases ended

/-- Where documents point changes with the switch alone. -/
theorem pointers_kept (workspace id : String) :
    w'.pointer workspace id = w₀.pointer workspace id ∨
      r'.stage.isSwitched = true ∧ workspace = job.workspaceId ∧ id = job.documentId := by
  have onward : r.stage.isSwitched = true → r'.stage.isSwitched = true := by
    cases m with
    | @refreshed _ holder _ outcome =>
      cases outcome <;> cases holder <;> simp [Stage.isSwitched]
    | released _ outcome => cases outcome <;> simp [Stage.isSwitched]
    | unlocked outcome => cases outcome <;> simp [Stage.isSwitched]
    | _ => simp [Stage.isSwitched]
  rcases m.pointer_moves workspace id with same | ⟨d, _, next, here, there, _⟩
  · refine (h.pointers workspace id).imp (same.trans ·) ?_
    rintro ⟨switched, key⟩
    exact ⟨onward switched, key⟩
  · rw [h.same_job] at here there
    exact .inr ⟨by rw [next]; rfl, here, there⟩

/-- The transaction that switches a revision in records that its job is completed. -/
theorem recorded_switched (d : Draft) (stage : r.stage = .switching d)
    (next : r'.stage.isSwitched = true) : r'.stage.Recorded s job w₀ w' := by
  have row := h.row (by rw [stage]; rfl)
  have drafted := h.drafted.row d (by rw [stage]; rfl)
  have pointers := h.pointers job.workspaceId job.documentId
  have same := h.same_job
  cases m with
  | switched d' doc found =>
    cases stage
    cases same
    intro cleaned
    obtain ⟨a, there, workspace, document, sized⟩ := drafted
    obtain ⟨set, count⟩ := sized rfl
    refine ⟨?_, ⟨_, _, d.set.id, Revisions.revision?_update there _,
      Documents.document?_switched found _ _ _ _, rfl, count, set, rfl, rfl, rfl⟩, ?_⟩
    · unfold JobRow
      rw [Queue.complete, Queue.job?_update (by intro j; rfl), row]
      exact ⟨_, rfl, rfl, rfl⟩
    · rcases pointers with same | ⟨switched, _⟩
      · rw [← same, World.pointer, found]
        rfl
      · cases switched
  | _ => first | cases stage; cases next | cases stage

/-- What is recorded of a job stays recorded, and every stage adds its own. -/
theorem recorded_kept : r'.stage.Recorded s job w₀ w' := by
  have switched := h.recorded_switched m
  have recorded := h.recorded
  have outside := h.outside
  have row := h.row
  have same := h.same_job
  cases m with
  | paused => exact .inr rfl
  | busy => exact .inl rfl
  | @deferred own _ w outcome moment reason =>
    obtain rfl : own = job := same
    obtain ⟨_, revisions, locks⟩ := outside rfl
    have put_back : ∃ j,
        (w.db.jobs.reschedule w.now own.id moment reason).job? own.id = some j ∧
          j.status = .pending ∧ j.scheduledAt = moment ∧ j.attempts = own.attempts := by
      rw [Queue.reschedule, Queue.job?_update (by intro j; rfl), row rfl]
      exact ⟨_, rfl, rfl, rfl, rfl⟩
    rcases recorded with rfl | rfl
    · exact ⟨put_back, revisions, locks⟩
    · exact ⟨put_back, revisions, locks⟩
  | switched d => exact switched d rfl rfl
  | @cleaned own _ w d previous =>
    have db := (w.deletePoints_inside s (collection s own)
      (.superseded own.workspaceId own.documentId d.revisionId)).db
    exact ⟨rfl, (recorded _).of_tables rfl (by rw [db]) (by rw [db]) (by rw [db])⟩
  | retried e attempts moment jobs retryable retry =>
    subst same
    obtain ⟨counted, left, j, found, waits⟩ := Queue.job?_rescheduled retry (row rfl)
    exact ⟨rfl, ⟨j, found, waits⟩, counted, left, fun small => counted.trans (wrapU32_of_lt small)⟩
  | exhausted e attempts jobs retryable retry =>
    subst same
    exact Queue.job?_exhausted retry (row rfl)
  | final e =>
    subst same
    unfold Stage.Recorded JobRow
    simp only [World.onJobs]
    rw [Queue.fail, Queue.job?_update (by intro j; rfl), row rfl]
    exact ⟨_, rfl, rfl, rfl⟩
  | marked reason =>
    subst same
    exact ⟨recorded, fun d found => Documents.document?_markError found⟩
  | unnoted reason | noted reason =>
    have failed : IndexingPipeline.Recorded s job w₀ _ (.failed reason) := recorded
    exact ⟨rfl, failed.of_tables rfl rfl rfl rfl⟩
  | @refreshed _ holder =>
    obtain ⟨handled, recorded⟩ := recorded
    cases holder with
    | none => exact recorded.of_tables handled rfl rfl rfl
    | some _ => exact ⟨handled, recorded.of_tables handled rfl rfl rfl⟩
  | released holder outcome =>
    exact recorded.2.of_tables recorded.1 rfl rfl rfl
  | unlocked => exact recorded.2
  | _ => trivial

theorem move (claimed : job.status ≠ .pending) : Abreast s job w₀ r' w' where
  same_job := m.same_job.trans h.same_job
  sound := m.sound h.sound h.known
  known := m.known h.known
  drafted := m.drafted h.sound h.drafted
  row := h.row_kept m claimed
  outside := h.outside_kept m
  opened := h.opened_kept m
  locked := h.locked_kept m
  unlocked := h.unlocked_kept m
  pointers := h.pointers_kept m
  recorded := h.recorded_kept m

end Abreast

theorem abreast_complete (s : Setup) (sound : w.Sound)
    (claimed : w.db.jobs.job? job.id = some job) (taken : job.status = .processing) :
    Abreast s job w (complete s (.start job) w).1 (complete s (.start job) w).2 := by
  refine complete_keeps ?_ (.start job) w (.start s sound claimed)
  intro r w r' w' h m
  exact h.move m (by simp [taken])

end Run

/-- Whatever comes of a claimed job, and whatever services answer and others do meanwhile: what
is stored is what the outcome says, no lock carries the run's holder, no revision that the run
opened is left under way, and where a document points has changed only when the outcome is that
the job is completed, and only for its own document. -/
theorem process_recorded (s : Setup) (w : World) (job : Job) (outcome : Outcome)
    (sound : w.Sound) (claimed : w.db.jobs.job? job.id = some job)
    (taken : job.status = .processing) (done : (w.process s job).1 = some outcome) :
    Recorded s job w (w.process s job).2 outcome ∧
    (∀ holder, (Run.complete s (.start job) w).1.holder = some holder →
      ∀ l ∈ (w.process s job).2.db.locks, l.holder ≠ holder) ∧
    (∀ a ∈ (w.process s job).2.db.revisions, a.status = .processing →
      ∃ b ∈ w.db.revisions, b.id = a.id) ∧
    (∀ workspace id,
      (w.process s job).2.pointer workspace id ≠ w.pointer workspace id →
      (∃ revisionId previous chunks cleaned,
        outcome = .completed revisionId previous chunks cleaned) ∧
      workspace = job.workspaceId ∧ id = job.documentId) := by
  have h := Run.abreast_complete s sound claimed taken
  have stage := World.process_finished done
  rw [World.process_world]
  refine ⟨?_, ?_, ?_, ?_⟩
  · have recorded := h.recorded
    rwa [stage] at recorded
  · exact fun holder held => h.unlocked holder outcome held stage
  · intro a member processing
    rcases h.opened (by simp [stage]) a member processing with there | opened
    · exact there
    · rw [stage] at opened
      cases opened
  · intro workspace id moved
    rcases h.pointers workspace id with same | ⟨switched, key⟩
    · exact absurd same moved
    · rw [stage] at switched
      cases outcome with
      | completed => exact ⟨⟨_, _, _, _, rfl⟩, key⟩
      | _ => cases switched

namespace Sample

/-- A worker with one provider, which is played, and a store in memory. -/
def setup : Setup where
  config := {
    dataPath := "kb.sqlite"
    policy := { providerId := "p" }
    store := { url := "http://store" }
    providers := [{ id := "p", kind := .ollama, url := "http://p", model := "m" }] }
  remoteEmbedder := false
  gateway := none

/-- A provider that has the same vector for every text and leaves the world alone. -/
def turn : EmbedderTurn := ⟨[], fun _ => .ok ⟨[1, 2], some 3, none⟩⟩

def unreachable : EmbedderTurn := ⟨[], fun _ => .error (.transport "connection refused")⟩

def stored : World :=
  ({ World.initial 1000 [] {} with usualTurn := turn }.submit "w" "b" "d" "v1" "hello world").2

def world : World := stored.claim.2

def job : Job := stored.claim.1.getD default

theorem stored_sound : stored.Sound := by
  have empty : World.Sound { World.initial 1000 [] {} with usualTurn := turn } :=
    (World.initial_sound 1000 [] {}).of_tables (Nat.le_refl _) rfl rfl rfl rfl
  exact (World.submit_meanwhile _ _ _ _ _ _).sound empty

theorem claims : stored.claim.1 = some job := by decide +kernel

theorem process_job :
    (world.process setup job).1 = some (.completed (Identifier.ofNat 2) none 1 (some 0)) := by
  have ended : (Run.steps setup 16 (.start job) world).1.stage.isOver = true := by decide +kernel
  unfold World.process
  rw [Run.complete_eq_steps 16 ended]
  decide +kernel

end Sample

theorem process_recorded_sample :
    (Sample.world.process Sample.setup Sample.job).1 =
      some (.completed (Identifier.ofNat 2) none 1 (some 0)) ∧
    Recorded Sample.setup Sample.job Sample.world
      (Sample.world.process Sample.setup Sample.job).2
      (.completed (Identifier.ofNat 2) none 1 (some 0)) :=
  ⟨Sample.process_job,
    (process_recorded Sample.setup Sample.world Sample.job _
      ((World.claim_around _).sound Sample.stored_sound)
      (World.claim_claimed _ Sample.stored_sound Sample.claims).1
      (World.claim_claimed _ Sample.stored_sound Sample.claims).2 Sample.process_job).1⟩

end IndexingPipeline
