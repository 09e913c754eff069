import IndexingPipeline.Config.Reader
import IndexingPipeline.Proofs.Rows
import IndexingPipeline.Proofs.Settling
import IndexingPipeline.Proofs.Switchover

/-!
# Retries

A job whose executions all fail on the way to the token service or to the provider is put back each
time, to be claimed after a while that never gets shorter and never exceeds a limit, until it has
failed as often as it may. What is put off because its action is paused or its document is locked is
no execution. Whatever is done in between, the job is claimed only when its time has come, and never
again when it is failed.
-/

namespace IndexingPipeline

open Job (Repointed)

namespace Read

theorem small_lt {v : Toml.Value} {n : Nat} (h : small v = some n) : n < Number.twoTo 32 := by
  obtain ⟨m, _, fits⟩ := Option.bind_eq_some_iff.mp h
  split at fits
  · exact Option.some.inj fits ▸ ‹_›
  · cases fits

end Read

theorem Record.orElse_cases {α : Type} {r : Record} {place : Nat} {name : String}
    {read : Toml.Value → Option α} {fallback a : α}
    (h : r.orElse place name read fallback = some a) : a = fallback ∨ ∃ v, read v = some a := by
  unfold orElse at h
  split at h
  · exact .inl (Option.some.inj h).symm
  · exact .inr ⟨_, h⟩

theorem Read.worker_attempts {v : Toml.Value} {w : WorkerSettings} (h : worker v = some w) :
    w.maxAttempts < Number.twoTo 32 := by
  unfold worker at h
  simp only [Option.bind_eq_bind, Option.bind_eq_some_iff, Option.pure_def] at h
  obtain ⟨r, _, _, _, attempts, read, _, _, _, _, _, _, _, _, _, _, _, _, made⟩ := h
  rw [← Option.some.inj made]
  change attempts < Number.twoTo 32
  rcases Record.orElse_cases read with rfl | ⟨_, small⟩
  · decide
  · exact small_lt small

theorem Read.config_attempts {members : List (String × Toml.Value)} {cfg : Config}
    (h : config members = some cfg) : cfg.worker.maxAttempts < Number.twoTo 32 := by
  unfold config at h
  simp only [Option.bind_eq_bind, Option.bind_eq_some_iff, Option.pure_def] at h
  obtain ⟨_, _, settings, read, _, _, _, _, _, _, _, _, _, _, _, _, made⟩ := h
  rw [← Option.some.inj made]
  change settings.maxAttempts < Number.twoTo 32
  rcases Record.orElse_cases read with rfl | ⟨_, worker⟩
  · decide
  · exact worker_attempts worker

theorem Config.attempts_of_check {cfg : Config} (h : cfg.check = .ok ()) :
    0 < cfg.worker.maxAttempts := by
  refine Nat.pos_of_ne_zero fun zero => ?_
  unfold check at h
  rw [if_pos zero] at h
  split at h
  · cases h
  · split at h <;> cases h

/-- A configuration that is accepted allows some executions of a job, and no more than can be
counted. -/
theorem Config.attempts_of_read {text : String} {cfg : Config} (h : Config.read text = .ok cfg) :
    0 < cfg.worker.maxAttempts ∧ cfg.worker.maxAttempts < Number.twoTo 32 := by
  unfold read at h
  split at h
  · cases h
  · rename_i members
    split at h
    · cases h
    · rename_i checked
      obtain rfl := Except.ok.inj h
      obtain ⟨_, _, spelled⟩ := Option.bind_eq_some_iff.mp members
      exact ⟨attempts_of_check checked, Read.config_attempts spelled⟩

namespace WorkerSettings

variable {w : WorkerSettings}

theorem backoff_le (w : WorkerSettings) (attempts : Nat) : w.backoff attempts ≤ w.backoffMaxMs :=
  Nat.min_le_right _ _

theorem backoff_mono (w : WorkerSettings) {a b : Nat} (order : a ≤ b) :
    w.backoff a ≤ w.backoff b := by
  have exponents : min (a - 1) 32 ≤ min (b - 1) 32 := by omega
  have factors : Number.twoTo (min (a - 1) 32) ≤ Number.twoTo (min (b - 1) 32) :=
    Nat.pow_le_pow_right (by decide) exponents
  have products := Nat.mul_le_mul_left w.backoffBaseMs factors
  unfold backoff
  simp only
  omega

end WorkerSettings

namespace JobError

/-- What became of asking the provider or the token service when the way there failed. -/
inductive IsTransport : JobError → Prop
  | embedding (reason : String) (index total : Nat) :
      IsTransport (.ofEmbedding (.transport reason) index total)
  | token (reason : String) : IsTransport (.ofToken (.transport reason))

theorem IsTransport.verdict {e : JobError} (h : e.IsTransport) : e.verdict = .retry e.message := by
  cases h <;> rfl

end JobError

namespace World

/-- The job that an incident claims. -/
def claims (s : Setup) (w : World) : Incident → Option Job
  | .op .poll => (w.housekeeping s.config).claim.1
  | .death _ => (w.housekeeping s.config).claim.1
  | .op _ => none

/-- A poll puts off the job that it claims: its action is paused, or its document is locked. -/
def PutsOff (s : Setup) (w : World) : Prop :=
  ∃ outcome, (w.poll s).1 = .ran outcome ∧ outcome.isHandled = false

/-- A poll executes the job that it claims, and the way to the provider or to the token service
fails. -/
def FailsInTransport (s : Setup) (w : World) (job : Job) : Prop :=
  ∃ n e, (Run.steps s n (.start job) (w.housekeeping s.config).claim.2).1.stage = .settling e ∧
    e.IsTransport

variable {s : Setup} {w : World} {job j : Job} {id : String}

/-- A job that is claimed was waiting, and its time had come. -/
theorem claims_due (sound : w.Sound) (claimed : (w.housekeeping s.config).claim.1 = some job)
    (row : w.db.jobs.job? job.id = some j) (calm : j.status ≠ .processing) :
    j.status = .pending ∧ j.scheduledAt ≤ w.now ∧ job.attempts = j.attempts := by
  have kept := (w.housekeeping_around s.config).sound sound
  obtain ⟨k, found, waits, due, taken, _⟩ := Queue.claim_due kept.jobs_once claimed
  have tended := w.housekeeping_row s.config job.id
  rw [row, Option.map_some, Queue.tended_of_calm calm] at tended
  obtain rfl : k = j := Option.some.inj (found.symm.trans tended)
  refine ⟨waits, due, ?_⟩
  rw [taken]
  rfl

/-- A job that is put off waits again, and has been executed no more often. -/
theorem PutsOff.row (off : w.PutsOff s) (sound : w.Sound)
    (claimed : (w.housekeeping s.config).claim.1 = some job) :
    ∃ k, (w.poll s).2.db.jobs.job? job.id = some k ∧ k.status = .pending ∧
      k.attempts = job.attempts := by
  have kept := (w.housekeeping_around s.config).sound sound
  obtain ⟨row, taken⟩ := claim_claimed _ kept claimed
  obtain ⟨outcome, ran, unhandled⟩ := off
  rcases w.poll_cases s with ⟨nothing, _⟩ | ⟨job', claimed', world, outcomes⟩
  · rw [nothing] at claimed
    cases claimed
  · obtain rfl := Option.some.inj (claimed.symm.trans claimed')
    have recorded := (process_recorded s _ job outcome ((claim_around _).sound kept) row taken
      (outcomes outcome ran)).1
    rw [world, ← process_world]
    cases outcome with
    | lockBusy | paused =>
      obtain ⟨⟨k, found, waits, _, attempts⟩, _⟩ := recorded
      exact ⟨k, found, waits, attempts⟩
    | _ => cases unhandled

/-- What an execution that failed on the way to a service leaves in the row of its job. -/
theorem FailsInTransport.row (fails : w.FailsInTransport s job) (sound : w.Sound)
    (claimed : (w.housekeeping s.config).claim.1 = some job) :
    ∃ reason, (w.poll s).2.db.jobs.job? job.id =
      some (Verdict.row s.config.worker (w.poll s).2.now job job (.retry reason)) := by
  have kept := (w.housekeeping_around s.config).sound sound
  obtain ⟨row, taken⟩ := claim_claimed _ kept claimed
  obtain ⟨n, e, stage, transport⟩ := fails
  rcases w.poll_cases s with ⟨nothing, _⟩ | ⟨job', claimed', world, _⟩
  · rw [nothing] at claimed
    cases claimed
  · obtain rfl := Option.some.inj (claimed.symm.trans claimed')
    have settled := ((Run.abreast_steps s n ((claim_around _).sound kept) row taken).settles
      (congrArg Stage.error? stage)).complete.2
    rw [Run.complete_steps, transport.verdict] at settled
    rw [world]
    exact ⟨e.message, settled⟩

/-- What does not claim a job that is not under way leaves its row as it is, but that it may be
pointed at another version. -/
theorem incur_repoints (sound : w.Sound) {x : Incident}
    (other : ∀ job, w.claims s x = some job → id ≠ job.id)
    (row : w.db.jobs.job? id = some j) (calm : j.status ≠ .processing) :
    Repointed (some j) ((w.incur s x).db.jobs.job? id) := by
  have tended : (w.db.jobs.job? id).map (Queue.tended s.config.worker w.now) = some j := by
    rw [row, Option.map_some, Queue.tended_of_calm calm]
  cases x with
  | death n =>
    rw [← tended]
    exact (attend_repoints sound other).2 n
  | op o =>
    cases o with
    | poll =>
      rw [← tended]
      exact (attend_repoints sound other).1
    | enqueue workspace base document version =>
      rw [← row]
      exact w.db.jobs.enqueue_repoints w.now (Identifier.ofNat w.drawn) workspace base document
        version id
    | interfere i =>
      rw [← row]
      exact interfere_repoints s.config w i id
    | sweep =>
      have db := (w.sweepAll_kept (s := s) ⟨0, 0, 0⟩ w.db.documents.indexed).1
      rw [← row]
      exact .of_eq (congrArg (fun db : Database => db.jobs.job? id) db)
    | put | start | inject | outside =>
      rw [← row]
      exact .refl _

end World

/-- From one world to a later one a job has failed so often on the way to a service, may have been
put off any number of times, and has not been executed otherwise. Whatever does not claim the job
may happen in between. -/
inductive Trials (s : Setup) (id : String) : Nat → World → World → Prop
  | start (w : World) : Trials s id 0 w w
  | beside {n w v} (x : Incident) : Trials s id n w v →
      (∀ job, v.claims s x = some job → id ≠ job.id) → Trials s id n w (v.incur s x)
  | putOff {n w v} (job : Job) : Trials s id n w v →
      (v.housekeeping s.config).claim.1 = some job → job.id = id → v.PutsOff s →
      Trials s id n w (v.poll s).2
  | failed {n w v} (job : Job) : Trials s id n w v →
      (v.housekeeping s.config).claim.1 = some job → job.id = id → v.FailsInTransport s job →
      Trials s id (n + 1) w (v.poll s).2

/-- A job that was executed so often, and failed each time. -/
structure Job.Tried (settings : WorkerSettings) (n : Nat) (j : Job) : Prop where
  attempts : j.attempts = n
  status : n < settings.maxAttempts ∧ j.status = .pending ∨
    n = settings.maxAttempts ∧ j.status = .failed

namespace Job.Tried

variable {settings : WorkerSettings} {n : Nat} {j : Job} (h : j.Tried settings n)
include h

theorem calm : j.status ≠ .processing := by
  rcases h.status with ⟨_, status⟩ | ⟨_, status⟩ <;> simp [status]

theorem pending (few : n < settings.maxAttempts) : j.status = .pending := by
  rcases h.status with ⟨_, status⟩ | ⟨last, _⟩
  · exact status
  · omega

theorem failed (last : n = settings.maxAttempts) : j.status = .failed := by
  rcases h.status with ⟨few, _⟩ | ⟨_, status⟩
  · omega
  · exact status

/-- Pointing the job at another version changes nothing of that. -/
theorem repointed {row : Option Job} (repointed : Repointed (some j) row) :
    ∃ k, row = some k ∧ k.Tried settings n ∧ k.status = j.status ∧
      k.scheduledAt = j.scheduledAt := by
  cases repointed with
  | kept _ version moment => exact ⟨_, rfl, ⟨h.attempts, h.status⟩, rfl, rfl⟩

end Job.Tried

/-- Another failure below the limit puts a job back for later, and the last one fails it. -/
theorem Verdict.tried_again {settings : WorkerSettings} {n : Nat} {job : Job}
    (few : n < settings.maxAttempts) (small : settings.maxAttempts < Number.twoTo 32)
    (claimed : job.attempts = n) (now : Int) (reason : String) :
    (row settings now job job (.retry reason)).Tried settings (n + 1) ∧
      (n + 1 < settings.maxAttempts →
        (row settings now job job (.retry reason)).scheduledAt =
          after now (settings.backoff (n + 1))) := by
  have counted : wrapU32 (job.attempts + 1) = n + 1 := by
    rw [claimed]
    exact wrapU32_of_lt (by omega)
  unfold row
  simp only [counted]
  split
  · rename_i last
    have exact_last : n + 1 = settings.maxAttempts := by omega
    exact ⟨⟨rfl, .inr ⟨exact_last, rfl⟩⟩, fun left => absurd left (by omega)⟩
  · rename_i left
    exact ⟨⟨rfl, .inl ⟨by omega, rfl⟩⟩, fun _ => rfl⟩

namespace World

variable {s : Setup} {w : World} {job j : Job} {n : Nat}

/-- What a poll that claims a job finds of it, when it has failed so often, and what it leaves. -/
theorem trial (small : s.config.worker.maxAttempts < Number.twoTo 32) (sound : w.Sound)
    (row : w.db.jobs.job? job.id = some j) (tried : j.Tried s.config.worker n)
    (claimed : (w.housekeeping s.config).claim.1 = some job) :
    n < s.config.worker.maxAttempts ∧ j.scheduledAt ≤ w.now ∧
      (w.PutsOff s → ∃ k, (w.poll s).2.db.jobs.job? job.id = some k ∧
        k.Tried s.config.worker n) ∧
      (w.FailsInTransport s job → ∃ k, (w.poll s).2.db.jobs.job? job.id = some k ∧
        k.Tried s.config.worker (n + 1) ∧
        (n + 1 < s.config.worker.maxAttempts →
          k.scheduledAt = after (w.poll s).2.now (s.config.worker.backoff (n + 1)))) := by
  obtain ⟨waits, due, attempts⟩ := claims_due sound claimed row tried.calm
  have few : n < s.config.worker.maxAttempts := by
    rcases tried.status with ⟨few, _⟩ | ⟨_, failed⟩
    · exact few
    · rw [waits] at failed
      cases failed
  have counted : job.attempts = n := attempts.trans tried.attempts
  refine ⟨few, due, ?_, ?_⟩
  · intro off
    obtain ⟨k, found, pending, same⟩ := off.row sound claimed
    exact ⟨k, found, same.trans counted, .inl ⟨few, pending⟩⟩
  · intro fails
    obtain ⟨reason, found⟩ := fails.row sound claimed
    exact ⟨_, found, Verdict.tried_again few small counted _ reason⟩

end World

theorem Trials.tried {s : Setup} {id : String} {n : Nat} {w v : World}
    (small : s.config.worker.maxAttempts < Number.twoTo 32) (trials : Trials s id n w v)
    (sound : w.Sound)
    (fresh : ∃ j, w.db.jobs.job? id = some j ∧ j.Tried s.config.worker 0) :
    v.Sound ∧ ∃ j, v.db.jobs.job? id = some j ∧ j.Tried s.config.worker n := by
  induction trials with
  | start w => exact ⟨sound, fresh⟩
  | beside x _ other ih =>
    obtain ⟨sound, j, row, tried⟩ := ih sound fresh
    obtain ⟨k, found, tried', _, _⟩ :=
      tried.repointed (World.incur_repoints sound other row tried.calm)
    exact ⟨sound.incur s x, k, found, tried'⟩
  | putOff job _ claimed same off ih =>
    obtain ⟨sound, j, row, tried⟩ := ih sound fresh
    subst same
    obtain ⟨_, _, puts_off, _⟩ := World.trial small sound row tried claimed
    exact ⟨sound.incur s (.op .poll), puts_off off⟩
  | failed job _ claimed same fails ih =>
    obtain ⟨sound, j, row, tried⟩ := ih sound fresh
    subst same
    obtain ⟨_, _, _, fails_again⟩ := World.trial small sound row tried claimed
    obtain ⟨k, found, tried', _⟩ := fails_again fails
    exact ⟨sound.incur s (.op .poll), k, found, tried'⟩

/-- Under a configuration that is accepted, and whatever has happened before on a database that was
empty: a job that waits and was not executed yet is executed again and again, and each time fails on
the way to a service. After so many failures its row counts them, and it waits as long as there are
fewer than it may have; with the last of them it is failed, and never claimed again. It is claimed
only when its time has come. Putting it off counts nothing, each failure but the last schedules it
anew a while later, and what does not claim it leaves its count and its time alone. The whiles never
get shorter and do not exceed their limit. -/
theorem retry_runs (s : Setup) (text : String) (accepted : Config.read text = .ok s.config)
    (now : Int) (env : Environment) (peer : Peer) (turns : List Turn) (id : String) (j₀ : Job)
    (row : ((Crew.initial now env peer).play turns).world.db.jobs.job? id = some j₀)
    (waits : j₀.status = .pending) (new : j₀.attempts = 0) (n : Nat) (v : World)
    (trials : Trials s id n ((Crew.initial now env peer).play turns).world v) :
    let limit := s.config.worker.maxAttempts
    let backoff := s.config.worker.backoff
    let u := (v.poll s).2
    (∃ j, v.db.jobs.job? id = some j ∧ j.attempts = n ∧
      (n < limit ∧ j.status = .pending ∨ n = limit ∧ j.status = .failed) ∧
      (∀ job, (v.housekeeping s.config).claim.1 = some job → job.id = id →
        n < limit ∧ j.scheduledAt ≤ v.now ∧
        (v.PutsOff s → ∃ k, u.db.jobs.job? id = some k ∧ k.status = .pending ∧
          k.attempts = n) ∧
        (v.FailsInTransport s job → ∃ k, u.db.jobs.job? id = some k ∧ k.attempts = n + 1 ∧
          (n + 1 = limit → k.status = .failed) ∧
          (n + 1 < limit → k.status = .pending ∧
            (-(Number.twoTo 63 : Int) ≤ u.now → u.now + backoff (n + 1) < Number.twoTo 63 →
              k.scheduledAt = u.now + backoff (n + 1))))) ∧
      ∀ x, (∀ job, v.claims s x = some job → id ≠ job.id) →
        ∃ k, (v.incur s x).db.jobs.job? id = some k ∧ k.status = j.status ∧
          k.attempts = n ∧ k.scheduledAt = j.scheduledAt) ∧
    ∀ a b, a ≤ b → backoff a ≤ backoff b ∧ backoff b ≤ s.config.worker.backoffMaxMs := by
  intro limit backoff u
  obtain ⟨allowed, small⟩ := Config.attempts_of_read accepted
  have good := (Crew.initial_good now env peer).play turns
  obtain ⟨sound, j, found, tried⟩ :=
    trials.tried small good.1.sound ⟨j₀, row, new, .inl ⟨allowed, waits⟩⟩
  refine ⟨⟨j, found, tried.attempts, tried.status, ?_, ?_⟩, ?_⟩
  · rintro job claimed rfl
    obtain ⟨few, due, puts_off, fails⟩ := World.trial small sound found tried claimed
    refine ⟨few, due, fun off => ?_, fun failing => ?_⟩
    · obtain ⟨k, written, again⟩ := puts_off off
      exact ⟨k, written, again.pending few, again.attempts⟩
    · obtain ⟨k, written, again, later⟩ := fails failing
      refine ⟨k, written, again.attempts, again.failed, fun left => ⟨again.pending left, ?_⟩⟩
      intro low high
      rw [later left, after_of_inRange low high]
  · intro x other
    obtain ⟨k, written, again, status, time⟩ :=
      tried.repointed (World.incur_repoints sound other found tried.calm)
    exact ⟨k, written, status, again.attempts, time⟩
  · exact fun a b order => ⟨WorkerSettings.backoff_mono _ order, WorkerSettings.backoff_le _ _⟩

namespace Sample

def frugalText : String :=
  "db.path = \"kb.sqlite\"\nworker.max_attempts = 2\npolicy.provider_id = \"p\"\n" ++
  "vector_store.url = \"http://store\"\n" ++
  "[[providers]]\nid = \"p\"\nkind = \"ollama\"\nurl = \"http://p\"\nmodel = \"m\"\n"

def frugal : Setup := { setup with config := { setup.config with worker := { maxAttempts := 2 } } }

theorem frugal_accepted : Config.read frugalText = .ok frugal.config := by
  have read : (Config.read frugalText).toOption = some frugal.config := by decide +kernel
  cases accepted : Config.read frugalText with
  | error e =>
    rw [accepted] at read
    cases read
  | ok cfg =>
    rw [accepted] at read
    rw [Option.some.inj read]

/-- A document waits to be indexed, and somebody has locked it. -/
def locked : World :=
  ((Crew.initial 1000 [] {}).play
    [.outside { World.initial 1000 [] {} with usualTurn := unreachable },
      .put "w" "b" "d" "v1" "hello world", .enqueue "w" "b" "d" "v1",
      .interfere frugal.config (.lock "w" "d")]).world

def next (w : World) : Job := (w.housekeeping frugal.config).claim.1.getD default

def ran (w : World) : Run × World :=
  Run.steps frugal 16 (.start (next w)) (w.housekeeping frugal.config).claim.2

def wait (ms : Int) : Incident := .op (.interfere (.advance ms))

/-- The job is put off, the lock expires. -/
def unlocked : World := (ran locked).2.incur frugal (wait 1800001)

/-- The job is executed, and its time has come again. -/
def failedOnce : World := (ran unlocked).2.incur frugal (wait 5000)

/-- Whether an execution is to be settled that failed at the provider. -/
def isCutOff : Stage → Bool
  | .settling e => e = .ofEmbedding (.transport "connection refused") 1 1
  | _ => false

theorem fails_of_cutOff {w : World} (n : Nat)
    (cutOff : isCutOff (Run.steps frugal n (.start (next w))
      (w.housekeeping frugal.config).claim.2).1.stage = true) :
    w.FailsInTransport frugal (next w) := by
  unfold isCutOff at cutOff
  split at cutOff
  · rename_i e stage
    exact ⟨n, e, stage, of_decide_eq_true cutOff ▸ .embedding _ _ _⟩
  · cases cutOff

theorem poll_eq {w : World} (claimed : (w.housekeeping frugal.config).claim.1 = some (next w))
    (ended : (ran w).1.stage.isOver = true) :
    w.poll frugal = ((ran w).1.stage.result, (ran w).2) :=
  World.poll_of_steps 16 claimed ended

theorem trials_wait {id : String} {n : Nat} {w v : World} (trials : Trials frugal id n w v)
    (ms : Int) : Trials frugal id n w (v.incur frugal (wait ms)) :=
  trials.beside _ nofun

/-- A job that was put off and then failed once, and is due. -/
theorem failedOnce_trials : Trials frugal (Identifier.ofNat 0) 1 locked failedOnce := by
  have first : (locked.housekeeping frugal.config).claim.1 = some (next locked) := by
    decide +kernel
  have second : (unlocked.housekeeping frugal.config).claim.1 = some (next unlocked) := by
    decide +kernel
  have busy := poll_eq first (by decide +kernel)
  have broken := poll_eq second (by decide +kernel)
  have off : locked.PutsOff frugal := by
    refine ⟨.lockBusy 4000, ?_, by decide⟩
    rw [busy]
    decide +kernel
  have waited : Trials frugal (Identifier.ofNat 0) 0 locked unlocked := by
    have trial : Trials frugal (Identifier.ofNat 0) 0 locked (locked.poll frugal).2 :=
      .putOff (next locked) (.start locked) first (by decide +kernel) off
    rw [busy] at trial
    exact trials_wait trial 1800001
  have trial := waited.failed (next unlocked) second (by decide +kernel)
    (fails_of_cutOff 9 (by decide +kernel))
  rw [broken] at trial
  exact trials_wait trial 5000

end Sample

theorem retry_runs_sample :
    let v := Sample.failedOnce
    (∃ j, v.db.jobs.job? (Identifier.ofNat 0) = some j ∧ j.status = .pending ∧
      j.attempts = 1 ∧ j.scheduledAt ≤ v.now) ∧
    ∃ k, (v.poll Sample.frugal).2.db.jobs.job? (Identifier.ofNat 0) = some k ∧
      k.status = .failed ∧ k.attempts = 2 := by
  have fresh : (Sample.locked.db.jobs.job? (Identifier.ofNat 0)).any
      (fun j => j.status = .pending && j.attempts = 0) = true := by decide +kernel
  obtain ⟨j₀, row, new⟩ := (Option.any_eq_true _ _).mp fresh
  simp only [Bool.and_eq_true, decide_eq_true_eq] at new
  obtain ⟨⟨j, found, attempts, status, claims, _⟩, _⟩ :=
    retry_runs Sample.frugal Sample.frugalText Sample.frugal_accepted 1000 [] {} _
      (Identifier.ofNat 0) j₀ row new.1 new.2 1 Sample.failedOnce Sample.failedOnce_trials
  obtain ⟨few, due, _, fails⟩ := claims (Sample.next Sample.failedOnce) (by decide +kernel)
    (by decide +kernel)
  obtain ⟨k, written, counted, last, _⟩ := fails (Sample.fails_of_cutOff 9 (by decide +kernel))
  obtain ⟨_, pending⟩ | ⟨full, _⟩ := status
  · exact ⟨⟨j, found, pending, attempts, due⟩, k, written, last rfl, counted⟩
  · exact absurd few (by rw [← full]; decide)

end IndexingPipeline
