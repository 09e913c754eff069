import IndexingPipeline.Proofs.Backlog
import IndexingPipeline.Proofs.Expiry

/-!
# Moments that are worked out from the clock

Seven settings are lengths of time, given in milliseconds or in seconds. A worker adds them to its
clock or takes them from it: that is until when a job waits and a lock lives, and since when a job,
a revision and an action have to be where they are to be given up. What is worked out is the true
moment as a signed word. Sums and products on the way may leave the range of words and come back,
but the moment is the true one exactly when a word can hold it. For a clock between 0 and 2^53 the
length alone decides that, and no length is refused for it when a configuration is read.
-/

namespace IndexingPipeline

theorem wrap64_inRange (n : Int) :
    -(Number.twoTo 63 : Int) ≤ wrap64 n ∧ wrap64 n < Number.twoTo 63 := by
  have size : Number.twoTo 64 = 18446744073709551616 := rfl
  have half : Number.twoTo 63 = 9223372036854775808 := rfl
  have low := Int.le_bmod (x := n) (m := Number.twoTo 64) (by decide)
  have high := Int.bmod_lt (x := n) (m := Number.twoTo 64) (by decide)
  unfold wrap64
  rw [size] at low high ⊢
  rw [half]
  omega

theorem wrap64_eq_iff {n : Int} :
    wrap64 n = n ↔ -(Number.twoTo 63 : Int) ≤ n ∧ n < Number.twoTo 63 := by
  constructor
  · intro same
    have range := wrap64_inRange n
    rwa [same] at range
  · exact fun range => wrap64_of_inRange range.1 range.2

theorem after_eq (now : Int) (delay : Nat) : after now delay = wrap64 (now + delay) :=
  Int.add_bmod_bmod

theorem before_eq (now : Int) (seconds : Nat) :
    before now seconds = wrap64 (now - (seconds * 1000 : Nat)) := by
  rw [before, millis, Int.natCast_mul]
  unfold wrap64
  rw [Int.bmod_mul_bmod, Int.sub_bmod_bmod]
  rfl

/-- In a configuration that is accepted a lock lives at least until its job is stale. -/
theorem Config.lock_of_check {cfg : Config} (accepted : cfg.check = .ok ()) :
    cfg.worker.visibilityTimeoutSeconds ≤ cfg.worker.lockTtlSeconds := by
  refine Nat.le_of_not_lt fun short => ?_
  unfold check at accepted
  rw [if_pos short] at accepted
  split at accepted
  · cases accepted
  split at accepted
  · cases accepted
  split at accepted
  · cases accepted
  split at accepted <;> cases accepted

theorem Config.check_of_read {text : String} {cfg : Config} (read : Config.read text = .ok cfg) :
    cfg.check = .ok () := by
  unfold Config.read at read
  split at read
  · cases read
  · split at read
    · cases read
    · rename_i checked
      rw [← Except.ok.inj read]
      exact checked

/-- A clock that shows a moment between the epoch and 2^53 milliseconds after it. -/
def OnClock (now : Int) : Prop := 0 ≤ now ∧ now ≤ Number.twoTo 53

instance : DecidablePred OnClock := fun _ => instDecidableAnd

/-- What is measured from the clock: until when a job waits that was put off, or has failed so often,
and until when a lock lives; since when a job has been claimed, a revision been open or an action
been under way that is given up. -/
inductive Lapse where
  | recheck
  | lockRetry
  | backoff (attempts : Nat)
  | lock
  | stale
  | abandoned
  | overdue
  deriving DecidableEq, Repr

namespace Lapse

variable (cfg : Config)

/-- The number that is configured, or follows from what is. -/
def setting : Lapse → Nat
  | .recheck => cfg.worker.pauseRecheckMs
  | .lockRetry => cfg.worker.lockRetryDelayMs
  | .backoff attempts => cfg.worker.backoff attempts
  | .lock => cfg.worker.lockTtlSeconds
  | .stale => cfg.worker.visibilityTimeoutSeconds
  | .abandoned => cfg.worker.lockTtlSeconds
  | .overdue => cfg.actions.timeoutSeconds

def unit : Lapse → Nat
  | .recheck => 1
  | .lockRetry => 1
  | .backoff _ => 1
  | _ => 1000

def length (l : Lapse) : Nat := l.setting cfg * l.unit

def isAhead : Lapse → Bool
  | .stale => false
  | .abandoned => false
  | .overdue => false
  | _ => true

/-- The moment that lies so far ahead of the clock, or behind it. -/
def exact (now : Int) (l : Lapse) : Int :=
  if l.isAhead then now + l.length cfg else now - l.length cfg

/-- The moment as a worker works it out. -/
def moment (now : Int) : Lapse → Int
  | .recheck => after now cfg.worker.pauseRecheckMs
  | .lockRetry => after now cfg.worker.lockRetryDelayMs
  | .backoff attempts => after now (cfg.worker.backoff attempts)
  | .lock => wrap64 (now + World.lockLifetime cfg)
  | .stale => before now cfg.worker.visibilityTimeoutSeconds
  | .abandoned => before now cfg.worker.lockTtlSeconds
  | .overdue => before now cfg.actions.timeoutSeconds

/-- A word can hold the moment, whatever the clock shows. -/
def Fits (l : Lapse) : Prop :=
  if l.isAhead then l.length cfg + Number.twoTo 53 < Number.twoTo 63
  else l.length cfg < Number.twoTo 63

instance (l : Lapse) : Decidable (l.Fits cfg) :=
  inferInstanceAs (Decidable (if l.isAhead then _ else _))

variable {cfg} {l : Lapse} {now : Int}

theorem fits_ahead (ahead : l.isAhead = true) :
    l.Fits cfg ↔ l.length cfg + Number.twoTo 53 < Number.twoTo 63 := by
  rw [Fits, if_pos ahead]

theorem fits_behind (behind : l.isAhead = false) :
    l.Fits cfg ↔ l.length cfg < Number.twoTo 63 := by
  rw [Fits, if_neg (Bool.eq_false_iff.mp behind)]

theorem unit_of_behind (behind : l.isAhead = false) : l.unit = 1000 := by
  cases l <;> first | rfl | cases behind

theorem setting_le_length (cfg : Config) (l : Lapse) : l.setting cfg ≤ l.length cfg :=
  Nat.le_mul_of_pos_right _ (by cases l <;> exact Nat.succ_pos _)

/-- What is worked out is the true moment, as a word. -/
theorem moment_eq (cfg : Config) (now : Int) (l : Lapse) :
    l.moment cfg now = wrap64 (l.exact cfg now) := by
  cases l with
  | recheck | lockRetry | backoff =>
    simp only [exact, isAhead, length, setting, unit, if_true, Nat.mul_one]
    exact after_eq _ _
  | lock =>
    unfold moment World.lockLifetime wrap64
    rw [Int.add_bmod_bmod]
    rfl
  | stale | abandoned | overdue => exact before_eq _ _

/-- The moments are true for as long as the clock shows one, if and only if a word can hold the
last of them. -/
theorem fits_iff (cfg : Config) (l : Lapse) :
    l.Fits cfg ↔ ∀ now, OnClock now → l.moment cfg now = l.exact cfg now := by
  have half : Number.twoTo 63 = 9223372036854775808 := rfl
  have clock : Number.twoTo 53 = 9007199254740992 := rfl
  simp only [moment_eq, wrap64_eq_iff, OnClock]
  cases direction : l.isAhead with
  | true =>
    simp only [fits_ahead direction, exact, direction, if_true, half, clock]
    constructor
    · intro short now on
      omega
    · intro held
      have last := held 9007199254740992 (by omega)
      omega
  | false =>
    simp only [fits_behind direction, exact, direction, Bool.false_eq_true, if_false, half, clock]
    have seconds : l.length cfg = l.setting cfg * 1000 :=
      congrArg (l.setting cfg * ·) (unit_of_behind direction)
    constructor
    · intro short now on
      omega
    · intro held
      have first := held 0 (by omega)
      omega

theorem Fits.exact_of (fits : l.Fits cfg) (on : OnClock now) :
    l.moment cfg now = l.exact cfg now := (fits_iff cfg l).mp fits now on

theorem exact_ahead (ahead : l.isAhead = true) : l.exact cfg now = now + l.length cfg := by
  rw [exact, if_pos ahead]

theorem Fits.length_lt (fits : l.Fits cfg) : l.length cfg < Number.twoTo 63 := by
  unfold Fits at fits
  split at fits <;> omega

/-- Nothing on the way to such a moment leaves the range of words. -/
theorem Fits.words (fits : l.Fits cfg) :
    wrap64 (l.setting cfg) = l.setting cfg ∧ wrap64 (l.length cfg) = l.length cfg := by
  have half : Number.twoTo 63 = 9223372036854775808 := rfl
  have short := fits.length_lt
  have shorter := setting_le_length cfg l
  rw [wrap64_eq_iff, wrap64_eq_iff, half] at *
  omega

/-- In a configuration that is accepted a job is not stale before its lock has expired, and no job
waits longer than the longest backoff: the other lengths follow these five. -/
theorem fits_of_check (accepted : cfg.check = .ok ()) (recheck : Lapse.recheck.Fits cfg)
    (lockRetry : Lapse.lockRetry.Fits cfg)
    (backoff : cfg.worker.backoffMaxMs + Number.twoTo 53 < Number.twoTo 63)
    (lock : Lapse.lock.Fits cfg) (overdue : Lapse.overdue.Fits cfg) (l : Lapse) :
    l.Fits cfg := by
  cases l with
  | recheck => exact recheck
  | lockRetry => exact lockRetry
  | backoff attempts =>
    have longest := cfg.worker.backoff_le attempts
    have length : (Lapse.backoff attempts).length cfg = cfg.worker.backoff attempts :=
      Nat.mul_one _
    rw [fits_ahead rfl, length]
    omega
  | lock => exact lock
  | stale =>
    rw [fits_behind rfl]
    exact Nat.lt_of_le_of_lt (Nat.mul_le_mul_right 1000 (Config.lock_of_check accepted)) lock.length_lt
  | abandoned => exact (fits_behind rfl).mpr lock.length_lt
  | overdue => exact overdue

end Lapse

/-! ## Until when a job waits -/

def Outcome.wait? : Outcome → Option (Lapse × Int)
  | .paused moment => some (.recheck, moment)
  | .lockBusy moment => some (.lockRetry, moment)
  | .retrying attempts moment => some (.backoff attempts, moment)
  | _ => none

theorem Outcome.isAhead_of_wait? {outcome : Outcome} {l : Lapse} {moment : Int}
    (waits : outcome.wait? = some (l, moment)) : l.isAhead = true := by
  cases outcome <;> cases waits <;> rfl

def Stage.wait? : Stage → Option (Lapse × Int)
  | .deferring outcome _ _ => outcome.wait?
  | .refreshing outcome => outcome.wait?
  | .releasing outcome => outcome.wait?
  | .finished outcome => outcome.wait?
  | _ => none

namespace Run

variable {s : Setup} {r r' : Run} {w w' : World} {l : Lapse} {moment : Int}

/-- Every move leaves until when the job waits as it was, and the clock with it, or works it out
from the clock. -/
theorem Move.wait_measured (m : Move s r w r' w')
    (before : ∀ l moment, r.stage.wait? = some (l, moment) → moment = l.moment s.config w.now)
    (waits : r'.stage.wait? = some (l, moment)) : moment = l.moment s.config w'.now := by
  cases m with
  | paused | busy =>
    cases waits
    rfl
  | retried e attempts later jobs _ retry =>
    cases waits
    unfold Queue.retry at retry
    simp only at retry
    split at retry
    · cases retry
    · cases retry
      rfl
  | @refreshed _ holder => cases holder <;> exact before _ _ waits
  | deferred | released | unlocked => exact before _ _ waits
  | _ => cases waits

theorem complete_measured (s : Setup) (job : Job) (w : World)
    (waits : (complete s (.start job) w).1.stage.wait? = some (l, moment)) :
    moment = l.moment s.config (complete s (.start job) w).2.now := by
  refine complete_keeps (I := fun r w => ∀ l moment, r.stage.wait? = some (l, moment) →
    moment = l.moment s.config w.now) ?_ (.start job) w nofun l moment waits
  exact fun _ _ _ _ before m _ _ waits => m.wait_measured before waits

end Run

/-- A job that is put back waits in its row as its outcome says. -/
theorem Recorded.waits {s : Setup} {job : Job} {w₀ w : World} {outcome : Outcome} {l : Lapse}
    {moment : Int} (recorded : Recorded s job w₀ w outcome)
    (waits : outcome.wait? = some (l, moment)) :
    JobRow w job fun j => j.status = .pending ∧ j.scheduledAt = moment := by
  cases outcome with
  | paused | lockBusy =>
    cases waits
    obtain ⟨⟨j, row, pending, due, _⟩, _⟩ := recorded
    exact ⟨j, row, pending, due⟩
  | retrying =>
    cases waits
    obtain ⟨⟨j, row, pending, _, due⟩, _⟩ := recorded
    exact ⟨j, row, pending, due⟩
  | completed | failed => cases waits

namespace World

variable {s : Setup} {w : World}

/-- A poll that puts its job back has worked out from the clock until when it waits. -/
theorem poll_measured (sound : w.Sound) {outcome : Outcome} {l : Lapse} {moment : Int}
    (ran : (w.poll s).1 = .ran outcome) (waits : outcome.wait? = some (l, moment)) :
    moment = l.moment s.config (w.poll s).2.now ∧
      ∃ job, (w.housekeeping s.config).claim.1 = some job ∧
        JobRow (w.poll s).2 job fun j => j.status = .pending ∧ j.scheduledAt = moment := by
  rcases w.poll_cases s with ⟨_, idle⟩ | ⟨job, claimed, world, outcomes⟩
  · rw [idle] at ran
    cases ran
  have tidy := (w.housekeeping_around s.config).sound sound
  obtain ⟨row, busy⟩ := claim_claimed _ tidy claimed
  have processed := outcomes outcome ran
  have recorded := (process_recorded s _ job outcome ((claim_around _).sound tidy) row busy
    processed).1
  rw [process_world, ← world] at recorded
  refine ⟨?_, job, claimed, recorded.waits waits⟩
  rw [world]
  refine Run.complete_measured s job _ ?_
  rw [process_finished processed]
  exact waits

/-! ## What a worker does with its moments -/

/-- What the moments decide is decided as the true ones do: until when a job waits that is put back,
until when a lock lives, and which jobs, revisions and actions are given up. -/
structure Punctual (s : Setup) (w : World) : Prop where
  waits : ∀ outcome (l : Lapse) moment, (w.poll s).1 = .ran outcome →
    outcome.wait? = some (l, moment) → l.Fits s.config → OnClock (w.poll s).2.now →
    moment = (w.poll s).2.now + l.length s.config ∧
      ∃ job, (w.housekeeping s.config).claim.1 = some job ∧
        JobRow (w.poll s).2 job fun j => j.status = .pending ∧ j.scheduledAt = moment
  locks : Lapse.lock.Fits s.config → OnClock w.now → ∀ workspace document holder,
    (w.acquire (lockLifetime s.config) workspace document).1 = some holder →
    (w.acquire (lockLifetime s.config) workspace document).2.db.locks.lock? workspace document =
      some ⟨workspace, document, holder, w.now + s.config.worker.lockTtlSeconds * 1000⟩
  jobs : Lapse.stale.Fits s.config → OnClock w.now →
    (w.housekeeping s.config).db.jobs = w.db.jobs.map fun j =>
      if j.status = .processing ∧ ∃ t, j.claimedAt = some t ∧
          t ≤ w.now - s.config.worker.visibilityTimeoutSeconds * 1000
      then Queue.recovered s.config.worker w.now j else j
  revisions : Lapse.abandoned.Fits s.config → OnClock w.now →
    (w.housekeeping s.config).db.revisions = (w.db.revisions.failAbandoned w.db.documents w.now
      (w.now - s.config.worker.lockTtlSeconds * 1000)).2
  actions : Lapse.overdue.Fits s.config → OnClock w.now →
    (w.housekeeping s.config).db.actions = (Actions.refreshAll s.config.actions
      (w.housekeeping s.config).db.jobs w.now 0 w.db.actions
      (w.db.actions.filter fun a => a.IsLate s.config.actions w.now)).2 ∧
    ∀ a : Action, OnClock a.processingSince → (a.isOverdue s.config.actions w.now = true ↔
      (s.config.actions.timeoutSeconds * 1000 : Int) < w.now - a.processingSince)

theorem Sound.punctual (sound : w.Sound) (s : Setup) : w.Punctual s where
  waits := by
    intro outcome l moment ran waits fits on
    obtain ⟨measured, row⟩ := poll_measured sound ran waits
    refine ⟨?_, row⟩
    rw [measured, fits.exact_of on]
    exact Lapse.exact_ahead (Outcome.isAhead_of_wait? waits)
  locks := by
    intro fits on workspace document holder taken
    have expiry : wrap64 (w.now + lockLifetime s.config) =
        w.now + s.config.worker.lockTtlSeconds * 1000 := fits.exact_of on
    rw [locks_acquired taken, expiry]
  jobs := by
    intro fits on
    have cutoff : before w.now s.config.worker.visibilityTimeoutSeconds =
        w.now - s.config.worker.visibilityTimeoutSeconds * 1000 := fits.exact_of on
    refine List.map_congr_left fun j _ => ?_
    unfold Queue.isStale
    rw [cutoff]
    simp [Option.any_eq_true]
  revisions := by
    intro fits on
    have cutoff : before w.now s.config.worker.lockTtlSeconds =
        w.now - s.config.worker.lockTtlSeconds * 1000 := fits.exact_of on
    rw [← cutoff]
    rfl
  actions := by
    intro fits on
    have short : s.config.actions.timeoutSeconds * 1000 < Number.twoTo 63 := fits.length_lt
    have cutoff : before w.now s.config.actions.timeoutSeconds =
        w.now - s.config.actions.timeoutSeconds * 1000 := fits.exact_of on
    constructor
    · have late : Actions.isExpired s.config.actions w.now =
          fun a => decide (a.IsLate s.config.actions w.now) := by
        funext a
        rw [Actions.isExpired, cutoff]
        unfold Action.IsLate
        exact (Bool.decide_and _ _).symm
      rw [← late]
      rfl
    · intro a since
      have half : Number.twoTo 63 = 9223372036854775808 := rfl
      have clock : Number.twoTo 53 = 9007199254740992 := rfl
      unfold OnClock at on since
      rw [clock] at on since
      exact Action.isOverdue_iff short (by rw [half]; omega) (by rw [half]; omega)

end World

/-- Whatever is configured, and for each length of time by itself: the moments that are worked out
from a clock between 0 and 2^53 are the true ones if and only if a word can hold the last of them,
and then nothing leaves the range of words on the way either. As far as that is so, in any history
jobs wait and locks live exactly as long as is configured, and exactly those jobs, revisions and
actions are given up that are older than is configured. When a configuration is accepted five of the
lengths are enough for all. -/
theorem moments_exact (s : Setup) :
    (∀ l : Lapse, l.Fits s.config ↔
      ∀ now, OnClock now → l.moment s.config now = l.exact s.config now) ∧
    (∀ l : Lapse, l.Fits s.config →
      wrap64 (l.setting s.config) = l.setting s.config ∧
      wrap64 (l.length s.config) = l.length s.config) ∧
    (∀ w : World, w.Sound → w.Punctual s) ∧
    ∀ text, Config.read text = .ok s.config →
      Lapse.recheck.Fits s.config → Lapse.lockRetry.Fits s.config →
      s.config.worker.backoffMaxMs + Number.twoTo 53 < Number.twoTo 63 →
      Lapse.lock.Fits s.config → Lapse.overdue.Fits s.config →
      ∀ l : Lapse, l.Fits s.config := by
  refine ⟨Lapse.fits_iff s.config, fun _ fits => fits.words, fun _ sound => sound.punctual s, ?_⟩
  exact fun _ accepted => Lapse.fits_of_check (Config.check_of_read accepted)

namespace Sample

/-- A lock is meant to live for half a billion years, which is 2^64 + 384 milliseconds. -/
def fleeting : Config :=
  { setup.config with worker := { lockTtlSeconds := 18446744073709552 } }

end Sample

/-- A job whose document is locked waits for three seconds. -/
theorem moments_exact_sample :
    let after := (Sample.locked.poll Sample.frugal).2
    (∀ l : Lapse, l.Fits Sample.frugal.config) ∧ OnClock after.now ∧
      (Sample.locked.poll Sample.frugal).1 = .ran (.lockBusy 4000) ∧
      4000 = after.now + (Lapse.lockRetry.length Sample.frugal.config : Int) := by
  intro after
  obtain ⟨_, _, punctual, enough⟩ := moments_exact Sample.frugal
  have fits := enough Sample.frugalText Sample.frugal_accepted (by decide) (by decide) (by decide)
    (by decide) (by decide)
  have polled := Sample.poll_eq (w := Sample.locked) (by decide +kernel) (by decide +kernel)
  have ran : (Sample.locked.poll Sample.frugal).1 = .ran (.lockBusy 4000) := by
    rw [polled]
    decide +kernel
  have on : OnClock after.now := by
    simp only [after, polled]
    decide +kernel
  have sound : Sample.locked.Sound := ((Crew.initial_good 1000 [] {}).play _).1.sound
  exact ⟨fits, on, ran, ((punctual _ sound).waits _ _ _ ran rfl (fits _) on).1⟩

/-- A time to live that is accepted: the lock expires before half a second is over. -/
theorem lifetime_wraps :
    let now := 1700000000000
    let taken := (World.initial now [] {}).acquire (World.lockLifetime Sample.fleeting) "w" "d"
    Sample.fleeting.check = .ok () ∧ OnClock now ∧
      Lapse.lock.exact Sample.fleeting now = now + 18446744073709552000 ∧
      Lapse.lock.moment Sample.fleeting now = now + 384 ∧
      taken.1 = some (Identifier.ofNat 0) ∧
      taken.2.db.locks.isHeld (now + 384) "w" "d" = false := by
  exact ⟨by decide, by decide +kernel⟩

end IndexingPipeline
