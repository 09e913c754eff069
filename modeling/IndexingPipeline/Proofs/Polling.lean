import Mathlib.Algebra.GroupWithZero.Nat
import IndexingPipeline.Proofs.Notice
import IndexingPipeline.Proofs.Retries

/-!
# Polling until nothing is due

A worker that is to drain the queue polls again as long as jobs get somewhere. A job that is put
back may be due again at once, and dead workers' jobs keep coming back, so that neither the length
of the queue nor the clock says that this ends. What goes down is how often all jobs together can
still be executed: looking after dead workers never raises it, a claim keeps it, and every outcome
that lets the worker go on has used up an execution of the job that was claimed. Nothing else is
written to the rows of jobs when nobody asks for a version meanwhile. The count of a job's failures
stays below the end of its word as long as the job waits or is under way, in every database that was
empty once.
-/

namespace IndexingPipeline

open World (attemptsLeft executionsLeft)

def Interference.asks : Interference → Bool
  | .submit _ _ _ _ _ => true
  | _ => false

namespace Job

variable {j : Job} (cfg : Config)

theorem executionsLeft_active (active : j.isActive = true) :
    executionsLeft cfg j = attemptsLeft cfg j.attempts := by
  rcases isActive_iff.mp active with status | status <;> simp only [executionsLeft, status]

theorem executionsLeft_ended (ended : j.isActive = false) : executionsLeft cfg j = 0 := by
  cases status : j.status with
  | pending | processing => simp [isActive, status] at ended
  | completed | failed => simp only [executionsLeft, status]

theorem executionsLeft_taken (now : Int) (waits : j.status = .pending) :
    executionsLeft cfg (j.taken now) = executionsLeft cfg j := by
  simp only [executionsLeft, taken, waits]

end Job

theorem attemptsLeft_pos (cfg : Config) (attempts : Nat) : 0 < attemptsLeft cfg attempts := by
  unfold attemptsLeft
  split <;> omega

namespace Queue

variable {cfg : Config} {q : Queue} {id : String} {j : Job} {f : Job → Job}

/-- How often the jobs can still be executed. -/
def executions (cfg : Config) (q : Queue) : Nat := (q.map (executionsLeft cfg)).sum

/-- Another failed execution of a job that waits or is under way can be counted. -/
def Countable (q : Queue) : Prop :=
  ∀ j ∈ q, j.isActive = true → j.attempts + 1 < Number.twoTo 32

instance (q : Queue) : Decidable q.Countable := inferInstanceAs (Decidable (∀ j ∈ q, _))

theorem executions_eq (counted : q.Countable) :
    q.executions cfg = ((q.filter (·.isActive)).map fun j =>
      max 1 (cfg.worker.maxAttempts - j.attempts)).sum := by
  induction q with
  | nil => rfl
  | cons j rest ih =>
    have others := ih fun k behind => counted k (List.mem_cons_of_mem j behind)
    have here := counted j List.mem_cons_self
    rw [executions, List.map_cons, List.sum_cons, ← executions, others]
    by_cases active : j.isActive = true
    · rw [List.filter_cons_of_pos active, List.map_cons, List.sum_cons,
        Job.executionsLeft_active cfg active, attemptsLeft, if_pos (here active)]
    · rw [List.filter_cons_of_neg active,
        Job.executionsLeft_ended cfg (Bool.eq_false_iff.mpr active), Nat.zero_add]

theorem executions_map_le (less : ∀ j, executionsLeft cfg (f j) ≤ executionsLeft cfg j) :
    executions cfg (q.map f) ≤ q.executions cfg := by
  induction q with
  | nil => exact Nat.le_refl _
  | cons j rest ih => exact Nat.add_le_add (less j) ih

/-- Changing the row of one job changes the sum by what it changes there. -/
theorem executions_update (cfg : Config) (f : Job → Job) (once : q.ids.Nodup)
    (found : q.job? id = some j) :
    executions cfg (q.update id f) + executionsLeft cfg j =
      q.executions cfg + executionsLeft cfg (f j) := by
  induction q with
  | nil => cases found
  | cons k rest ih =>
    rw [ids, List.map_cons, List.nodup_cons] at once
    by_cases here : k.id = id
    · obtain rfl : k = j := by simpa [job?, here] using found
      have others : update rest id f = rest := update_absent fun x later same =>
        once.1 (List.mem_map.mpr ⟨x, later, same.trans here.symm⟩)
      have made : update (k :: rest) id f = f k :: rest :=
        List.cons_eq_cons.mpr ⟨if_pos here, others⟩
      simp only [made, executions, List.map_cons, List.sum_cons]
      omega
    · have later : job? rest id = some j := by simpa [job?, here] using found
      have made : update (k :: rest) id f = k :: update rest id f :=
        List.cons_eq_cons.mpr ⟨if_neg here, rfl⟩
      have sum := ih once.2 later
      simp only [made, executions, List.map_cons, List.sum_cons] at sum ⊢
      omega

namespace Countable

variable (countable : q.Countable)
include countable

theorem update
    (made : ∀ j ∈ q, j.id = id → (f j).isActive = true → (f j).attempts + 1 < Number.twoTo 32) :
    (q.update id f).Countable := by
  intro k member active
  rcases mem_update member with old | ⟨j, old, own, rfl⟩
  · exact countable k old active
  · exact made j old own active

theorem enqueue (now : Int) (newId workspace base document version : String) :
    (q.enqueue now newId workspace base document version).2.Countable := by
  rcases q.enqueue_cases now newId workspace base document version with
    ⟨_, _, pointed⟩ | ⟨_, added⟩
  · rw [pointed]
    exact countable.update fun j member _ active => countable j member active
  · rw [added]
    intro k member active
    rcases List.mem_append.mp member with old | new
    · exact countable k old active
    · obtain rfl := List.mem_singleton.mp new
      change 0 + 1 < Number.twoTo 32
      decide

theorem claim (once : q.ids.Nodup) (now : Int) : (q.claim now).2.Countable := by
  rcases q.claim_cases now with nothing | ⟨k, there, waits, _, taken⟩
  · rw [nothing]
    exact countable
  · rw [taken]
    refine countable.update fun j member same _ => ?_
    obtain rfl := List.inj_on_of_nodup_map once member there same
    exact countable j member (Job.isActive_iff.mpr (.inl waits))

end Countable

end Queue

section Attempts

variable {cfg : Config} (small : cfg.worker.maxAttempts < Number.twoTo 32)
include small

/-- Looking after a dead worker's job does not let it be executed more often. -/
theorem Queue.executionsLeft_tended (now : Int) (j : Job) :
    executionsLeft cfg (tended cfg.worker now j) ≤ executionsLeft cfg j := by
  rw [tended]
  split
  · rename_i stale
    have busy := processing_of_isStale stale
    rcases recovered_cases cfg.worker now j with ⟨_, made⟩ | ⟨left, made⟩
    · rw [made]
      exact Nat.zero_le _
    · rw [made]
      simp only [executionsLeft, busy, attemptsLeft]
      rw [if_pos (by omega), if_pos (by omega)]
      omega
  · exact Nat.le_refl _

/-- A dead worker's job is put back only while it has attempts left. -/
theorem Queue.Countable.tended {q : Queue} (countable : q.Countable) (now : Int) :
    Queue.Countable (q.map (Queue.tended cfg.worker now)) := by
  intro k member active
  obtain ⟨j, old, rfl⟩ := List.mem_map.mp member
  have before := countable j old
  rw [Queue.tended] at active ⊢
  split
  · rename_i stale
    rw [if_pos stale] at active
    rcases recovered_cases cfg.worker now j with ⟨_, made⟩ | ⟨left, made⟩
    · rw [made] at active
      cases active
    · rw [made]
      exact Nat.lt_of_le_of_lt left small
  · rename_i fresh
    rw [if_neg fresh] at active
    exact before active

theorem Verdict.row_countable {job j : Job} (before : j.attempts + 1 < Number.twoTo 32) (now : Int)
    (v : Verdict) (active : (v.row cfg.worker now job j).isActive = true) :
    (v.row cfg.worker now job j).attempts + 1 < Number.twoTo 32 := by
  cases v with
  | retry reason =>
    rcases row_retry cfg.worker now job j reason with ⟨_, made⟩ | ⟨left, made⟩
    · rw [made] at active
      cases active
    · rw [made]
      exact Nat.lt_of_le_of_lt left small
  | completed | failed | reschedule => exact before

/-- A failed execution that is counted leaves one less, also when the count begins anew. -/
theorem attemptsLeft_counted {attempts : Nat}
    (left : wrapU32 (attempts + 1) < cfg.worker.maxAttempts) :
    attemptsLeft cfg (wrapU32 (attempts + 1)) < attemptsLeft cfg attempts := by
  by_cases fits : attempts + 1 < Number.twoTo 32
  · rw [wrapU32_of_lt fits] at left ⊢
    rw [attemptsLeft, attemptsLeft, if_pos (by omega), if_pos fits]
    omega
  · rw [attemptsLeft, attemptsLeft, if_pos (by omega), if_neg fits]
    omega

end Attempts

namespace World

variable {s : Setup} {w v u : World} {job : Job}

/-- Nobody asks for a version to be indexed while a provider is at work. -/
def Unasked (s : Setup) (w : World) : Prop :=
  s.remoteEmbedder = true ∨ ∀ t ∈ w.usualTurn :: w.turns, ∀ i ∈ t.meanwhile, i.asks = false

theorem Unasked.embed (h : w.Unasked s) (p : Provider) (token : Option String) (text : String) :
    (w.embed s p token text).2.db.jobs = w.db.jobs := by
  rcases h with remote | silent
  · rw [World.embed, if_pos remote]
  · refine embed_preserves (I := fun v => v.db.jobs = w.db.jobs) s w p token text (fun _ => rfl)
      rfl fun v i member same => ?_
    have quiet := silent _ w.next_turn_mem i member
    cases i with
    | submit => cases quiet
    | advance | control | lock => exact same

/-- The rows of jobs can be changed by a run that nobody disturbs in one place alone. -/
theorem Unasked.complete (h : w.Unasked s) (job : Job) :
    let done := (Run.complete s (.start job) w).2
    done.Unasked s ∧ ∃ f : Job → Job, (∀ j, (f j).id = j.id) ∧
      done.db.jobs = w.db.jobs.update job.id f := by
  have kept := Run.complete_keeps (s := s)
    (I := fun r v => r.job = job ∧ v.Unasked s ∧ ∃ f : Job → Job, (∀ j, (f j).id = j.id) ∧
      v.db.jobs = w.db.jobs.update job.id f) ?_ (.start job) w ?_
  · exact kept.2
  · rintro r v r' v' ⟨own, unasked, f, keeps, made⟩ m
    refine ⟨m.same_job.trans own, unasked.imp_right m.each_turn, ?_⟩
    rcases m.jobs_moves with ⟨verdict, reported⟩ | ⟨p, token, text, beside⟩ | same
    · refine ⟨verdict.row s.config.worker v.now job ∘ f, fun j => ?_, ?_⟩
      · exact (verdict.row_id _ _ _ _).trans (keeps j)
      · rw [reported, verdict.write_eq, own, made, Queue.update_update _ _ keeps]
    · exact ⟨f, keeps, beside.trans ((unasked.embed p token text).trans made)⟩
    · exact ⟨f, keeps, same.trans made⟩
  · refine ⟨rfl, h, id, fun _ => rfl, ?_⟩
    simp [Queue.update]

theorem interfere_countable (cfg : Config) {w : World} (countable : w.db.jobs.Countable)
    (i : Interference) : (w.interfere cfg i).db.jobs.Countable := by
  cases i with
  | submit => exact countable.enqueue _ _ _ _ _ _
  | advance | control | lock => exact countable

end World

/-- A report on a job comes while its row is still as it was claimed. -/
theorem Run.Move.countable {s : Setup} {job : Job} {w₀ w w' : World} {r r' : Run}
    (m : Move s r w r' w') (h : Abreast s job w₀ r w) (busy : job.status = .processing)
    (small : s.config.worker.maxAttempts < Number.twoTo 32) (countable : w.db.jobs.Countable) :
    w'.db.jobs.Countable := by
  obtain rfl := h.same_job
  have reported : ∀ v : Verdict, w.db.jobs.job? r.job.id = some r.job →
      (v.write s.config.worker w.now r.job w.db.jobs).Countable := by
    intro v row
    obtain ⟨there, _⟩ := Queue.mem_of_job? row
    rw [v.write_eq]
    refine countable.update fun j member same active => ?_
    obtain rfl := List.inj_on_of_nodup_map h.sound.jobs_once member there same
    exact v.row_countable small
      (countable _ member (Job.isActive_iff.mpr (.inr busy))) w.now active
  have row := h.row
  have kept := m.jobs_kept
  cases m with
  | deferred outcome moment reason => exact reported (.reschedule moment reason) (row rfl)
  | switched => exact reported .completed (row rfl)
  | retried e _ _ jobs _ retry | exhausted e _ jobs _ retry =>
    have written := reported (.retry e.message) (row rfl)
    rwa [Verdict.write, retry] at written
  | final e => exact reported (.failed e.message) (row rfl)
  | kept | mismatched | unembedded | unaccepted =>
    exact World.embed_preserves (I := fun v => v.db.jobs.Countable) s w _ _ _ (fun _ => countable)
      countable fun _ i _ before => World.interfere_countable s.config before i
  | vanished => exact countable
  | _ => exact kept (by simp [Stage.writes]) ▸ countable

namespace World

/-- Whatever happens, failed executions can be counted afterwards too. -/
theorem countable_incur {s : Setup} {w : World} (sound : w.Sound)
    (small : s.config.worker.maxAttempts < Number.twoTo 32) (countable : w.db.jobs.Countable)
    (x : Incident) : (w.incur s x).db.jobs.Countable := by
  have tidy := (w.housekeeping_around s.config).sound sound
  have claimed : (w.housekeeping s.config).claim.2.db.jobs.Countable :=
    (countable.tended small w.now).claim tidy.jobs_once w.now
  have attended := attend_keeps (s := s) (w := w) (J := fun v => v.db.jobs.Countable)
    (I := fun r v => ∃ job, job.status = .processing ∧
      Run.Abreast s job (w.housekeeping s.config).claim.2 r v ∧ v.db.jobs.Countable)
    claimed ?_ ?_ (fun _ _ h => h.choose_spec.2.2)
  · cases x with
    | death n => exact attended.2 n
    | op o =>
      change (w.perform s o).db.jobs.Countable
      cases o with
      | poll => exact attended.1
      | enqueue => exact countable.enqueue _ _ _ _ _ _
      | interfere i => exact interfere_countable s.config countable i
      | sweep =>
        have db := (w.sweepAll_kept (s := s) ⟨0, 0, 0⟩ w.db.documents.indexed).1
        exact congrArg Database.jobs db ▸ countable
      | put | start | inject | outside => exact countable
  · intro job found
    obtain ⟨row, busy⟩ := claim_claimed _ tidy found
    exact ⟨job, busy, .start s ((claim_around _).sound tidy) row, claimed⟩
  · rintro r v r' v' ⟨job, busy, abreast, before⟩ m
    exact ⟨job, busy, abreast.move m (by simp [busy]), m.countable abreast busy small before⟩

/-- A history has led to this world. -/
def Reached (s : Setup) (w : World) : Prop :=
  ∃ now env peer xs, w = (World.initial now env peer).incurAll s xs

/-- A database that was empty never holds a job of which another failure cannot be counted. -/
theorem Reached.countable {s : Setup} {w : World} (reached : w.Reached s)
    (small : s.config.worker.maxAttempts < Number.twoTo 32) :
    w.Sound ∧ w.db.jobs.Countable := by
  obtain ⟨now, env, peer, xs, rfl⟩ := reached
  have onward : ∀ (xs : List Incident) (w : World), w.Sound → w.db.jobs.Countable →
      (w.incurAll s xs).Sound ∧ (w.incurAll s xs).db.jobs.Countable := by
    intro xs
    induction xs with
    | nil => exact fun _ sound countable => ⟨sound, countable⟩
    | cons x rest ih =>
      exact fun w sound countable =>
        ih (w.incur s x) (sound.incur s x) (countable_incur sound small countable x)
  exact onward xs _ (initial_sound now env peer) fun _ member => absurd member List.not_mem_nil

end World

theorem Queue.executions_claim (cfg : Config) {q : Queue} {now : Int} {job : Job}
    (once : q.ids.Nodup) (claimed : (q.claim now).1 = some job) :
    executions cfg (q.claim now).2 = q.executions cfg := by
  obtain ⟨j, found, waits, -, -, made⟩ := claim_due once claimed
  have sum := executions_update cfg (Job.taken now) once found
  rw [Job.executionsLeft_taken cfg now waits] at sum
  rw [made]
  exact Nat.add_right_cancel sum

/-- An outcome that lets the worker go on leaves one execution less. -/
theorem Recorded.executionsLeft_lt {s : Setup} {job k : Job} {w₀ w : World} {outcome : Outcome}
    (recorded : Recorded s job w₀ w outcome) (handled : outcome.isHandled = true)
    (found : w.db.jobs.job? job.id = some k) (busy : job.status = .processing)
    (small : s.config.worker.maxAttempts < Number.twoTo 32) :
    executionsLeft s.config k < executionsLeft s.config job := by
  rw [Job.executionsLeft_active _ (Job.isActive_iff.mpr (.inr busy))]
  cases outcome with
  | completed | failed =>
    obtain ⟨⟨j, row, ended, _⟩, _⟩ := recorded
    obtain rfl := Option.some.inj (found.symm.trans row)
    rw [Job.executionsLeft_ended _ (by simp [Job.isActive, ended])]
    exact attemptsLeft_pos _ _
  | retrying attempts moment =>
    obtain ⟨⟨j, row, waits, same, _⟩, counted, left, _⟩ := recorded
    obtain rfl := Option.some.inj (found.symm.trans row)
    rw [Job.executionsLeft_active _ (Job.isActive_iff.mpr (.inl waits)), same, counted]
    exact attemptsLeft_counted small (counted ▸ left)
  | lockBusy | paused => cases handled

namespace World

variable {s : Setup} {w v u : World}

/-- A queue that nobody writes to but a worker that drains it. -/
structure Unattended (s : Setup) (w : World) : Prop where
  sound : w.Sound
  unasked : w.Unasked s

/-- A poll that lets the worker go on has used up an execution. -/
theorem Unattended.poll (h : w.Unattended s) (small : s.config.worker.maxAttempts < Number.twoTo 32)
    {outcome : Outcome} (polled : w.poll s = (.ran outcome, v))
    (handled : outcome.isHandled = true) :
    v.Unattended s ∧ v.db.jobs.executions s.config < w.db.jobs.executions s.config := by
  have after : (w.poll s).2.Sound := h.sound.incur s (.op .poll)
  rcases w.poll_cases s with ⟨_, idle⟩ | ⟨job, claimed, world, outcomes⟩
  · rw [idle] at polled
    cases polled
  -- when dead workers have been looked after
  have tidy := (w.housekeeping_around s.config).sound h.sound
  have mended : (w.housekeeping s.config).db.jobs.executions s.config ≤
      w.db.jobs.executions s.config :=
    Queue.executions_map_le (Queue.executionsLeft_tended small w.now)
  -- when the job is claimed
  have sound := (claim_around _).sound tidy
  obtain ⟨row, busy⟩ := claim_claimed _ tidy claimed
  have same : (w.housekeeping s.config).claim.2.db.jobs.executions s.config =
      (w.housekeeping s.config).db.jobs.executions s.config :=
    Queue.executions_claim s.config tidy.jobs_once claimed
  -- when its run is over
  have unasked : (w.housekeeping s.config).claim.2.Unasked s := h.unasked
  obtain ⟨unasked', f, keeps, made⟩ := unasked.complete job
  have ended : (w.poll s).2.db.jobs.job? job.id = some (f job) := by
    rw [world, made, Queue.job?_update keeps, row, Option.map_some]
  have recorded := (process_recorded s _ job outcome sound row busy
    (outcomes outcome (congrArg Prod.fst polled))).1
  rw [process_world, ← world] at recorded
  have fewer := recorded.executionsLeft_lt handled ended busy small
  have sum := Queue.executions_update s.config f sound.jobs_once row
  obtain rfl : (w.poll s).2 = v := congrArg Prod.snd polled
  rw [world] at after ⊢
  refine ⟨⟨after, unasked'⟩, ?_⟩
  rw [made]
  omega

/-- The same world when the clock has gone on, or was set back. -/
def later (w : World) (ms : Int) : World := { w with now := w.now + ms }

/-- Polls, one after another, until nothing is due, a job gets nowhere, or something that nothing
handles stops the worker: how long it is until each of them, what they come to, and what is left. -/
inductive Drains (s : Setup) : World → List Int → List Outcome → Bool → World → Prop
  | idle {w v pause} : (w.later pause).poll s = (.idle, v) → Drains s w [pause] [] false v
  | crashed {w v pause} : (w.later pause).poll s = (.crashed, v) → Drains s w [pause] [] true v
  | deferred {w v pause outcome} : (w.later pause).poll s = (.ran outcome, v) →
      outcome.isHandled = false → Drains s w [pause] [outcome] false v
  | handled {w v u pause pauses outcome outcomes stopped} :
      (w.later pause).poll s = (.ran outcome, v) → outcome.isHandled = true →
      Drains s v pauses outcomes stopped u →
      Drains s w (pause :: pauses) (outcome :: outcomes) stopped u

variable {pauses : List Int} {outcomes : List Outcome} {stopped : Bool}

/-- As many polls as it takes are enough, when no time passes between them. -/
theorem Drains.within (drains : w.Drains s pauses outcomes stopped u)
    (still : ∀ pause ∈ pauses, pause = 0) {bound : Nat} (enough : pauses.length ≤ bound) :
    w.drainWithin s bound = (outcomes, stopped, u) := by
  have now : ∀ w : World, w.later 0 = w := fun w => by rw [later, Int.add_zero]
  induction drains generalizing bound with
  | idle polled | crashed polled =>
    obtain ⟨bound, rfl⟩ : ∃ k, bound = k + 1 := Nat.exists_eq_add_of_le' enough
    rw [still _ List.mem_cons_self, now] at polled
    rw [drainWithin, polled]
  | deferred polled unhandled =>
    obtain ⟨bound, rfl⟩ : ∃ k, bound = k + 1 := Nat.exists_eq_add_of_le' enough
    rw [still _ List.mem_cons_self, now] at polled
    simp [drainWithin, polled, unhandled]
  | handled polled handled _ ih =>
    obtain ⟨bound, rfl⟩ := Nat.exists_eq_add_of_le' (Nat.le_trans (Nat.le_add_left 1 _) enough)
    rw [still _ List.mem_cons_self, now] at polled
    have rest := ih (fun pause behind => still pause (List.mem_cons_of_mem _ behind))
      (Nat.le_of_succ_le_succ enough)
    rw [drainWithin, polled]
    simp [handled, rest]

theorem Unattended.later (h : w.Unattended s) (ms : Int) : (w.later ms).Unattended s :=
  ⟨h.sound.of_db (Nat.le_refl _) rfl, h.unasked⟩

theorem Unattended.drains_le (h : w.Unattended s)
    (small : s.config.worker.maxAttempts < Number.twoTo 32)
    (drains : w.Drains s pauses outcomes stopped u) :
    pauses.length ≤ 1 + w.db.jobs.executions s.config := by
  induction drains with
  | idle | crashed | deferred => exact Nat.le_add_right 1 _
  | @handled _ _ _ pause _ _ _ _ polled handled _ ih =>
    obtain ⟨h', fewer⟩ := (h.later pause).poll small polled handled
    have rest := ih h'
    rw [List.length_cons, Nat.add_comm]
    exact Nat.add_le_add_left (Nat.le_trans rest (Nat.one_add_le_iff.mpr fewer)) 1

/-- Whatever time passes between the polls, they come to an end. -/
theorem Unattended.drains (h : w.Unattended s)
    (small : s.config.worker.maxAttempts < Number.twoTo 32) (pause : Nat → Int) :
    ∃ n outcomes stopped u, w.Drains s ((List.range n).map pause) outcomes stopped u := by
  induction left : w.db.jobs.executions s.config using Nat.strongRecOn generalizing w pause with
  | ind total ih =>
    subst left
    cases polled : (w.later (pause 0)).poll s with
    | mk result v =>
      cases result with
      | idle => exact ⟨1, _, _, v, .idle polled⟩
      | crashed => exact ⟨1, _, _, v, .crashed polled⟩
      | ran outcome =>
        cases goes : outcome.isHandled with
        | false => exact ⟨1, _, _, v, .deferred polled goes⟩
        | true =>
          obtain ⟨h', fewer⟩ := (h.later (pause 0)).poll small polled goes
          obtain ⟨n, outcomes, stopped, u, drains⟩ := ih _ fewer h' (fun k => pause (k + 1)) rfl
          refine ⟨n + 1, outcome :: outcomes, stopped, u, ?_⟩
          rw [List.range_succ_eq_map, List.map_cons, List.map_map]
          exact .handled polled goes drains

theorem poll_of_none (nothing : (w.housekeeping s.config).claim.1 = none) :
    w.poll s = (.idle, (w.housekeeping s.config).claim.2) := by
  rcases w.poll_cases s with ⟨_, idle⟩ | ⟨_, claimed, _⟩
  · exact idle
  · cases nothing.symm.trans claimed

/-- The polls that a worker allows itself are enough for each execution that is left. -/
theorem executions_lt_pollsLeft (cfg : Config) (w : World) :
    1 + w.db.jobs.executions cfg ≤ w.pollsLeft cfg := by
  have sum : w.db.jobs.foldl (fun n j => n + executionsLeft cfg j) 0 =
      w.db.jobs.executions cfg := by
    rw [Queue.executions, List.sum_eq_foldl, List.foldl_map]
  unfold pollsLeft
  simp only [sum]
  calc 1 + w.db.jobs.executions cfg
    _ ≤ 1 + 2 * (w.db.jobs.executions cfg + w.submissionsLeft * max 1 cfg.worker.maxAttempts) := by
      omega
    _ ≤ _ := Nat.le_mul_of_pos_right _ (by omega)

end World

/-- Under a configuration that is accepted, waiting times of nothing among them, and whatever
services answer, others do and the clock shows meanwhile, as long as nobody asks for anything: a
worker that drains any queue comes to an end. At the latest it ends after one poll more than all
jobs that wait or are under way can still be executed together. For each that is as often as it has
attempts left, and once in any case; only a job of which another failure cannot be counted begins
anew, and no history makes one. When no time passes between the polls, `drain` is what they come
to. -/
theorem drain_ends (s : Setup) (text : String) (accepted : Config.read text = .ok s.config)
    (w : World) (sound : w.Sound) (unasked : w.Unasked s) :
    (∀ pause : Nat → Int, ∃ n outcomes stopped v,
      w.Drains s ((List.range n).map pause) outcomes stopped v) ∧
    ∀ pauses outcomes stopped v, w.Drains s pauses outcomes stopped v →
      ((∀ pause ∈ pauses, pause = 0) → w.drain s = (outcomes, stopped, v)) ∧
      pauses.length ≤ 1 + w.db.jobs.executions s.config ∧
      (w.db.jobs.Countable ∨ w.Reached s →
        pauses.length ≤ 1 + ((w.db.jobs.filter (·.isActive)).map fun j =>
          max 1 (s.config.worker.maxAttempts - j.attempts)).sum) := by
  have small := (Config.attempts_of_read accepted).2
  have unattended : w.Unattended s := ⟨sound, unasked⟩
  refine ⟨unattended.drains small, fun pauses outcomes stopped v drains => ?_⟩
  have few := unattended.drains_le small drains
  refine ⟨fun still => ?_, few, fun counted => ?_⟩
  · exact drains.within still (Nat.le_trans few (w.executions_lt_pollsLeft s.config))
  · have countable := counted.elim id fun reached => (reached.countable small).2
    rwa [Queue.executions_eq countable] at few

namespace Sample

/-- Two documents wait to be indexed by a provider that cannot be reached. -/
def refusals : List Incident :=
  [.op (.outside { World.initial 1000 [] {} with usualTurn := unreachable }),
    .op (.interfere (.submit "w" "b" "d" "v1" "hello world")),
    .op (.interfere (.submit "w" "b" "e" "v1" "hello world"))]

def refusing : World := (World.initial 1000 [] {}).incurAll frugal refusals

theorem handled_of_ran {w u : World} {pause : Int} {pauses : List Int} {outcome : Outcome}
    {outcomes : List Outcome} {stopped : Bool}
    (claimed : ((w.later pause).housekeeping frugal.config).claim.1 = some (next (w.later pause)))
    (ended : (ran (w.later pause)).1.stage.isOver = true)
    (result : (ran (w.later pause)).1.stage.result = .ran outcome)
    (handled : outcome.isHandled = true)
    (rest : (ran (w.later pause)).2.Drains frugal pauses outcomes stopped u) :
    w.Drains frugal (pause :: pauses) (outcome :: outcomes) stopped u :=
  .handled (result ▸ poll_eq claimed ended) handled rest

/-- Each document is tried, a while later once more, and then nothing is due. -/
theorem refusing_drains :
    let failed : Outcome := .failed (givingUp 2
      (JobError.ofEmbedding (.transport "connection refused") 1 1).message)
    ∃ v, refusing.Drains frugal [0, 0, 5000, 0, 0]
      [.retrying 1 6000, .retrying 1 6000, failed, failed] false v := by
  intro failed
  exact ⟨_,
    handled_of_ran (by decide +kernel) (by decide +kernel) (by decide +kernel) rfl <|
    handled_of_ran (by decide +kernel) (by decide +kernel) (by decide +kernel) rfl <|
    handled_of_ran (by decide +kernel) (by decide +kernel) (by decide +kernel) rfl <|
    handled_of_ran (by decide +kernel) (by decide +kernel) (by decide +kernel) rfl <|
    .idle (World.poll_of_none (by decide +kernel))⟩

end Sample

/-- Two jobs that may be executed twice each: five polls, and no more are possible. -/
theorem drain_ends_sample :
    (∃ outcomes v, Sample.refusing.Drains Sample.frugal [0, 0, 5000, 0, 0] outcomes false v) ∧
    (∀ pauses outcomes stopped v, Sample.refusing.Drains Sample.frugal pauses outcomes stopped v →
      pauses.length ≤ 5) := by
  have reached : Sample.refusing.Reached Sample.frugal := ⟨1000, [], {}, Sample.refusals, rfl⟩
  have unasked : Sample.refusing.Unasked Sample.frugal := by
    refine .inr fun t member i meanwhile => ?_
    obtain rfl := List.mem_singleton.mp member
    cases meanwhile
  obtain ⟨_, few⟩ := drain_ends Sample.frugal Sample.frugalText Sample.frugal_accepted
    Sample.refusing (reached.countable (by decide)).1 unasked
  have left : 1 + ((Sample.refusing.db.jobs.filter (·.isActive)).map fun j =>
      max 1 (Sample.frugal.config.worker.maxAttempts - j.attempts)).sum = 5 := by decide +kernel
  obtain ⟨v, drains⟩ := Sample.refusing_drains
  refine ⟨⟨_, v, drains⟩, fun pauses outcomes stopped v drains => ?_⟩
  exact left ▸ (few pauses outcomes stopped v drains).2.2 (.inr reached)

end IndexingPipeline
