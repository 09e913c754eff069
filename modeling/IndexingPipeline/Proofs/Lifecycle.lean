import IndexingPipeline.Proofs.Around

/-!
# The life of a job

Workers claim jobs from one queue, and each reports later, once, what became of the job that it
was given; in between jobs are asked for and recovered and the clock is moved. A report is
written to the job's row whenever it comes, whoever has the job by then. As long as it comes
while the job is under way, and no more than one failed execution was counted since the claim, a
job goes from waiting to under way by a claim, and from there back or to its end; a job that has
ended has ended for good; and failed executions are never counted back. A report that comes too
late breaks each of these.
-/

namespace IndexingPipeline

namespace Queue

/-- What is looked up after a change of the job of one identifier. -/
theorem job?_updated (q : Queue) {f : Job → Job} (id other : String)
    (keeps : ∀ j, (f j).id = j.id) :
    (q.update id f).job? other = if other = id then (q.job? id).map f else q.job? other := by
  split
  · subst other
    exact job?_update keeps
  · exact job?_update_ne keeps ‹_›

/-- What is in a queue after a change of the job of one identifier. -/
theorem mem_update {q : Queue} {id : String} {f : Job → Job} {j : Job}
    (member : j ∈ q.update id f) : j ∈ q ∨ ∃ k ∈ q, k.id = id ∧ j = f k := by
  obtain ⟨k, old, rfl⟩ := List.mem_map.mp member
  split
  · exact .inr ⟨k, old, ‹_›, rfl⟩
  · exact .inl old

end Queue

/-- What a worker reports of a job. -/
inductive Verdict where
  | completed
  | failed (reason : String)
  | retry (reason : String)
  | reschedule (notBefore : Int) (reason : String)

namespace Verdict

def write (settings : WorkerSettings) (now : Int) (job : Job) (q : Queue) : Verdict → Queue
  | completed => q.complete now job.id
  | failed reason => q.fail now job.id reason
  | retry reason => (q.retry settings now job reason).2
  | reschedule notBefore reason => q.reschedule now job.id notBefore reason

def row (settings : WorkerSettings) (now : Int) (job j : Job) : Verdict → Job
  | completed =>
    { j with
      status := .completed, lastError := none, finishedAt := some now, updatedAt := now }
  | failed reason =>
    { j with
      status := .failed, lastError := some reason, finishedAt := some now, updatedAt := now }
  | retry reason =>
    let attempts := wrapU32 (job.attempts + 1)
    if settings.maxAttempts ≤ attempts then
      { j with
        status := .failed, attempts, lastError := some (givingUp attempts reason)
        finishedAt := some now, updatedAt := now }
    else
      { j with
        status := .pending, attempts, scheduledAt := after now (settings.backoff attempts)
        claimedAt := none, lastError := some reason, updatedAt := now }
  | reschedule notBefore reason =>
    { j with
      status := .pending, scheduledAt := notBefore, claimedAt := none
      lastError := some reason, updatedAt := now }

/-- What a failed execution makes of the job's row: it is ended when its attempts are used up, else
it is put back. -/
theorem row_retry (settings : WorkerSettings) (now : Int) (job j : Job) (reason : String) :
    let attempts := wrapU32 (job.attempts + 1)
    settings.maxAttempts ≤ attempts ∧ row settings now job j (.retry reason) =
      { j with
        status := .failed, attempts, lastError := some (givingUp attempts reason)
        finishedAt := some now, updatedAt := now } ∨
    attempts < settings.maxAttempts ∧ row settings now job j (.retry reason) =
      { j with
        status := .pending, attempts, scheduledAt := after now (settings.backoff attempts)
        claimedAt := none, lastError := some reason, updatedAt := now } := by
  intro attempts
  by_cases spent : settings.maxAttempts ≤ attempts
  · exact .inl ⟨spent, if_pos spent⟩
  · exact .inr ⟨Nat.lt_of_not_le spent, if_neg spent⟩

theorem row_same (settings : WorkerSettings) (now : Int) (job j : Job) (v : Verdict) :
    j.SameRequest (v.row settings now job j) := by
  cases v with
  | retry reason =>
    rcases row_retry settings now job j reason with ⟨_, made⟩ | ⟨_, made⟩ <;> rw [made] <;>
      exact ⟨rfl, rfl, rfl, rfl, rfl⟩
  | _ => exact ⟨rfl, rfl, rfl, rfl, rfl⟩

theorem row_id (settings : WorkerSettings) (now : Int) (job j : Job) (v : Verdict) :
    (v.row settings now job j).id = j.id := (v.row_same settings now job j).id

/-- A report changes the row of its job, and that whatever the row says. -/
theorem write_eq (settings : WorkerSettings) (now : Int) (job : Job) (q : Queue) (v : Verdict) :
    v.write settings now job q = q.update job.id fun j => v.row settings now job j := by
  cases v with
  | retry reason =>
    unfold write row Queue.retry
    simp only
    split
    · rw [Queue.fail, Queue.update_update]
      · rfl
      · intro j
        rfl
    · rfl
  | _ => rfl

end Verdict

/-- What a move of a run does to the queue: it reports on the run's job, or others are at work while
a provider is, or nothing. -/
theorem Run.Move.jobs_moves {s : Setup} {r r' : Run} {w w' : World} (m : Move s r w r' w') :
    (∃ v : Verdict, w'.db.jobs = v.write s.config.worker w.now r.job w.db.jobs) ∨
    (∃ p token text, w'.db.jobs = (w.embed s p token text).2.db.jobs) ∨
    w'.db.jobs = w.db.jobs := by
  have kept := m.jobs_kept
  cases m with
  | kept | mismatched | unembedded | unaccepted => exact .inr (.inl ⟨_, _, _, rfl⟩)
  | deferred outcome moment reason => exact .inl ⟨.reschedule moment reason, rfl⟩
  | switched => exact .inl ⟨.completed, rfl⟩
  | retried e _ _ jobs _ retry | exhausted e _ jobs _ retry =>
    exact .inl ⟨.retry e.message, (congrArg Prod.snd retry).symm⟩
  | final e => exact .inl ⟨.failed e.message, rfl⟩
  | vanished => exact .inr (.inr rfl)
  | _ => exact .inr (.inr (kept (by simp [Stage.writes])))

namespace Verdict

inductive Leaves : Verdict → JobStatus → Prop
  | completed : Leaves .completed .completed
  | failed {reason} : Leaves (.failed reason) .failed
  | retried {reason} : Leaves (.retry reason) .pending
  | exhausted {reason} : Leaves (.retry reason) .failed
  | rescheduled {notBefore reason} : Leaves (.reschedule notBefore reason) .pending

theorem row_leaves (settings : WorkerSettings) (now : Int) (job j : Job) (v : Verdict) :
    v.Leaves (v.row settings now job j).status := by
  cases v with
  | completed => exact .completed
  | failed reason => exact .failed
  | retry reason =>
    rcases row_retry settings now job j reason with ⟨_, made⟩ | ⟨_, made⟩
    · rw [made]
      exact .exhausted
    · rw [made]
      exact .retried
  | reschedule notBefore reason => exact .rescheduled

variable {settings : WorkerSettings} {job j : Job}

/-- Failed executions are not counted back by a report that comes before the second. -/
theorem attempts_le_row (small : settings.maxAttempts < Number.twoTo 32)
    (few : job.attempts < max 1 settings.maxAttempts) (behind : j.attempts ≤ job.attempts + 1)
    (now : Int) (v : Verdict) : j.attempts ≤ (v.row settings now job j).attempts := by
  cases v with
  | retry reason =>
    have size : Number.twoTo 32 = 4294967296 := rfl
    have counted : wrapU32 (job.attempts + 1) = job.attempts + 1 :=
      Nat.mod_eq_of_lt (by omega)
    rcases row_retry settings now job j reason with ⟨_, made⟩ | ⟨_, made⟩ <;> rw [made, counted] <;>
      exact behind
  | _ => exact Nat.le_refl _

theorem row_few (few : j.attempts < max 1 settings.maxAttempts) (now : Int) (v : Verdict)
    (open_ : (v.row settings now job j).status = .pending ∨
      (v.row settings now job j).status = .processing) :
    (v.row settings now job j).attempts < max 1 settings.maxAttempts := by
  cases v with
  | retry reason =>
    rcases row_retry settings now job j reason with ⟨_, made⟩ | ⟨left, made⟩
    · rw [made] at open_
      rcases open_ with status | status <;> cases status
    · rw [made]
      exact Nat.lt_of_lt_of_le left (Nat.le_max_right 1 _)
  | _ => exact few

end Verdict

/-- A world with a queue, and what was claimed there and not yet reported on. -/
structure Bench where
  world : World
  hands : List (Option Job)

/-- What workers and others do with the jobs, in any order. -/
inductive Deed where
  | enqueue (workspace base document version : String)
  | claim
  | recover
  | clock (now : Int)
  /-- Report on the job of a claim, unless that was done. -/
  | report (place : Nat) (v : Verdict)

/-- What a deed may do to the status of a job. -/
inductive Deed.Moves : Deed → JobStatus → JobStatus → Prop
  | stays {d status} : Moves d status status
  | claimed : Moves .claim .pending .processing
  | recovered : Moves .recover .processing .pending
  | abandoned : Moves .recover .processing .failed
  | reported {place v status} : v.Leaves status → Moves (.report place v) .processing status

/-- A job that has ended has ended for good. -/
theorem Deed.Moves.ended {d : Deed} {before after : JobStatus} (m : d.Moves before after)
    (ended : before = .completed ∨ before = .failed) : after = before := by
  cases m with
  | stays => rfl
  | _ => rcases ended with h | h <;> cases h

namespace Bench

def initial (now : Int) (env : Environment) (peer : Peer) : Bench :=
  ⟨World.initial now env peer, []⟩

abbrev jobs (b : Bench) : Queue := b.world.db.jobs

def turn (settings : WorkerSettings) (b : Bench) : Deed → Bench
  | .enqueue workspace base document version =>
    ⟨(b.world.enqueue workspace base document version).2, b.hands⟩
  | .claim => ⟨b.world.claim.2, b.hands ++ [b.world.claim.1]⟩
  | .recover => ⟨b.world.onJobs fun q => (q.recover settings b.world.now).2, b.hands⟩
  | .clock now => ⟨{ b.world with now }, b.hands⟩
  | .report place v =>
    match (b.hands[place]?).join with
    | some job =>
      ⟨b.world.onJobs fun q => v.write settings b.world.now job q, b.hands.set place none⟩
    | none => b

def play (settings : WorkerSettings) (b : Bench) (deeds : List Deed) : Bench :=
  deeds.foldl (turn settings) b

/-- A report comes while its job is under way, and no more than one failed execution was counted
since the claim. -/
def IsPrompt (b : Bench) : Deed → Bool
  | .report place _ => ((b.hands[place]?).join).all fun job =>
    (b.jobs.job? job.id).any fun j => j.status = .processing && j.attempts ≤ job.attempts + 1
  | _ => true

/-- Every report is prompt when it is made. -/
def Prompt (settings : WorkerSettings) (b : Bench) : List Deed → Prop
  | [] => True
  | d :: rest => b.IsPrompt d = true ∧ (b.turn settings d).Prompt settings rest

instance decidablePrompt (settings : WorkerSettings) :
    (b : Bench) → (deeds : List Deed) → Decidable (b.Prompt settings deeds)
  | _, [] => inferInstanceAs (Decidable True)
  | b, d :: rest =>
    have := decidablePrompt settings (b.turn settings d) rest
    inferInstanceAs (Decidable (b.IsPrompt d = true ∧ (b.turn settings d).Prompt settings rest))

theorem Prompt.left {settings : WorkerSettings} {b : Bench} {first later : List Deed}
    (h : b.Prompt settings (first ++ later)) :
    b.Prompt settings first ∧ (b.play settings first).Prompt settings later := by
  induction first generalizing b with
  | nil => exact ⟨trivial, h⟩
  | cons d rest ih =>
    obtain ⟨now, others⟩ := h
    obtain ⟨before, after⟩ := ih others
    exact ⟨⟨now, before⟩, after⟩

/-- Jobs that have not ended can still be executed, as they are and as they were claimed. -/
structure Counted (settings : WorkerSettings) (b : Bench) : Prop where
  sound : b.world.Sound
  open_ : ∀ j ∈ b.jobs, j.status = .pending ∨ j.status = .processing →
    j.attempts < max 1 settings.maxAttempts
  hands : ∀ job, some job ∈ b.hands → job.attempts < max 1 settings.maxAttempts

def Lawful (d : Deed) (q q' : Queue) : Prop :=
  ∀ id j, q.job? id = some j →
    ∃ j', q'.job? id = some j' ∧ d.Moves j.status j'.status ∧ j.attempts ≤ j'.attempts

theorem Lawful.refl (d : Deed) (q : Queue) : Lawful d q q :=
  fun _ j found => ⟨j, found, .stays, Nat.le_refl _⟩

theorem Lawful.update {d : Deed} {q : Queue} {id : String} {f : Job → Job}
    (keeps : ∀ j, (f j).id = j.id)
    (moves : ∀ j, q.job? id = some j → d.Moves j.status (f j).status ∧
      j.attempts ≤ (f j).attempts) : Lawful d q (q.update id f) := by
  intro other j found
  rw [q.job?_updated id other keeps]
  split
  · subst other
    rw [found]
    exact ⟨f j, rfl, moves j found⟩
  · exact ⟨j, found, .stays, Nat.le_refl _⟩

/-- A job that is asked for is added, or one that waits is pointed at another version. -/
theorem enqueue_lawful (d : Deed) (q : Queue) (now : Int)
    (newId workspace base document version : String) :
    Lawful d q (q.enqueue now newId workspace base document version).2 := by
  rcases q.enqueue_cases now newId workspace base document version with
    ⟨_, _, pointed⟩ | ⟨_, added⟩
  · rw [pointed]
    refine .update (Job.pointedAt_id version now) ?_
    intro j _
    exact ⟨.stays, Nat.le_refl _⟩
  · rw [added]
    intro id j found
    refine ⟨j, ?_, .stays, Nat.le_refl _⟩
    rw [Queue.job?_added, found, Option.some_or]

theorem claim_lawful {q : Queue} (once : q.ids.Nodup) (now : Int) :
    Lawful .claim q (q.claim now).2 := by
  rcases q.claim_cases now with nothing | ⟨j, member, waits, _, taken⟩
  · rw [nothing]
    exact .refl _ q
  · rw [taken]
    refine .update (Job.taken_id now) ?_
    intro k found
    rw [Queue.job?_of_mem once member] at found
    obtain rfl := Option.some.inj found
    rw [waits]
    exact ⟨.claimed, Nat.le_refl _⟩

theorem recover_lawful (settings : WorkerSettings) (q : Queue) (now : Int) :
    Lawful .recover q (q.recover settings now).2 := by
  intro id j found
  have row : (q.recover settings now).2.job? id = (q.job? id).map (Queue.tended settings now) :=
    Queue.job?_map (Queue.tended_id settings now) id
  rw [found] at row
  refine ⟨_, row, ?_⟩
  rw [Queue.tended]
  split
  · rename_i stale
    rw [Queue.processing_of_isStale stale]
    rcases Queue.recovered_cases settings now j with ⟨_, made⟩ | ⟨_, made⟩
    · rw [made]
      exact ⟨.abandoned, Nat.le_succ _⟩
    · rw [made]
      exact ⟨.recovered, Nat.le_succ _⟩
  · exact ⟨.stays, Nat.le_refl _⟩

namespace Counted

variable {settings : WorkerSettings} {b : Bench} (h : b.Counted settings)
include h

theorem enqueued (workspace base document version : String) :
    (b.turn settings (.enqueue workspace base document version)).Counted settings where
  sound := (b.world.enqueue_meanwhile workspace base document version).sound h.sound
  open_ := by
    have member_of : ∀ j ∈ (b.jobs.enqueue b.world.now (Identifier.ofNat b.world.drawn) workspace
        base document version).2, j.attempts = 0 ∨
          ∃ k ∈ b.jobs, k.status = j.status ∧ k.attempts = j.attempts := by
      intro j member
      rcases b.jobs.enqueue_cases b.world.now (Identifier.ofNat b.world.drawn) workspace base
        document version with ⟨_, _, pointed⟩ | ⟨_, added⟩
      · rw [pointed] at member
        rcases Queue.mem_update member with old | ⟨k, old, _, rfl⟩
        · exact .inr ⟨j, old, rfl, rfl⟩
        · exact .inr ⟨k, old, rfl, rfl⟩
      · rw [added] at member
        rcases List.mem_append.mp member with old | new
        · exact .inr ⟨j, old, rfl, rfl⟩
        · rw [List.mem_singleton.mp new]
          exact .inl rfl
    intro j member waits
    rcases member_of j member with none_yet | ⟨k, old, status, attempts⟩
    · omega
    · rw [← attempts]
      exact h.open_ k old (status ▸ waits)
  hands := h.hands

theorem claimed : (b.turn settings .claim).Counted settings := by
  have sound := b.world.claim_around.sound h.sound
  have given : b.world.claim.1 = (b.jobs.claim b.world.now).1 := rfl
  have left : b.world.claim.2.db.jobs = (b.jobs.claim b.world.now).2 := rfl
  rcases b.jobs.claim_cases b.world.now with nothing | ⟨k, old, waits, _, taken⟩
  · rw [nothing] at given left
    refine ⟨sound, ?_, ?_⟩
    · intro j member
      change j ∈ b.world.claim.2.db.jobs at member
      rw [left] at member
      exact h.open_ j member
    intro job member
    rcases List.mem_append.mp member with before | new
    · exact h.hands job before
    · rw [given] at new
      cases List.mem_singleton.mp new
  · rw [taken] at given left
    have few := h.open_ k old (.inl waits)
    refine ⟨sound, ?_, ?_⟩
    · intro j member open_
      change j ∈ b.world.claim.2.db.jobs at member
      rw [left] at member
      rcases Queue.mem_update member with before | ⟨x, before, same, rfl⟩
      · exact h.open_ j before open_
      · have found := Queue.job?_of_mem h.sound.jobs_once before
        rw [same, Queue.job?_of_mem h.sound.jobs_once old] at found
        cases found
        exact few
    · intro job member
      rcases List.mem_append.mp member with before | new
      · exact h.hands job before
      · rw [given] at new
        cases List.mem_singleton.mp new
        exact few

theorem recovered : (b.turn settings .recover).Counted settings where
  sound := (b.world.recover_around settings).sound h.sound
  open_ := by
    intro j member waits
    obtain ⟨k, old, rfl⟩ := List.mem_map.mp member
    obtain ⟨waited, few⟩ := Queue.open_of_tended waits
    exact few (h.open_ k old waited)
  hands := h.hands

/-- What a prompt report does, if it is one on a claim. -/
theorem reported (small : settings.maxAttempts < Number.twoTo 32) {place : Nat} {v : Verdict}
    (prompt : b.IsPrompt (.report place v) = true) :
    (b.turn settings (.report place v)).Counted settings ∧
      Lawful (.report place v) b.jobs (b.turn settings (.report place v)).jobs := by
  simp only [turn, IsPrompt] at prompt ⊢
  cases hand : (b.hands[place]?).join with
  | none => exact ⟨h, .refl _ _⟩
  | some job =>
    rw [hand, Option.all_some] at prompt
    obtain ⟨k, found, under_way⟩ := (Option.any_eq_true _ _).mp prompt
    simp only [Bool.and_eq_true, decide_eq_true_eq] at under_way
    obtain ⟨processing, behind⟩ := under_way
    have few := h.hands job (List.mem_of_getElem? (Option.join_eq_some_iff.mp hand))
    have keeps : ∀ j, (v.row settings b.world.now job j).id = j.id :=
      fun j => v.row_id settings b.world.now job j
    have written : (b.world.onJobs fun q => v.write settings b.world.now job q) =
        b.world.onJobs fun q => q.update job.id fun j => v.row settings b.world.now job j := by
      simp only [Verdict.write_eq]
    simp only [written]
    constructor
    · refine ⟨(b.world.onJobs_around (Queue.ids_update keeps)).sound h.sound, ?_, ?_⟩
      · intro j member open_
        rcases Queue.mem_update member with old | ⟨x, old, _, rfl⟩
        · exact h.open_ j old open_
        · have same := Queue.job?_of_mem h.sound.jobs_once old
          rw [‹x.id = job.id›] at same
          obtain rfl := Option.some.inj (found.symm.trans same)
          exact Verdict.row_few (h.open_ k old (.inr processing)) _ v open_
      · intro other member
        rcases List.mem_or_eq_of_mem_set member with old | new
        · exact h.hands other old
        · cases new
    · refine .update keeps ?_
      intro j same
      obtain rfl := Option.some.inj (found.symm.trans same)
      rw [processing]
      exact ⟨.reported (v.row_leaves settings _ job k),
        Verdict.attempts_le_row small few behind _ v⟩

theorem turn (small : settings.maxAttempts < Number.twoTo 32) {d : Deed}
    (prompt : b.IsPrompt d = true) :
    (b.turn settings d).Counted settings ∧ Lawful d b.jobs (b.turn settings d).jobs := by
  cases d with
  | enqueue workspace base document version =>
    exact ⟨h.enqueued workspace base document version, enqueue_lawful _ _ _ _ _ _ _ _⟩
  | claim => exact ⟨h.claimed, claim_lawful h.sound.jobs_once _⟩
  | recover => exact ⟨h.recovered, recover_lawful _ _ _⟩
  | clock now =>
    refine ⟨⟨?_, h.open_, h.hands⟩, .refl _ _⟩
    exact h.sound.of_tables (Nat.le_refl _) rfl rfl rfl rfl
  | report place v => exact h.reported small prompt

/-- Whatever is done, if all of it is prompt: jobs stay, what has ended has ended for good, and
failed executions are never counted back. -/
theorem play (small : settings.maxAttempts < Number.twoTo 32) {deeds : List Deed}
    (prompt : b.Prompt settings deeds) :
    (b.play settings deeds).Counted settings ∧
      ∀ id j, b.jobs.job? id = some j → ∃ j', (b.play settings deeds).jobs.job? id = some j' ∧
        j.attempts ≤ j'.attempts ∧
        (j.status = .completed ∨ j.status = .failed → j'.status = j.status) := by
  induction deeds generalizing b with
  | nil => exact ⟨h, fun _ j found => ⟨j, found, Nat.le_refl _, fun _ => rfl⟩⟩
  | cons d rest ih =>
    obtain ⟨next, lawful⟩ := h.turn small prompt.1
    obtain ⟨last, later⟩ := ih next prompt.2
    refine ⟨last, fun id j found => ?_⟩
    obtain ⟨j', found, moves, counted⟩ := lawful id j found
    obtain ⟨j'', found, counted', ended⟩ := later id j' found
    refine ⟨j'', found, Nat.le_trans counted counted', fun terminal => ?_⟩
    have same := moves.ended terminal
    rw [ended (same ▸ terminal), same]

end Counted

theorem initial_counted (settings : WorkerSettings) (now : Int) (env : Environment)
    (peer : Peer) : (initial now env peer).Counted settings where
  sound := World.initial_sound now env peer
  open_ := fun _ member => absurd member List.not_mem_nil
  hands := fun _ member => absurd member List.not_mem_nil

end Bench

/-- Begin with an empty queue and let workers claim, recover and report in any order, as long as
every report is prompt. Each deed then moves the status of a job, if at all, from waiting to under
way by a claim, or from under way to what a recovery or a report may leave behind; no job is lost;
a job that is completed or failed stays so; and its attempts are never counted back. -/
theorem job_lifecycle (settings : WorkerSettings)
    (small : settings.maxAttempts < Number.twoTo 32) (now : Int) (env : Environment)
    (peer : Peer) (deeds later : List Deed)
    (prompt : (Bench.initial now env peer).Prompt settings (deeds ++ later)) :
    let before := (Bench.initial now env peer).play settings deeds
    let after := before.play settings later
    (∀ d rest, later = d :: rest → ∀ id j, before.jobs.job? id = some j →
      ∃ j', (before.turn settings d).jobs.job? id = some j' ∧ d.Moves j.status j'.status ∧
        j.attempts ≤ j'.attempts) ∧
    (∀ id j, before.jobs.job? id = some j → ∃ j', after.jobs.job? id = some j' ∧
      j.attempts ≤ j'.attempts ∧
      (j.status = .completed ∨ j.status = .failed → j'.status = j.status)) := by
  intro before after
  obtain ⟨first, second⟩ := prompt.left
  have counted := ((Bench.initial_counted settings now env peer).play small first).1
  constructor
  · rintro d rest rfl
    exact (counted.turn small second.1).2
  · exact (counted.play small second).2

namespace Sample

/-- A job fails once and is completed at its second execution. -/
def twice : List Deed :=
  [.enqueue "w" "b" "d" "v1", .claim, .report 0 (.retry "down"), .clock 1800000, .claim,
    .report 1 .completed]

def afterwards : List Deed := [.clock 9000000, .recover, .claim]

/-- A job is handed out three times, since its workers are taken to be dead. The last of them has
it, and the second reports that it is completed. -/
def overtaken : List Deed :=
  [.enqueue "w" "b" "d" "v1", .claim, .clock 2000000, .recover, .claim, .clock 4000000, .recover,
    .claim, .report 1 .completed]

def bench (deeds : List Deed) : Bench := (Bench.initial 1000 [] {}).play {} deeds

end Sample

theorem job_lifecycle_sample :
    (Bench.initial 1000 [] {}).Prompt {} (Sample.twice ++ Sample.afterwards) ∧
    ∃ j j', (Sample.bench Sample.twice).jobs.job? (Identifier.ofNat 0) = some j ∧
      ((Sample.bench Sample.twice).play {} Sample.afterwards).jobs.job? (Identifier.ofNat 0) =
        some j' ∧ j.attempts ≤ j'.attempts ∧ j'.status = .completed := by
  have prompt : (Bench.initial 1000 [] {}).Prompt {} (Sample.twice ++ Sample.afterwards) := by
    decide +kernel
  have there : ((Sample.bench Sample.twice).jobs.job? (Identifier.ofNat 0)).any
      (·.status = .completed) = true := by decide +kernel
  obtain ⟨j, found, completed⟩ := (Option.any_eq_true _ _).mp there
  have completed := of_decide_eq_true completed
  obtain ⟨j', found', counted, ended⟩ :=
    (job_lifecycle {} (by decide) 1000 [] {} Sample.twice Sample.afterwards prompt).2 _ j found
  exact ⟨prompt, j, j', found, found', counted, (ended (.inl completed)).trans completed⟩

/-- Reports that are not prompt: a job that is completed waits again, with fewer attempts than
were counted, and is completed from there. -/
theorem late_reports :
    let status (deeds : List Deed) :=
      ((Sample.bench deeds).jobs.job? (Identifier.ofNat 0)).map fun j => (j.status, j.attempts)
    status Sample.overtaken = some (.completed, 2) ∧
    status (Sample.overtaken ++ [.report 0 (.retry "down")]) = some (.pending, 1) ∧
    status (Sample.overtaken ++ [.report 0 (.retry "down"), .report 2 .completed]) =
      some (.completed, 1) := by
  decide +kernel

end IndexingPipeline
