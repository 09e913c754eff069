import IndexingPipeline.Proofs.Actions

/-!
# Recovering jobs

A job is late when it has been under way for as long as workers are given. Recovering gives up the
late jobs whose attempts are used up and puts back those that are left. Both count one attempt, and
neither leaves a job under way. So every late job is recovered once, by one or the other, nothing
else is touched, and recovering again at the same moment finds nothing to do.
-/

namespace IndexingPipeline

/-- Whether a job has been under way for as long as workers are given. -/
def Job.IsLate (settings : WorkerSettings) (now : Int) (j : Job) : Prop :=
  j.status = .processing ∧ ∃ t ∈ j.claimedAt, t ≤ now - settings.visibilityTimeoutSeconds * 1000

instance (settings : WorkerSettings) (now : Int) : DecidablePred (Job.IsLate settings now) :=
  fun _ => instDecidableAnd

/-- What recovering makes of a job. -/
inductive Job.Recovery (settings : WorkerSettings) (now : Int) : Job → Job → Prop
  | kept (j : Job) : ¬ j.IsLate settings now → Recovery settings now j j
  | failed (j : Job) : j.IsLate settings now → settings.maxAttempts ≤ j.attempts + 1 →
      Recovery settings now j
        { j with
          status := .failed, attempts := j.attempts + 1, finishedAt := some now, updatedAt := now
          lastError := some "worker stopped while processing; attempts exhausted" }
  | pending (j : Job) : j.IsLate settings now → j.attempts + 1 < settings.maxAttempts →
      Recovery settings now j
        { j with
          status := .pending, attempts := j.attempts + 1, scheduledAt := now, claimedAt := none
          updatedAt := now, lastError := some "reclaimed stale job" }

namespace Queue

section Passes

variable {hit spent : Job → Bool} {f g : Job → Job}

/-- Change the jobs of which something holds: how many they are, and the queue with them changed. -/
def pass (q : Queue) (hit : Job → Bool) (f : Job → Job) : Nat × Queue :=
  (q.countP hit, q.map fun j => if hit j then f j else j)

/-- A pass over jobs of which it does not hold changes none. -/
theorem pass_none {q : Queue} (none_hit : ∀ j ∈ q, hit j = false) : q.pass hit f = (0, q) := by
  refine Prod.ext (List.countP_eq_zero.mpr fun j member => ?_) ?_
  · rw [none_hit j member]
    exact Bool.false_ne_true
  · refine Eq.trans (List.map_congr_left fun j member => if_neg ?_) (List.map_id q)
    rw [none_hit j member]
    exact Bool.false_ne_true

/-- Two passes of which the second takes what the first has left are one pass. -/
theorem pass_pass (calm : ∀ j, hit j = true → hit (f j) = false) (q : Queue) :
    ((q.pass (fun j => hit j && spent j) f).1 +
        ((q.pass (fun j => hit j && spent j) f).2.pass hit g).1,
      ((q.pass (fun j => hit j && spent j) f).2.pass hit g).2) =
    q.pass hit fun j => if spent j then f j else g j := by
  have gone : ∀ j, (hit j && spent j) = true → hit (f j) = false := by
    intro j both
    exact calm j (Bool.and_eq_true_iff.mp both).1
  refine Prod.ext ?_ ?_
  · induction q with
    | nil => rfl
    | cons j rest ih =>
      simp only [pass, List.map_cons, List.countP_cons] at ih ⊢
      by_cases both : (hit j && spent j) = true
      · have here := (Bool.and_eq_true_iff.mp both).1
        rw [if_pos both, if_pos both, gone j both, if_pos here, if_neg Bool.false_ne_true]
        omega
      · rw [if_neg both, if_neg both]
        omega
  · unfold pass
    rw [List.map_map]
    refine List.map_congr_left fun j _ => ?_
    by_cases here : hit j = true
    · by_cases last : spent j = true
      · simp [here, last, calm j here]
      · simp [here, last]
    · simp [here]

/-- A pass that changes every job of which it holds counts the places at which the queue differs. -/
theorem pass_changes (changes : ∀ j, hit j = true → f j ≠ j) (q : Queue) :
    (q.pass hit f).1 = (q.zip (q.pass hit f).2).countP fun p => p.1 ≠ p.2 := by
  induction q with
  | nil => rfl
  | cons j rest ih =>
    simp only [pass, List.map_cons, List.zip_cons_cons, List.countP_cons] at ih ⊢
    rw [ih]
    by_cases here : hit j = true
    · simp [here, (changes j here).symm]
    · simp [here]

end Passes

/-- Whether a job has no attempt left when one more is counted. -/
def isSpent (settings : WorkerSettings) (j : Job) : Bool := settings.maxAttempts ≤ j.attempts + 1

def giveUp (q : Queue) (settings : WorkerSettings) (now : Int) : Nat × Queue :=
  q.pass (fun j => isStale settings now j && isSpent settings j) fun j =>
    { j with
      status := .failed, attempts := j.attempts + 1, finishedAt := some now, updatedAt := now
      lastError := some "worker stopped while processing; attempts exhausted" }

def putBack (q : Queue) (settings : WorkerSettings) (now : Int) : Nat × Queue :=
  q.pass (isStale settings now) fun j =>
    { j with
      status := .pending, attempts := j.attempts + 1, scheduledAt := now, claimedAt := none
      updatedAt := now, lastError := some "reclaimed stale job" }

variable {settings : WorkerSettings} {now : Int}

theorem recover_pass (q : Queue) (settings : WorkerSettings) (now : Int) :
    q.recover settings now = q.pass (isStale settings now) (recovered settings now) := rfl

/-- Recovering is to give up what has no attempt left, and then to put back what is stale still. -/
theorem recover_passes (q : Queue) (settings : WorkerSettings) (now : Int) :
    ((q.giveUp settings now).1 + ((q.giveUp settings now).2.putBack settings now).1,
      ((q.giveUp settings now).2.putBack settings now).2) = q.recover settings now := by
  have choice : recovered settings now = fun j : Job => if isSpent settings j then
      { j with
        status := .failed, attempts := j.attempts + 1, finishedAt := some now, updatedAt := now
        lastError := some "worker stopped while processing; attempts exhausted" }
      else
      { j with
        status := .pending, attempts := j.attempts + 1, scheduledAt := now, claimedAt := none
        updatedAt := now, lastError := some "reclaimed stale job" } := by
    funext j
    simp only [recovered, isSpent, decide_eq_true_eq]
  rw [recover_pass, choice]
  refine pass_pass ?_ q
  intro j _
  rfl

theorem recovered_attempts (settings : WorkerSettings) (now : Int) (j : Job) :
    (recovered settings now j).attempts = j.attempts + 1 := by
  rcases recovered_cases settings now j with ⟨_, made⟩ | ⟨_, made⟩ <;> rw [made]

theorem recovered_calm (settings : WorkerSettings) (now : Int) (j : Job) :
    isStale settings now (recovered settings now j) = false := by
  rcases recovered_cases settings now j with ⟨_, made⟩ | ⟨_, made⟩ <;> rw [made] <;> rfl

/-- There is nothing to recover at the moment of a recovery. -/
theorem recover_again (q : Queue) (settings : WorkerSettings) (now : Int) :
    (q.recover settings now).2.recover settings now = (0, (q.recover settings now).2) := by
  rw [recover_pass (q.recover settings now).2]
  apply pass_none
  intro k member
  obtain ⟨j, _, rfl⟩ := List.mem_map.mp member
  split
  · exact recovered_calm settings now j
  · exact Bool.eq_false_iff.mpr ‹_›

section Exact

variable (short : settings.visibilityTimeoutSeconds * 1000 < Number.twoTo 63)
  (low : -(Number.twoTo 63 : Int) ≤ now - settings.visibilityTimeoutSeconds * 1000)
  (high : now < Number.twoTo 63)
include short low high

theorem isStale_iff (j : Job) : isStale settings now j = true ↔ j.IsLate settings now := by
  rw [isStale, Job.IsLate, before_of_inRange short low high]
  simp [Option.any_eq_true]

theorem recovery_of (j : Job) :
    j.Recovery settings now (if isStale settings now j then recovered settings now j else j) := by
  by_cases stale : isStale settings now j = true
  · have late := (isStale_iff short low high j).mp stale
    rw [if_pos stale]
    rcases recovered_cases settings now j with ⟨spent, made⟩ | ⟨left, made⟩
    · rw [made]
      exact .failed j late spent
    · rw [made]
      exact .pending j late left
  · rw [if_neg stale]
    exact .kept j fun late => stale ((isStale_iff short low high j).mpr late)

end Exact

end Queue

/-- In any queue, when the times fit into words: recovering makes of each job, at its place, what
its lateness and its attempts say; it counts the late jobs, which are those that it changes; and
when it is done again at the same moment it counts none and changes nothing. It does so in two
passes, of which the second puts back what the first has not ended. -/
theorem recover_exact (settings : WorkerSettings) (q : Queue) (now : Int)
    (short : settings.visibilityTimeoutSeconds * 1000 < Number.twoTo 63)
    (low : -(Number.twoTo 63 : Int) ≤ now - settings.visibilityTimeoutSeconds * 1000)
    (high : now < Number.twoTo 63) :
    let count := (q.recover settings now).1
    let after := (q.recover settings now).2
    after.length = q.length ∧
    (∀ (i : Nat) (j : Job), q[i]? = some j →
      ∃ k, after[i]? = some k ∧ j.Recovery settings now k) ∧
    count = q.countP (fun j => j.IsLate settings now) ∧
    count = (q.zip after).countP (fun p => p.1 ≠ p.2) ∧
    after.recover settings now = (0, after) ∧
    let ended := q.giveUp settings now
    let back := ended.2.putBack settings now
    (count, after) = (ended.1 + back.1, back.2) := by
  intro count after
  refine ⟨List.length_map _, ?_, ?_, ?_, q.recover_again settings now,
    (q.recover_passes settings now).symm⟩
  · intro i j found
    refine ⟨_, ?_, Queue.recovery_of short low high j⟩
    exact (List.getElem?_map).trans (congrArg (Option.map _) found)
  · refine List.countP_congr fun j _ => ?_
    rw [decide_eq_true_eq]
    exact Queue.isStale_iff short low high j
  · refine Queue.pass_changes (fun j _ same => ?_) q
    have counted := Queue.recovered_attempts settings now j
    rw [same] at counted
    omega

namespace Sample

/-- A job that was claimed at some moment, after so many failed executions. -/
def held (id : String) (attempts : Nat) (claimedAt : Int) : Job :=
  { jobOf id .processing with attempts, claimedAt := some claimedAt }

/-- A late job with attempts left, one whose last attempt this was, and one that is not late. -/
def neglected : Queue := [held "again" 3 1000, held "last" 4 1000, held "at work" 0 1001]

end Sample

theorem recover_exact_sample :
    let settings : WorkerSettings := {}
    let now := 1801000
    settings.visibilityTimeoutSeconds * 1000 < Number.twoTo 63 ∧
    -(Number.twoTo 63 : Int) ≤ now - settings.visibilityTimeoutSeconds * 1000 ∧
    now < (Number.twoTo 63 : Int) ∧
    (Sample.neglected.recover settings now).1 = 2 ∧
    ∃ k, (Sample.neglected.recover settings now).2[1]? = some k ∧
      (Sample.held "last" 4 1000).Recovery settings now k := by
  intro settings now
  obtain ⟨_, rows, count, _⟩ :=
    recover_exact settings Sample.neglected now (by decide) (by decide) (by decide)
  exact ⟨by decide, by decide, by decide, count.trans (by decide), rows 1 _ rfl⟩

end IndexingPipeline
