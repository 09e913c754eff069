import IndexingPipeline.Proofs.Recount

/-!
# Actions that have been under way for too long

An action is late when it has been under way for longer than it may. Looking after the late actions
refreshes each of them once, from the row that was read, and touches no other. The jobs that a late
action follows come first: when they have all ended it ends as they say, and only when some are
left, or there are none, is it ended as timed out. So no action is late afterwards.
-/

namespace IndexingPipeline

namespace Action

/-- Whether an action has been under way for longer than it may. -/
def IsLate (s : ActionSettings) (now : Int) (a : Action) : Prop :=
  a.status = .processing ∧ a.processingSince < now - s.timeoutSeconds * 1000

instance (s : ActionSettings) (now : Int) : DecidablePred (IsLate s now) :=
  fun _ => instDecidableAnd

/-- The status and the stage at which a late action ends, told by the jobs that it follows. -/
inductive EndsAt (window : Queue) : ActionStatus → ActionStage → Prop
  | completed : window ≠ [] → (∀ j ∈ window, j.status = .completed) →
      EndsAt window .done .completed
  | failed : (∀ j ∈ window, j.isActive = false) → (∃ j ∈ window, j.status = .failed) →
      EndsAt window .error .failed
  | timedOut : window = [] ∨ (∃ j ∈ window, j.isActive = true) → EndsAt window .error .timedOut

theorem EndsAt.unique {window : Queue} {status status' : ActionStatus} {stage stage' : ActionStage}
    (ends : EndsAt window status stage) (ends' : EndsAt window status' stage') :
    status = status' ∧ stage = stage' := by
  have mixed : (∀ j ∈ window, j.status = .completed) → ¬ ∃ j ∈ window, j.status = .failed := by
    rintro completed ⟨j, member, failed⟩
    exact absurd ((completed j member).symm.trans failed) (by decide)
  have ended : (∀ j ∈ window, j.status = .completed) → ∀ j ∈ window, j.isActive = false := by
    intro completed j member
    simp [Job.isActive, completed j member]
  have left : window ≠ [] → (∀ j ∈ window, j.isActive = false) →
      ¬ (window = [] ∨ ∃ j ∈ window, j.isActive = true) := by
    rintro some_jobs inactive (nothing | ⟨j, member, active⟩)
    · exact some_jobs nothing
    · exact absurd ((inactive j member).symm.trans active) (by decide)
  have nonempty : (∃ j ∈ window, j.status = .failed) → window ≠ [] := by
    rintro ⟨_, member, _⟩
    exact List.ne_nil_of_mem member
  cases ends with
  | completed some_jobs completed =>
    cases ends' with
    | completed => exact ⟨rfl, rfl⟩
    | failed _ failed => exact absurd failed (mixed completed)
    | timedOut open_jobs => exact absurd open_jobs (left some_jobs (ended completed))
  | failed inactive failed =>
    cases ends' with
    | completed _ completed => exact absurd failed (mixed completed)
    | failed => exact ⟨rfl, rfl⟩
    | timedOut open_jobs => exact absurd open_jobs (left (nonempty failed) inactive)
  | timedOut open_jobs =>
    cases ends' with
    | completed some_jobs completed => exact absurd open_jobs (left some_jobs (ended completed))
    | failed inactive failed => exact absurd open_jobs (left (nonempty failed) inactive)
    | timedOut => exact ⟨rfl, rfl⟩

/-- What looking after the late actions makes of an action. -/
inductive Expiry (s : ActionSettings) (q : Queue) (now : Int) (a : Action) : Action → Prop
  | kept : ¬ a.IsLate s now → Expiry s q now a a
  | ended (b : Action) : a.IsLate s now → a.SameStart b → b.rowVersion = a.rowVersion + 1 →
      EndsAt (q.filter fun j => j.workspaceId = a.workspaceId && j.baseId = a.baseId &&
        a.createdAt ≤ j.createdAt) b.status b.stage →
      Expiry s q now a b

def renewed (s : ActionSettings) (q : Queue) (now : Int) (a : Action) : Action :=
  { a.refreshed s q now with rowVersion := a.rowVersion + 1 }

variable {s : ActionSettings} {q : Queue} {now : Int} {a b : Action}

theorem Expiry.not_late (expiry : a.Expiry s q now b) : ¬ b.IsLate s now := by
  cases expiry with
  | kept inTime => exact inTime
  | ended _ _ _ _ ends =>
    rintro ⟨under_way, _⟩
    rw [under_way] at ends
    cases ends

theorem renewed_sameStart (s : ActionSettings) (q : Queue) (now : Int) (a : Action) :
    a.SameStart (a.renewed s q now) := a.refreshed_written s q now _

theorem renewed_ne (s : ActionSettings) (q : Queue) (now : Int) (a : Action) :
    a ≠ a.renewed s q now := by
  intro same
  have version : a.rowVersion = a.rowVersion + 1 := congrArg Action.rowVersion same
  omega

/-- An action that is overdue when it is refreshed is ended. -/
theorem refreshed_ends (few : q.length < Number.twoTo 64) (under_way : a.status = .processing)
    (overdue : a.isOverdue s now = true) :
    EndsAt (q.filter a.scope.includes) (a.refreshed s q now).status
      (a.refreshed s q now).stage := by
  have ending := q.ending_spec a.scope few
  have counted : (recounted s q a).isOverdue s now = true := overdue
  unfold refreshed
  simp only [under_way, if_true]
  cases answer : (Progress.ofCounts (q.counts a.scope)).ending with
  | some how =>
    rw [answer] at ending
    cases how with
    | done =>
      obtain ⟨ranOut, completed⟩ := ending
      exact .completed (Queue.any_iff_filter.mp ranOut.1) (Queue.all_iff_filter.mp completed)
    | error =>
      obtain ⟨ranOut, j, member, chosen, failed⟩ := ending
      exact .failed (Queue.all_iff_filter.mp ranOut.2)
        ⟨j, List.mem_filter.mpr ⟨member, chosen⟩, failed⟩
  | none =>
    rw [answer] at ending
    simp only [settled, counted, if_true]
    refine .timedOut ?_
    rw [Queue.runOut_iff_filter, not_and_or, not_not] at ending
    simpa only [not_forall, Bool.not_eq_false, exists_prop] using ending

end Action

namespace Actions

variable {as : Actions} {a : Action} (s : ActionSettings) (q : Queue) (now : Int)

/-- Refreshing rows that are there, each of them once, writes each of them from the row that was
read. -/
theorem refreshAll_spec {rows : List Action} (once : as.ids.Nodup) (there : ∀ a ∈ rows, a ∈ as)
    (apart : (rows.map (·.id)).Nodup) (going : ∀ a ∈ rows, a.status.isTerminal = false)
    (expired : Nat) :
    refreshAll s q now expired as rows =
      (expired + rows.countP (fun a => (a.renewed s q now).stage = .timedOut),
        as.map fun a => if a ∈ rows then a.renewed s q now else a) := by
  induction rows generalizing as expired with
  | nil => simp [refreshAll]
  | cons a rest ih =>
    obtain ⟨absent, apart⟩ := List.nodup_cons.mp apart
    obtain ⟨here, others⟩ := List.forall_mem_cons.mp there
    obtain ⟨first, later⟩ := List.forall_mem_cons.mp going
    have same : (a.renewed s q now).id = a.id := (a.renewed_sameStart s q now).id
    have elsewhere : ∀ b ∈ rest, b.id ≠ a.id := by
      intro b member same
      exact absent (List.mem_map.mpr ⟨b, member, same⟩)
    have written : refreshFrom s q now writeTries as a =
        (a.renewed s q now, as.put (a.renewed s q now)) := by
      rw [writeTries, refreshFrom_of_mem s q now here, if_neg (by simp [first])]
      rfl
    have still : ∀ b ∈ rest, b ∈ as.put (a.renewed s q now) := by
      intro b member
      exact mem_put_of_ne (others b member) (same ▸ elsewhere b member)
    rw [refreshAll, written]
    simp only
    rw [ih (ids_put as _ ▸ once) still apart later]
    refine Prod.ext ?_ ?_
    · simp only [List.countP_cons, decide_eq_true_eq]
      split <;> omega
    · simp only [put, List.map_map]
      refine List.map_congr_left fun x member => ?_
      simp only [Function.comp, same, List.mem_cons]
      by_cases own : x.id = a.id
      · obtain rfl := eq_of_id once member here own
        have gone : x.renewed s q now ∉ rest := fun again => elsewhere _ again same
        simp [gone]
      · have other : x ≠ a := fun eq => own (eq ▸ rfl)
        simp [own, other]

/-- Looking after the actions that have expired, row by row. -/
theorem expire_spec (once : as.ids.Nodup) :
    as.expire s q now =
      ((as.filter (isExpired s now)).countP fun a => (a.renewed s q now).stage = .timedOut,
        as.map fun a => if isExpired s now a then a.renewed s q now else a) := by
  have going : ∀ a ∈ as.filter (isExpired s now), a.status.isTerminal = false := by
    intro a member
    have expired := (List.mem_filter.mp member).2
    simp only [isExpired, Bool.and_eq_true, decide_eq_true_eq] at expired
    rw [expired.1]
    rfl
  have apart : ((as.filter (isExpired s now)).map (·.id)).Nodup :=
    once.sublist (List.filter_sublist.map _)
  rw [expire, refreshAll_spec s q now once (fun a member => (List.mem_filter.mp member).1) apart
    going, Nat.zero_add]
  refine Prod.ext rfl (List.map_congr_left fun a member => ?_)
  simp only [List.mem_filter, member, true_and]

section Exact

variable (few : q.length < Number.twoTo 64)
  (short : s.timeoutSeconds * 1000 < Number.twoTo 63)
  (low : -(Number.twoTo 63 : Int) ≤ now - s.timeoutSeconds * 1000)
  (high : now < Number.twoTo 63)
include short low high

/-- Whether an action has expired, when the moments fit into words. -/
theorem isExpired_iff (a : Action) : isExpired s now a = true ↔ a.IsLate s now := by
  rw [isExpired, Action.IsLate, before_of_inRange short low high]
  simp

include few in
/-- What becomes of an action: the two looks at the clock agree. -/
theorem expiry_of (span : a.IsLate s now → now - a.processingSince < Number.twoTo 63) :
    a.Expiry s q now (if isExpired s now a then a.renewed s q now else a) := by
  by_cases expired : isExpired s now a = true
  · have late := (isExpired_iff s now short low high a).mp expired
    have overdue : a.isOverdue s now = true := by
      have since := late.2
      exact (Action.isOverdue_iff short (by omega) (span late)).mpr (by omega)
    rw [if_pos expired]
    refine .ended _ late (a.renewed_sameStart s q now) rfl ?_
    rw [← a.scope_includes]
    exact Action.refreshed_ends few late.1 overdue
  · rw [if_neg expired]
    exact .kept fun late => expired ((isExpired_iff s now short low high a).mpr late)

end Exact

/-- Of the rows that are picked those of which something holds are counted where the table has
changed. -/
theorem countP_changed {hit : Action → Bool} {f : Action → Action}
    (changes : ∀ a, hit a = true → a ≠ f a) (p : Action → Prop) [DecidablePred p] (as : Actions) :
    (as.filter hit).countP (fun a => p (f a)) =
      (as.zip (as.map fun a => if hit a then f a else a)).countP
        fun pair => pair.1 ≠ pair.2 ∧ p pair.2 := by
  induction as with
  | nil => rfl
  | cons a rest ih =>
    rw [List.map_cons, List.zip_cons_cons, List.countP_cons, ← ih]
    by_cases here : hit a = true
    · simp [List.countP_cons, here, changes a here]
    · simp [here]

end Actions

/-- Let the late actions be looked after: whatever actions there are, with one row each, and
whatever jobs, at a moment whose distances fit into words. Each action, at its place, is left alone
unless it is late. One that is late ends as the jobs that it follows say: done when there are some
and all are completed, in error when none is left and one has failed, and as timed out, which is in
error too, only when there are none or some are left. No action is late afterwards, and what is
counted are the actions that were ended as timed out. -/
theorem expire_exact (s : ActionSettings) (as : Actions) (q : Queue) (now : Int)
    (once : as.ids.Nodup) (few : q.length < Number.twoTo 64)
    (short : s.timeoutSeconds * 1000 < Number.twoTo 63)
    (low : -(Number.twoTo 63 : Int) ≤ now - s.timeoutSeconds * 1000)
    (high : now < Number.twoTo 63)
    (spans : ∀ a ∈ as, a.IsLate s now → now - a.processingSince < Number.twoTo 63) :
    let count := (as.expire s q now).1
    let after := (as.expire s q now).2
    after.length = as.length ∧
    (∀ (i : Nat) (a : Action), as[i]? = some a →
      ∃ b, after[i]? = some b ∧ a.Expiry s q now b) ∧
    (∀ b ∈ after, ¬ b.IsLate s now) ∧
    count = (as.zip after).countP fun p => p.1 ≠ p.2 ∧ p.2.stage = .timedOut := by
  intro count after
  have swept := as.expire_spec s q now once
  have made : after = as.map fun a => if Actions.isExpired s now a then a.renewed s q now else a :=
    congrArg Prod.snd swept
  have became : ∀ a ∈ as, a.Expiry s q now
      (if Actions.isExpired s now a then a.renewed s q now else a) :=
    fun a member => Actions.expiry_of s q now few short low high (spans a member)
  refine ⟨?_, ?_, ?_, ?_⟩
  · rw [made, List.length_map]
  · intro i a found
    refine ⟨_, ?_, became a (List.mem_of_getElem? found)⟩
    rw [made, List.getElem?_map, found]
    rfl
  · intro b member
    rw [made] at member
    obtain ⟨a, there, rfl⟩ := List.mem_map.mp member
    exact (became a there).not_late
  · refine (congrArg Prod.fst swept).trans ?_
    rw [made]
    exact Actions.countP_changed (fun a _ => a.renewed_ne s q now) (·.stage = .timedOut) as

namespace Sample

/-- A late action whose jobs have all ended, a late one without jobs, and one that is not late. -/
def stalled : Actions :=
  [action, .fresh {} 1000 "idle" "w" "c" {}, .fresh {} 3000 "new" "w" "d" {}]

end Sample

theorem expire_exact_sample :
    let now := 3602000
    let after := (Sample.stalled.expire {} Sample.halfFailed now).2
    (∃ b, after[0]? = some b ∧ b.status = .error ∧ b.stage = .failed) ∧
    (∃ b, after[1]? = some b ∧ b.status = .error ∧ b.stage = .timedOut) ∧
    after[2]? = Sample.stalled[2]? ∧
    (Sample.stalled.expire {} Sample.halfFailed now).1 = 1 := by
  intro now after
  have once : Sample.stalled.ids.Nodup := by decide
  have low :
      -(Number.twoTo 63 : Int) ≤ now - (({} : ActionSettings).timeoutSeconds : Int) * 1000 := by
    decide
  have spans : ∀ a ∈ Sample.stalled, a.IsLate {} now →
      now - a.processingSince < Number.twoTo 63 := by decide
  obtain ⟨_, rows, _, count⟩ := expire_exact {} Sample.stalled Sample.halfFailed now once
    (by decide) (by decide) low (by decide) spans
  refine ⟨?_, ?_, ?_, count.trans (by decide +kernel)⟩
  · obtain ⟨b, found, expiry⟩ := rows 0 _ rfl
    cases expiry with
    | kept inTime => exact absurd (by decide) inTime
    | ended _ _ _ _ ends => exact ⟨b, found, ends.unique (.failed (by decide) (by decide))⟩
  · obtain ⟨b, found, expiry⟩ := rows 1 _ rfl
    cases expiry with
    | kept inTime => exact absurd (by decide) inTime
    | ended _ _ _ _ ends => exact ⟨b, found, ends.unique (.timedOut (.inl (by decide)))⟩
  · obtain ⟨b, found, expiry⟩ := rows 2 _ rfl
    cases expiry with
    | kept => exact found
    | ended _ late => exact absurd late (by decide)

end IndexingPipeline
