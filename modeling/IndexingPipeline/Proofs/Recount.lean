import IndexingPipeline.Proofs.Actions
import IndexingPipeline.Proofs.Reindex

/-!
# Counting the jobs of an action anew

A refresh of a base's latest action counts all jobs of the base that were added since the action was
started, whatever was counted before. An action that is under way ends when there are such jobs and
none of them waits or is under way: done when all of them are completed, and in error otherwise. It
also ends when it has been under way for too long. What is counted is exact as long as the numbers
fit into a word, and a refresh after which no job has changed changes nothing more.
-/

namespace IndexingPipeline

namespace Queue

variable {q : Queue} {scope : JobScope}

/-- There are jobs of a choice, and none of them waits or is under way. -/
def RunOut (q : Queue) (scope : JobScope) : Prop :=
  (∃ j ∈ q, scope.includes j = true) ∧ ∀ j ∈ q, scope.includes j = true → j.isActive = false

theorem any_iff_filter : (∃ j ∈ q, scope.includes j = true) ↔ q.filter scope.includes ≠ [] := by
  rw [ne_eq, List.filter_eq_nil_iff]
  simp only [not_forall, not_not, exists_prop]

theorem all_iff_filter {p : Job → Prop} :
    (∀ j ∈ q, scope.includes j = true → p j) ↔ ∀ j ∈ q.filter scope.includes, p j := by
  simp only [List.mem_filter, and_imp]

theorem runOut_iff_filter : q.RunOut scope ↔
    q.filter scope.includes ≠ [] ∧ ∀ j ∈ q.filter scope.includes, j.isActive = false := by
  rw [RunOut, any_iff_filter, all_iff_filter]

theorem countOf_eq_filter (q : Queue) (scope : JobScope) (status : JobStatus) :
    q.countOf scope status =
      ((q.filter scope.includes).filter fun j => j.status = status).length := by
  rw [countOf, List.countP_eq_length_filter, List.filter_filter]
  congr 2
  funext j
  exact Bool.and_comm _ _

theorem countOf_eq_zero {status : JobStatus} :
    q.countOf scope status = 0 ↔ ∀ j ∈ q, scope.includes j = true → j.status ≠ status := by
  rw [countOf, List.countP_eq_zero]
  simp only [Bool.and_eq_true, decide_eq_true_eq, not_and, ne_eq]

variable (few : q.length < Number.twoTo 64)
include few

theorem total_pos : 0 < (q.counts scope).total ↔ ∃ j ∈ q, scope.includes j = true := by
  rw [counts_total few, List.countP_pos_iff]

theorem active_eq_zero :
    (q.counts scope).active = 0 ↔ ∀ j ∈ q, scope.includes j = true → j.isActive = false := by
  have bound : (q.counts scope).pending + (q.counts scope).processing < Number.twoTo 64 := by
    have sum := q.counts_sum scope
    have most : q.countP scope.includes ≤ q.length := List.countP_le_length
    omega
  rw [JobCounts.active, wrapU64, Nat.mod_eq_of_lt bound, Nat.add_eq_zero_iff]
  have waiting : (q.counts scope).pending = 0 ↔ _ := countOf_eq_zero
  have going : (q.counts scope).processing = 0 ↔ _ := countOf_eq_zero
  rw [waiting, going]
  constructor
  · rintro ⟨waiting, going⟩ j member chosen
    have unlike := waiting j member chosen
    have unlike' := going j member chosen
    simp [Job.isActive, unlike, unlike']
  · intro ended
    constructor
    all_goals
      intro j member chosen status
      have ranOut := ended j member chosen
      simp [Job.isActive, status] at ranOut

variable (q scope) in
/-- How the counts say that an action ends: not at all while a job of it waits or is under way, or
when there is none; done when all are completed, and in error when one has failed. -/
theorem ending_spec :
    match (Progress.ofCounts (q.counts scope)).ending with
    | none => ¬ q.RunOut scope
    | some .done => q.RunOut scope ∧ ∀ j ∈ q, scope.includes j = true → j.status = .completed
    | some .error => q.RunOut scope ∧ ∃ j ∈ q, scope.includes j = true ∧ j.status = .failed := by
  have ending : (Progress.ofCounts (q.counts scope)).ending =
      if 0 < (q.counts scope).total && (q.counts scope).active == 0 then
        some (if (q.counts scope).failed = 0 ∧ (q.counts scope).completed = (q.counts scope).total
          then .done else .error)
      else none := rfl
  by_cases ranOut : q.RunOut scope
  · have total := (total_pos few).mpr ranOut.1
    have active := (active_eq_zero few).mpr ranOut.2
    have none_failed : (q.counts scope).failed = 0 ↔ _ := countOf_eq_zero
    rw [ending]
    simp only [total, active, decide_true, beq_self_eq_true, Bool.and_self, if_true]
    -- none waits or is under way, so that those which have not failed are completed
    have ended : ∀ j ∈ q, scope.includes j = true → j.status = .completed ∨ j.status = .failed := by
      intro j member chosen
      have inactive := ranOut.2 j member chosen
      cases status : j.status <;> simp_all [Job.isActive]
    by_cases failed : (q.counts scope).failed = 0
    · have sum := q.counts_sum scope
      have waiting : (q.counts scope).pending = 0 := countOf_eq_zero.mpr fun j member chosen => by
        rcases ended j member chosen with status | status <;> simp [status]
      have going : (q.counts scope).processing = 0 := countOf_eq_zero.mpr fun j member chosen => by
        rcases ended j member chosen with status | status <;> simp [status]
      have all : (q.counts scope).completed = (q.counts scope).total := by
        rw [counts_total few]
        omega
      simp only [failed, all, and_self, if_true]
      refine ⟨ranOut, fun j member chosen => ?_⟩
      exact (ended j member chosen).resolve_right (none_failed.mp failed j member chosen)
    · simp only [failed, false_and, if_false]
      refine ⟨ranOut, ?_⟩
      by_contra none_of
      refine failed (none_failed.mpr fun j member chosen status => none_of ?_)
      exact ⟨j, member, chosen, status⟩
  · have undecided : ¬ ((decide (0 < (q.counts scope).total) &&
        (q.counts scope).active == 0) = true) := by
      rw [Bool.and_eq_true, decide_eq_true_eq, beq_iff_eq, total_pos few, active_eq_zero few]
      exact ranOut
    rw [ending, if_neg undecided]
    exact ranOut

end Queue

/-- Of a list the first so many, when as many fit into a word; a limit that does not fit into a
signed one is none, and no list is as long. -/
theorem Queue.limited_length {α : Type} {xs : List α} (short : xs.length < Number.twoTo 63)
    {most : Nat} (fits : most < Number.twoTo 64) :
    (limited (wrap64 most) xs).length = min xs.length most := by
  have half : Number.twoTo 63 = 9223372036854775808 := rfl
  have whole : Number.twoTo 64 = 18446744073709551616 := rfl
  rw [half] at short
  rw [whole] at fits
  by_cases small : most < 9223372036854775808
  · have same : wrap64 most = most := by
      refine wrap64_of_inRange ?_ ?_
      · rw [half]
        omega
      · rw [half]
        omega
    have positive : ¬ (most : Int) < 0 := by omega
    rw [same, limited, if_neg positive, List.length_take, Int.toNat_natCast]
    exact Nat.min_comm _ _
  · have negative : wrap64 most < 0 := by
      rw [wrap64, whole, Int.bmod_def]
      omega
    rw [limited, if_pos negative]
    omega

theorem Queue.limited_sublist {α : Type} (limit : Int) (xs : List α) :
    (limited limit xs).Sublist xs := by
  rw [limited]
  split
  · exact List.Sublist.refl xs
  · exact List.take_sublist _ _

namespace Action

variable {s : ActionSettings} {q : Queue} {now : Int} {a : Action}

/-- The failed jobs that are listed: as many as there are or are to be listed, none of them
twice. -/
theorem failedOf_spec (once : q.ids.Nodup) (few : q.length < Number.twoTo 63) (scope : JobScope)
    {most : Nat} (fits : most < Number.twoTo 64) :
    ∃ listed : List Job,
      failedOf q scope most = listed.map (fun j => ⟨j.documentId, j.lastError.getD ""⟩) ∧
      (listed.map (·.id)).Nodup ∧ listed.length = min (q.countOf scope .failed) most ∧
      ∀ j ∈ listed, j ∈ q ∧ scope.includes j = true ∧ j.status = .failed := by
  let failed := q.filter fun j => scope.includes j && (some JobStatus.failed).all (· = j.status)
  have sorted := failed.mergeSort_perm fun a b => decide (b.updatedAt ≤ a.updatedAt)
  have listed := Queue.limited_sublist (wrap64 most)
    (failed.mergeSort fun a b => b.updatedAt ≤ a.updatedAt)
  have count : failed.length = q.countOf scope .failed := by
    rw [Queue.countOf, List.countP_eq_length_filter]
    simp only [failed, Option.all_some, eq_comm]
  refine ⟨q.list scope (some .failed) (wrap64 most), rfl, ?_, ?_, ?_⟩
  · have apart : (failed.map (·.id)).Nodup := once.sublist (List.filter_sublist.map _)
    exact ((sorted.map (·.id)).nodup_iff.mpr apart).sublist (listed.map _)
  · have short : (failed.mergeSort fun a b => b.updatedAt ≤ a.updatedAt).length <
        Number.twoTo 63 := by
      rw [sorted.length_eq]
      exact Nat.lt_of_le_of_lt (List.length_filter_le _ _) few
    rw [← count, ← sorted.length_eq]
    exact Queue.limited_length short fits
  · intro j member
    obtain ⟨there, chosen⟩ := List.mem_filter.mp (sorted.mem_iff.mp (listed.subset member))
    simp only [Option.all_some, Bool.and_eq_true, decide_eq_true_eq] at chosen
    exact ⟨there, chosen.1, chosen.2.symm⟩

theorem recounted_again {b : Action} {events : List ActionEvent} (scope : b.scope = a.scope)
    (counted : b.report = { (recounted s q a).report with events }) : recounted s q b = b := by
  have same : (recounted s q b).report = b.report := by
    rw [recounted, scope, counted, recounted]
    by_cases any : 0 < (Progress.ofCounts (q.counts a.scope)).failed
    · simp only [any, if_true]
    · simp only [any, if_false]
  calc recounted s q b = { b with report := (recounted s q b).report } := rfl
    _ = b := by rw [same]

/-- An action that is under way after a refresh was so before, has not ended and is not overdue. -/
theorem going_of_refreshed (processing : (a.refreshed s q now).status = .processing) :
    a.status = .processing ∧ (Progress.ofCounts (q.counts a.scope)).ending = none ∧
      a.isOverdue s now = false := by
  by_cases under_way : a.status = .processing
  · rw [refreshed_status, if_pos under_way, standing] at processing
    cases ending : (Progress.ofCounts (q.counts a.scope)).ending with
    | some ending' => cases ending' <;> simp [ending] at processing
    | none =>
      cases overdue : a.isOverdue s now with
      | true => simp [ending, overdue] at processing
      | false => exact ⟨under_way, rfl, rfl⟩
  · rw [refreshed_status, if_neg under_way] at processing
    exact absurd processing under_way

/-- What is said of an action under way: how many of its documents have been processed. -/
def tally (r : ActionReport) : String :=
  "Indexed " ++ toString r.processed ++ " of " ++ toString r.total ++ " documents (" ++
    toString r.percent ++ "%)"

theorem settled_going (inTime : a.isOverdue s now = false) :
    a.settled s now none = { a with displayText := tally a.report } := by
  simp only [settled, inTime, if_false, Bool.false_eq_true, tally]

/-- A refresh after which no job has changed and no time has passed changes nothing. -/
theorem refreshed_again (s : ActionSettings) (q : Queue) (now : Int) (a : Action) :
    (a.refreshed s q now).refreshed s q now = a.refreshed s q now := by
  have scope := (a.refreshed_sameStart s q now).scope
  obtain ⟨status, stage, displayText, events, eq⟩ := a.refreshed_eq s q now
  have again : recounted s q (a.refreshed s q now) = a.refreshed s q now :=
    recounted_again scope (by rw [eq])
  by_cases processing : (a.refreshed s q now).status = .processing
  · obtain ⟨under_way, undecided, inTime⟩ := going_of_refreshed processing
    have first : a.refreshed s q now = { recounted s q a with
        displayText := tally (recounted s q a).report, updatedAt := now } := by
      have counted : (recounted s q a).isOverdue s now = false := inTime
      simp only [refreshed, under_way, if_true, undecided, settled_going counted]
    have second : (a.refreshed s q now).refreshed s q now = { a.refreshed s q now with
        displayText := tally (a.refreshed s q now).report, updatedAt := now } := by
      have since : (a.refreshed s q now).isOverdue s now = false := by
        rw [eq]
        exact inTime
      rw [refreshed, again, if_pos processing, scope, undecided, settled_going since]
    rw [second, first]
  · have still : (a.refreshed s q now).refreshed s q now =
        { a.refreshed s q now with updatedAt := now } := by
      rw [refreshed, again, if_neg processing]
    rw [still, eq]

theorem settled_versioned (s : ActionSettings) (now : Int) (ending : Option Ending) (a : Action)
    (n : Nat) : ({ a with rowVersion := n } : Action).settled s now ending =
      { a.settled s now ending with rowVersion := n } := by
  cases ending with
  | some ending => cases ending <;> rfl
  | none =>
    have overdue : isOverdue s now { a with rowVersion := n } = a.isOverdue s now := rfl
    simp only [settled, overdue]
    cases a.isOverdue s now <;> rfl

theorem refreshed_versioned (s : ActionSettings) (q : Queue) (now : Int) (a : Action) (n : Nat) :
    ({ a with rowVersion := n } : Action).refreshed s q now =
      { a.refreshed s q now with rowVersion := n } := by
  have scope : ({ a with rowVersion := n } : Action).scope = a.scope := rfl
  have counted : recounted s q { a with rowVersion := n } =
      { recounted s q a with rowVersion := n } := rfl
  rw [refreshed, refreshed, scope, counted]
  by_cases processing : a.status = .processing
  · rw [if_pos processing, if_pos processing, settled_versioned]
  · rw [if_neg processing, if_neg processing]

/-- Whether an action is overdue, when its times fit into words. -/
theorem isOverdue_iff (short : s.timeoutSeconds * 1000 < Number.twoTo 63)
    (low : -(Number.twoTo 63 : Int) ≤ now - a.processingSince)
    (high : now - a.processingSince < Number.twoTo 63) :
    a.isOverdue s now = true ↔ (s.timeoutSeconds * 1000 : Int) < now - a.processingSince := by
  rw [isOverdue, millis_of_inRange short, wrap64_of_inRange low high, decide_eq_true_eq]

/-- How an action under way stands after a refresh: done when it has jobs and all are completed, in
error when none of its jobs is left and one has failed, or when it is overdue before that. -/
theorem standing_spec (s : ActionSettings) (now : Int) (a : Action)
    (few : q.length < Number.twoTo 64) :
    (a.standing s q now = .done ↔ (∃ j ∈ q, a.scope.includes j = true) ∧
      ∀ j ∈ q, a.scope.includes j = true → j.status = .completed) ∧
    (a.standing s q now = .error ↔
      q.RunOut a.scope ∧ (∃ j ∈ q, a.scope.includes j = true ∧ j.status = .failed) ∨
      ¬ q.RunOut a.scope ∧ a.isOverdue s now = true) ∧
    (a.standing s q now = .done ∨ a.standing s q now = .error ∨
      a.standing s q now = .processing) := by
  have ending := q.ending_spec a.scope few
  have over_of : (∃ j ∈ q, a.scope.includes j = true) →
      (∀ j ∈ q, a.scope.includes j = true → j.status = .completed) → q.RunOut a.scope := by
    intro some_jobs completed
    refine ⟨some_jobs, fun j member chosen => ?_⟩
    simp [Job.isActive, completed j member chosen]
  have not_both : (∃ j ∈ q, a.scope.includes j = true ∧ j.status = .failed) →
      ¬ ∀ j ∈ q, a.scope.includes j = true → j.status = .completed := by
    rintro ⟨j, member, chosen, failed⟩ completed
    rw [completed j member chosen] at failed
    cases failed
  rw [standing]
  cases answer : (Progress.ofCounts (q.counts a.scope)).ending with
  | some how =>
    rw [answer] at ending
    cases how with
    | done =>
      obtain ⟨ranOut, completed⟩ := ending
      refine ⟨⟨fun _ => ⟨ranOut.1, completed⟩, fun _ => rfl⟩, ⟨fun h => ?_, fun h => ?_⟩, .inl rfl⟩
      · cases h
      · rcases h with ⟨_, failed⟩ | ⟨going, _⟩
        · exact absurd completed (not_both failed)
        · exact absurd ranOut going
    | error =>
      obtain ⟨ranOut, failed⟩ := ending
      refine ⟨⟨fun h => ?_, fun h => ?_⟩, ⟨fun _ => .inl ⟨ranOut, failed⟩, fun _ => rfl⟩,
        .inr (.inl rfl)⟩
      · cases h
      · exact absurd h.2 (not_both failed)
  | none =>
    rw [answer] at ending
    cases late : a.isOverdue s now with
    | true =>
      refine ⟨⟨fun h => ?_, fun h => ?_⟩, ⟨fun _ => .inr ⟨ending, rfl⟩, fun _ => rfl⟩,
        .inr (.inl rfl)⟩
      · cases h
      · exact absurd (over_of h.1 h.2) ending
    | false =>
      refine ⟨⟨fun h => ?_, fun h => ?_⟩, ⟨fun h => ?_, fun h => ?_⟩, .inr (.inr rfl)⟩
      · cases h
      · exact absurd (over_of h.1 h.2) ending
      · cases h
      · rcases h with ⟨ranOut, _⟩ | ⟨_, late⟩
        · exact absurd ranOut ending
        · cases late

/-- The same, said of the jobs that an action counts and of how long it has been under way. -/
theorem standing_window (s : ActionSettings) {now : Int} (a : Action)
    (few : q.length < Number.twoTo 64) (short : s.timeoutSeconds * 1000 < Number.twoTo 63)
    (low : -(Number.twoTo 63 : Int) ≤ now - a.processingSince)
    (high : now - a.processingSince < Number.twoTo 63) :
    let window := q.filter a.scope.includes
    (a.standing s q now = .done ↔ window ≠ [] ∧ ∀ j ∈ window, j.status = .completed) ∧
    (a.standing s q now = .error ↔
      window ≠ [] ∧ (∀ j ∈ window, j.isActive = false) ∧ (∃ j ∈ window, j.status = .failed) ∨
      (window = [] ∨ ∃ j ∈ window, j.isActive = true) ∧
        (s.timeoutSeconds * 1000 : Int) < now - a.processingSince) ∧
    (a.standing s q now = .done ∨ a.standing s q now = .error ∨
      a.standing s q now = .processing) := by
  intro window
  obtain ⟨done, error, stands⟩ := a.standing_spec s now few
  have overdue := isOverdue_iff short low high
  have left : ¬ q.RunOut a.scope ↔ window = [] ∨ ∃ j ∈ window, j.isActive = true := by
    rw [Queue.runOut_iff_filter, not_and_or, not_not]
    simp only [not_forall, Bool.not_eq_false, exists_prop, window]
  have failed : (∃ j ∈ q, a.scope.includes j = true ∧ j.status = .failed) ↔
      ∃ j ∈ window, j.status = .failed := by
    simp only [List.mem_filter, and_assoc, window]
  refine ⟨?_, ?_, stands⟩
  · rw [done, Queue.any_iff_filter, Queue.all_iff_filter]
  · rw [error, left, overdue, failed, Queue.runOut_iff_filter, and_assoc]

/-- The jobs of an action are those of its base that were added since it was started. -/
theorem scope_includes (a : Action) : a.scope.includes = fun j : Job =>
    j.workspaceId = a.workspaceId && j.baseId = a.baseId && a.createdAt ≤ j.createdAt := by
  funext j
  simp only [scope, JobScope.includes, Option.all_some, eq_comm]

/-- What a refresh counts: all jobs of the action, those that have ended and those that failed, of
which it lists as many as there are or are to be listed. -/
theorem refreshed_counts (s : ActionSettings) (now : Int) (a : Action) (once : q.ids.Nodup)
    (few : q.length < Number.twoTo 63) (fits : s.maxFailedListed < Number.twoTo 64) :
    let window := q.filter a.scope.includes
    let r := (a.refreshed s q now).report
    r.total = window.length ∧
    r.processed =
      (window.filter fun j => j.status = .completed).length +
        (window.filter fun j => j.status = .failed).length ∧
    r.failedCount = (window.filter fun j => j.status = .failed).length ∧
    (0 < r.failedCount → ∃ listed : List Job,
      r.failed = listed.map (fun j => ⟨j.documentId, j.lastError.getD ""⟩) ∧
      (listed.map (·.id)).Nodup ∧ listed.length = min r.failedCount s.maxFailedListed ∧
      ∀ j ∈ listed, j ∈ window ∧ j.status = .failed) := by
  intro window r
  have room : q.length < Number.twoTo 64 :=
    Nat.lt_trans few (Nat.pow_lt_pow_right (by omega) (by omega))
  have completed : q.countOf a.scope .completed = _ := Queue.countOf_eq_filter q a.scope .completed
  have failed : q.countOf a.scope .failed = _ := Queue.countOf_eq_filter q a.scope .failed
  obtain ⟨status, stage, displayText, events, eq⟩ := a.refreshed_eq s q now
  have report : r = { (recounted s q a).report with events } := by
    simp only [r, eq]
  have failedCount : r.failedCount = q.countOf a.scope .failed := by
    rw [report]
    rfl
  refine ⟨?_, ?_, failedCount.trans failed, fun any => ?_⟩
  · have total : r.total = (q.counts a.scope).total := by
      rw [report]
      rfl
    rw [total, Queue.counts_total room, List.countP_eq_length_filter]
  · have processed : r.processed =
        wrapU64 (q.countOf a.scope .completed + q.countOf a.scope .failed) := by
      rw [report]
      rfl
    have sum := q.counts_sum a.scope
    have most : q.countP a.scope.includes ≤ q.length := List.countP_le_length
    have bound : q.countOf a.scope .completed + q.countOf a.scope .failed < Number.twoTo 64 := by
      simp only [Queue.counts] at sum
      omega
    rw [processed, wrapU64, Nat.mod_eq_of_lt bound, completed, failed]
  · obtain ⟨listed, eq, apart, length, own⟩ := failedOf_spec once few a.scope fits
    rw [failedCount] at any
    have listing : r.failed = failedOf q a.scope s.maxFailedListed := by
      rw [report]
      exact if_pos any
    refine ⟨listed, listing.trans eq, apart, by rw [length, failedCount], ?_⟩
    intro j member
    obtain ⟨there, chosen, status⟩ := own j member
    exact ⟨List.mem_filter.mpr ⟨there, chosen⟩, status⟩

end Action

/-- After a refresh of the latest action of a base a second one, with no job changed and no time
passed, changes nothing but the version of the row. -/
theorem Actions.refreshLatest_again (s : ActionSettings) {as : Actions} (q : Queue) (now : Int)
    {workspace base : String} {a : Action} (once : as.ids.Nodup)
    (latest : as.latest? workspace base = some a) :
    let b := { a.refreshed s q now with rowVersion := a.rowVersion + 1 }
    ∃ n, (as.put b).refreshLatest s q now workspace base =
      (some { b with rowVersion := n }, as.put { b with rowVersion := n }) := by
  intro b
  have second := latest?_put once (a.refreshed_written s q now (a.rowVersion + 1)) latest
  rw [refreshLatest_of_latest s q now second]
  by_cases ended : b.status.isTerminal = true
  · exact ⟨b.rowVersion, if_pos ended⟩
  · have again : b.refreshed s q now = b := by
      rw [Action.refreshed_versioned, a.refreshed_again s q now]
    refine ⟨b.rowVersion + 1, ?_⟩
    rw [if_neg ended, again]
    exact congrArg (Prod.mk _) (as.put_put rfl)

/-- Let the latest action of a base be refreshed, whatever jobs there are, with numbers that fit
into words. One that has ended is left as it is. Of any other, the jobs of the base that were added
since it was started are counted: how many they are, how many have ended and how many have failed,
of which as many as there are or are to be listed are listed with their errors, none of them twice.
One that was under way is done when there are such jobs and all are completed; it is in error when
none of them is left and one has failed, or when some are left or there are none and it has been
under way for longer than it may; otherwise it stays under way. One that was paused stays paused. A
second refresh, with no job changed and no time passed, changes nothing but the version of the row.
-/
theorem progress_recounted (s : ActionSettings) {as : Actions} {q : Queue} {now : Int}
    {workspace base : String} {a : Action} (once : as.ids.Nodup) (jobs_once : q.ids.Nodup)
    (few : q.length < Number.twoTo 63) (short : s.timeoutSeconds * 1000 < Number.twoTo 63)
    (fits : s.maxFailedListed < Number.twoTo 64)
    (low : -(Number.twoTo 63 : Int) ≤ now - a.processingSince)
    (high : now - a.processingSince < Number.twoTo 63)
    (latest : as.latest? workspace base = some a) :
    let window := q.filter fun j =>
      j.workspaceId = workspace && j.baseId = base && a.createdAt ≤ j.createdAt
    (a.status.isTerminal = true → as.refreshLatest s q now workspace base = (some a, as)) ∧
    (a.status.isTerminal = false → ∃ b,
      as.refreshLatest s q now workspace base = (some b, as.put b) ∧
      a.SameStart b ∧ b.rowVersion = a.rowVersion + 1 ∧
      b.report.total = window.length ∧
      b.report.processed =
        (window.filter fun j => j.status = .completed).length +
          (window.filter fun j => j.status = .failed).length ∧
      b.report.failedCount = (window.filter fun j => j.status = .failed).length ∧
      (0 < b.report.failedCount → ∃ listed : List Job,
        b.report.failed = listed.map (fun j => ⟨j.documentId, j.lastError.getD ""⟩) ∧
        (listed.map (·.id)).Nodup ∧
        listed.length = min b.report.failedCount s.maxFailedListed ∧
        ∀ j ∈ listed, j ∈ window ∧ j.status = .failed) ∧
      (a.status = .processing →
        (b.status = .done ↔ window ≠ [] ∧ ∀ j ∈ window, j.status = .completed) ∧
        (b.status = .error ↔
          window ≠ [] ∧ (∀ j ∈ window, j.isActive = false) ∧ (∃ j ∈ window, j.status = .failed) ∨
          (window = [] ∨ ∃ j ∈ window, j.isActive = true) ∧
            (s.timeoutSeconds * 1000 : Int) < now - a.processingSince) ∧
        (b.status = .done ∨ b.status = .error ∨ b.status = .processing)) ∧
      (a.status = .paused → b.status = .paused) ∧
      ∃ n, (as.put b).refreshLatest s q now workspace base =
        (some { b with rowVersion := n }, as.put { b with rowVersion := n })) := by
  intro window
  obtain ⟨_, own, own'⟩ := Actions.latest?_spec latest
  have room : q.length < Number.twoTo 64 :=
    Nat.lt_trans few (Nat.pow_lt_pow_right (by omega) (by omega))
  have chosen : window = q.filter a.scope.includes := by
    rw [a.scope_includes, own, own']
  have answer := Actions.refreshLatest_of_latest s q now latest
  constructor
  · intro terminal
    rw [answer, if_pos terminal]
  · intro going
    let b : Action := { a.refreshed s q now with rowVersion := a.rowVersion + 1 }
    have written : as.refreshLatest s q now workspace base = (some b, as.put b) := by
      rw [answer, if_neg (by simp [going])]
    have status : b.status = if a.status = .processing then a.standing s q now else a.status :=
      a.refreshed_status s q now
    obtain ⟨total, processed, failed, listed⟩ := a.refreshed_counts s now jobs_once few fits
    rw [chosen]
    refine ⟨b, written, a.refreshed_written s q now _, rfl, total, processed, failed, listed, ?_, ?_,
      Actions.refreshLatest_again s q now once latest⟩
    · intro processing
      rw [status, if_pos processing]
      exact a.standing_window s room short low high
    · intro paused
      rw [status, paused]
      rfl

namespace Sample

/-- Of two jobs of the action one is completed and one has failed. -/
def halfFailed : Queue :=
  [jobOf "j" .completed, { jobOf "k" .failed with lastError := some "down" }]

end Sample

theorem progress_recounted_sample : ∃ b,
    Actions.refreshLatest [Sample.action] {} Sample.halfFailed 2000 "w" "b" =
      (some b, Actions.put [Sample.action] b) ∧
    b.report.total = 2 ∧ b.report.processed = 2 ∧ b.report.failedCount = 1 ∧
    b.status = .error ∧ b.report.failed.length = 1 := by
  have once : (Actions.ids [Sample.action]).Nodup := by decide
  have jobs_once : Sample.halfFailed.ids.Nodup := by decide
  have latest : Actions.latest? [Sample.action] "w" "b" = some Sample.action := by decide
  have low : -(Number.twoTo 63 : Int) ≤ 2000 - Sample.action.processingSince := by decide
  have high : 2000 - Sample.action.processingSince < (Number.twoTo 63 : Int) := by decide
  obtain ⟨_, going⟩ := progress_recounted {} once jobs_once (by decide) (by decide) (by decide)
    low high latest
  obtain ⟨b, answer, _, _, total, processed, failed, listed, under_way, _, _⟩ := going rfl
  have one_failed : b.report.failedCount = 1 := failed.trans (by decide)
  have some_failed : 0 < b.report.failedCount := one_failed ▸ Nat.one_pos
  obtain ⟨jobs, eq, _, length, _⟩ := listed some_failed
  refine ⟨b, answer, total.trans (by decide), processed.trans (by decide), one_failed, ?_, ?_⟩
  · exact (under_way rfl).2.1.mpr (.inl (by decide))
  · rw [eq, List.length_map, length, one_failed]
    rfl

end IndexingPipeline
