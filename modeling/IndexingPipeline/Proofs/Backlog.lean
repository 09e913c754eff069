import IndexingPipeline.Proofs.Draining
import IndexingPipeline.Proofs.Polling

/-!
# What a drained queue may still hold

A worker that drains the queue stops at the first job that gets nowhere, and such a job is put back
because the latest action of its base is paused or because its document is locked. If the worker
comes to an end without one, nothing is due any more. With one, whatever was due behind it is left,
though it may be of another base and free to run.
-/

namespace IndexingPipeline

/-- Why a job is put back until a moment: the latest action of its base is paused, or its document
is locked. -/
inductive Outcome.Excuses (w : World) (job : Job) (moment : Int) : Outcome → Prop
  | paused (a : Action) :
      w.db.actions.latest? job.workspaceId job.baseId = some a → a.status = .paused →
      Excuses w job moment (.paused moment)
  | lockBusy : w.db.locks.isHeld w.now job.workspaceId job.documentId = true →
      Excuses w job moment (.lockBusy moment)

/-- An outcome for which a job waits again, as it still has to. -/
def Outcome.PutsBack (w : World) (outcome : Outcome) : Prop :=
  ∃ j ∈ w.db.jobs, j.status = .pending ∧ outcome.Excuses w j j.scheduledAt

def Stage.Excused (w : World) (job : Job) : Stage → Prop
  | .deferring outcome moment _ => outcome.Excuses w job moment
  | .refreshing outcome => outcome.isHandled = true
  | .releasing outcome => outcome.isHandled = true
  | .finished outcome => outcome.isHandled = true ∨ outcome.PutsBack w
  | _ => True

theorem World.isHeld_of_refused {w : World} {lifetime : Int} {workspace document : String}
    (refused : (w.acquire lifetime workspace document).1 = none) :
    w.db.locks.isHeld w.now workspace document = true := by
  rw [acquire_holder] at refused
  rcases w.db.locks.acquire_cases w.now lifetime workspace document (Identifier.ofNat w.drawn) with
    ⟨_, added⟩ | ⟨_, _, _, replaced⟩ | ⟨l, found, unexpired, _⟩
  · rw [added] at refused
    cases refused
  · rw [replaced] at refused
    cases refused
  · refine List.any_eq_true.mpr ⟨l, List.mem_of_find?_eq_some found, ?_⟩
    rw [Bool.and_eq_true, decide_eq_true_eq]
    exact ⟨List.find?_some found, unexpired⟩

namespace Run

variable {s : Setup} {job : Job} {w₀ w w' : World} {r r' : Run}

theorem Move.excused (m : Move s r w r' w') (h : Abreast s job w₀ r w)
    (excused : r.stage.Excused w job) : r'.stage.Excused w' job := by
  have row := h.row
  obtain rfl := h.same_job
  cases m with
  | paused a latest status => exact .paused a latest status
  | busy _ refused =>
    have held := World.isHeld_of_refused refused
    rw [← World.locks_of_refused refused] at held
    exact .lockBusy held
  | @deferred job _ _ outcome moment reason =>
    have found : (w.db.jobs.reschedule w.now job.id moment reason).job? job.id =
        some { job with
          status := .pending, scheduledAt := moment, claimedAt := none
          lastError := some reason, updatedAt := w.now } := by
      rw [Queue.reschedule, Queue.job?_update (by intro j; rfl), row rfl, Option.map_some]
    refine .inr ⟨_, (Queue.mem_of_job? found).1, rfl, ?_⟩
    cases excused with
    | paused a latest status => exact .paused a latest status
    | lockBusy held => exact .lockBusy held
  | refreshed outcome =>
    dsimp only
    split
    · exact excused
    · exact .inl excused
  | released | unlocked => exact .inl excused
  | cleaned | retried | unnoted | noted => rfl
  | _ => trivial

end Run

/-- A claim hands out a job unless none is due. -/
theorem Queue.due_of_claim_none {q : Queue} {now : Int} (nothing : (q.claim now).1 = none) :
    q.due now = [] := by
  rcases soonest?_split (q.due now) with ⟨empty, _⟩ | ⟨_, j, _, _, first, _⟩
  · exact empty
  · rw [claim, first] at nothing
    cases nothing

namespace World

variable {s : Setup} {w v : World} {outcome : Outcome}

theorem claim_of_idle (polled : w.poll s = (.idle, v)) :
    (w.housekeeping s.config).claim = (none, v) := by
  unfold poll at polled
  split at polled
  · rename_i claimed
    rw [claimed, (Prod.mk.inj polled).2]
  · split at polled <;> cases polled

theorem none_due (polled : w.poll s = (.idle, v)) :
    ∀ j ∈ v.db.jobs, j.status = .pending → v.now < j.scheduledAt := by
  intro j member waits
  have idle := claim_of_idle polled
  obtain rfl : w.housekeeping s.config = v :=
    (claim_none (congrArg Prod.fst idle)).symm.trans (congrArg Prod.snd idle)
  have nothing := Queue.due_of_claim_none (congrArg Prod.fst idle)
  by_contra late
  have due : j ∈ (w.housekeeping s.config).db.jobs.due (w.housekeeping s.config).now :=
    List.mem_filter.mpr ⟨member, by simpa [waits] using late⟩
  rw [nothing] at due
  cases due

/-- A poll that stops the worker has put a job back, and for a reason. -/
theorem poll_putsBack (sound : w.Sound) (polled : w.poll s = (.ran outcome, v))
    (unhandled : outcome.isHandled = false) : outcome.PutsBack v := by
  have tidy := (w.housekeeping_around s.config).sound sound
  rcases w.poll_cases s with ⟨_, idle⟩ | ⟨job, claimed, world, outcomes⟩
  · rw [idle] at polled
    cases polled
  · obtain ⟨row, taken⟩ := claim_claimed _ tidy claimed
    have ended := Run.complete_keeps (s := s)
      (I := fun r v => Run.Abreast s job (w.housekeeping s.config).claim.2 r v ∧
        r.stage.Excused v job)
      (fun _ _ _ _ h m => ⟨h.1.move m (by simp [taken]), m.excused h.1 h.2⟩) (.start job) _
      ⟨.start s ((claim_around _).sound tidy) row, trivial⟩
    obtain rfl : (w.poll s).2 = v := congrArg Prod.snd polled
    have finished := process_finished (outcomes outcome (congrArg Prod.fst polled))
    rw [← world, finished] at ended
    exact ended.2.resolve_left (by simp [unhandled])

end World

/-- Let a worker drain any queue, whatever services answer, others do and the clock shows meanwhile,
and let it come to an end without being stopped by something that nothing handles. If all jobs that
it took got somewhere, nothing is due at its last poll. Otherwise it was the last one alone that did
not: that job waits again, because the latest action of its base is paused or its document is
locked. -/
theorem drain_stops {s : Setup} {w v : World} (sound : w.Sound) {pauses : List Int}
    {outcomes : List Outcome} (drains : w.Drains s pauses outcomes false v) :
    ((∀ pause ∈ pauses, pause = 0) →
      ∀ bound, pauses.length ≤ bound → w.drainWithin s bound = (outcomes, false, v)) ∧
    (((∀ o ∈ outcomes, o.isHandled = true) ∧
        ∀ j ∈ v.db.jobs, j.status = .pending → v.now < j.scheduledAt) ∨
      ∃ before last, outcomes = before ++ [last] ∧ (∀ o ∈ before, o.isHandled = true) ∧
        last.isHandled = false ∧ last.PutsBack v) := by
  refine ⟨fun still bound enough => drains.within still enough, ?_⟩
  generalize stops : false = stopped at drains
  induction drains with
  | crashed => cases stops
  | idle polled =>
    exact .inl ⟨fun _ none => absurd none List.not_mem_nil, World.none_due polled⟩
  | @deferred w v pause outcome polled unhandled =>
    have before : (w.later pause).Sound := sound.of_db (Nat.le_refl _) rfl
    exact .inr ⟨[], outcome, rfl, fun _ none => absurd none List.not_mem_nil, unhandled,
      World.poll_putsBack before polled unhandled⟩
  | @handled w v u pause pauses outcome outcomes stopped polled handled _ ih =>
    have before : (w.later pause).Sound := sound.of_db (Nat.le_refl _) rfl
    have sound' : v.Sound := by
      have after := before.incur s (.op .poll)
      obtain rfl : ((w.later pause).poll s).2 = v := congrArg Prod.snd polled
      exact after
    rcases ih sound' stops with ⟨all, none⟩ | ⟨before, last, split, others, stop, back⟩
    · exact .inl ⟨List.forall_mem_cons.mpr ⟨handled, all⟩, none⟩
    · refine .inr ⟨outcome :: before, last, by rw [split]; rfl, ?_, stop, back⟩
      exact List.forall_mem_cons.mpr ⟨handled, others⟩

namespace Sample

/-- A document waits in a base whose action is paused, and behind it one in another base. -/
def halted : World :=
  ((Crew.initial 1000 [] {}).play
    [.interfere setup.config (.submit "w" "a" "d" "v1" "one"),
      .interfere setup.config (.submit "w" "b" "e" "v1" "two"),
      .onActions fun _ => [{ Action.fresh {} 1000 "x" "w" "a" {} with status := .paused }]]).world

def haltedRun : Run × World :=
  Run.steps setup 2 (.start ((halted.housekeeping setup.config).claim.1.getD default))
    (halted.housekeeping setup.config).claim.2

theorem halted_drains :
    halted.Drains setup [0] [.paused 11000] false haltedRun.2 := by
  have polled : (halted.later 0).poll setup = (haltedRun.1.stage.result, haltedRun.2) :=
    World.poll_of_steps 2 (by decide +kernel) (by decide +kernel)
  have ended : haltedRun.1.stage.result = .ran (.paused 11000) := by decide +kernel
  rw [ended] at polled
  exact .deferred polled rfl

end Sample

/-- A job of the base whose action is paused stops the worker. -/
theorem drain_stops_sample :
    Sample.halted.Sound ∧
    Sample.halted.Drains Sample.setup [0] [.paused 11000] false Sample.haltedRun.2 ∧
    (Outcome.paused 11000).PutsBack Sample.haltedRun.2 := by
  have sound : Sample.halted.Sound := ((Crew.initial_good 1000 [] {}).play _).1.sound
  obtain ⟨-, ⟨all, -⟩ | ⟨before, last, split, -, -, back⟩⟩ := drain_stops sound Sample.halted_drains
  · exact absurd (all _ (.head _)) (by decide)
  · obtain rfl : Outcome.paused 11000 = last := by
      simpa using congrArg List.getLast? split
    exact ⟨sound, Sample.halted_drains, back⟩

/-- The worker stops, and the job of the other base is left, though it is due and nothing keeps it
from running. -/
theorem drain_leaves_due :
    let done := Sample.halted.drain Sample.setup
    done.1 = [.paused 11000] ∧ done.2.1 = false ∧
    ∃ j ∈ done.2.2.db.jobs, j.status = .pending ∧ j.scheduledAt ≤ done.2.2.now ∧
      done.2.2.db.actions.latest? j.workspaceId j.baseId = none ∧
      done.2.2.db.locks.isHeld done.2.2.now j.workspaceId j.documentId = false := by
  intro done
  have enough := Sample.halted.executions_lt_pollsLeft Sample.setup.config
  have stopped : done = ([.paused 11000], false, Sample.haltedRun.2) :=
    Sample.halted_drains.within (by simp) (Nat.le_trans (Nat.le_add_right 1 _) enough)
  have left : (Sample.haltedRun.2.db.jobs.any fun j =>
      j.status = .pending && j.scheduledAt ≤ Sample.haltedRun.2.now &&
      (Sample.haltedRun.2.db.actions.latest? j.workspaceId j.baseId).isNone &&
      !Sample.haltedRun.2.db.locks.isHeld Sample.haltedRun.2.now j.workspaceId j.documentId) =
        true := by decide +kernel
  rw [stopped]
  refine ⟨rfl, rfl, ?_⟩
  simpa [and_assoc] using left

end IndexingPipeline
