import IndexingPipeline.Proofs.Incidents

/-!
# How an action rules a run

A run looks at the latest action of its job's base once, before anything else. That action may put
the job back, fail it or lend it settings; whatever else actions are, and whatever becomes of them
meanwhile, the run goes as it would without them. So the runs of two worlds that differ in their
actions only, and in which the first look comes to the same, go side by side.
-/

namespace IndexingPipeline

namespace World

variable {s : Setup} {w : World}

def withActions (w : World) (as : Actions) : World := w.onActions fun _ => as

theorem interfereAll_withActions (cfg : Config) (is : List Interference) (w : World)
    (as : Actions) : ∃ as', is.foldl (interfere cfg) (w.withActions as) =
      (is.foldl (interfere cfg) w).withActions as' := by
  induction is generalizing w as with
  | nil => exact ⟨as, rfl⟩
  | cons i rest ih =>
    have next : ∃ as', (w.withActions as).interfere cfg i =
        (w.interfere cfg i).withActions as' := by
      cases i with
      | control action c => exact ⟨(as.control cfg.actions w.now action c).2, rfl⟩
      | advance | submit | lock => exact ⟨as, rfl⟩
    obtain ⟨as', next⟩ := next
    rw [List.foldl_cons, List.foldl_cons, next]
    exact ih _ as'

theorem embed_withActions (s : Setup) (w : World) (as : Actions) (p : Provider)
    (token : Option String) (text : String) :
    ∃ as', (w.withActions as).embed s p token text =
      ((w.embed s p token text).1, (w.embed s p token text).2.withActions as') := by
  unfold embed
  split
  · exact ⟨as, rfl⟩
  · obtain ⟨as', same⟩ := interfereAll_withActions s.config
      (w.turns.headD w.usualTurn).meanwhile
      { w with turns := w.turns.drop 1, notes := w.notes ++ [.asked p.id p.model token text] } as
    exact ⟨as', congrArg (Prod.mk _) same⟩

variable (w : World) (as : Actions)

theorem acquire_withActions (lifetime : Int) (workspace document : String) :
    (w.withActions as).acquire lifetime workspace document =
      ((w.acquire lifetime workspace document).1,
        (w.acquire lifetime workspace document).2.withActions as) := rfl

theorem chunkDocument?_withActions (workspace document revision : String) (window : Window) :
    (w.withActions as).chunkDocument? workspace document revision window =
      (w.chunkDocument? workspace document revision window).map fun (set, w) =>
        (set, w.withActions as) := by
  unfold chunkDocument?
  rw [Option.map_map]
  rfl

theorem accessToken_withActions (p : Provider) :
    (w.withActions as).accessToken p =
      ((w.accessToken p).1, (w.accessToken p).2.withActions as) := rfl

theorem ensureCollection_withActions (s : Setup) (name : String) (size : Nat) :
    (w.withActions as).ensureCollection s name size =
      ((w.ensureCollection s name size).1,
        (w.ensureCollection s name size).2.withActions as) := by
  unfold ensureCollection
  split <;> rfl

theorem writePoints_withActions (s : Setup) (name : String) (batch : List Point) :
    (w.withActions as).writePoints s name batch =
      ((w.writePoints s name batch).1, (w.writePoints s name batch).2.withActions as) := by
  unfold writePoints
  split <;> rfl

theorem deletePoints_withActions (s : Setup) (name : String) (f : Filter) :
    (w.withActions as).deletePoints s name f =
      ((w.deletePoints s name f).1, (w.deletePoints s name f).2.withActions as) := by
  unfold deletePoints
  split <;> rfl

theorem switchIn?_withActions (job : Job) (revision chunkSet : String) :
    (w.withActions as).db.switchIn? w.now job revision chunkSet =
      (w.db.switchIn? w.now job revision chunkSet).map fun (previous, db) =>
        (previous, { db with actions := as }) := by
  unfold Database.switchIn? Database.switch?
  rw [Option.map_map, Option.map_map, Option.map_map]
  rfl

end World

namespace Run

variable {s : Setup} {w : World} {r : Run}

theorem step_beside (looked : r.stage ≠ .looking) (unwritten : .actions ∉ r.stage.writes)
    (as : Actions) :
    step s r (w.withActions as) = ((step s r w).1, (step s r w).2.withActions as) := by
  obtain ⟨job, h, stage⟩ := r
  cases stage with
  | looking => exact absurd rfl looked
  | noting | refreshing => simp [Stage.writes] at unwritten
  | embedding d left =>
    cases left with
    | nil => rfl
    | cons => simp [Stage.writes] at unwritten
  | locking settings =>
    simp only [step, act, takeLock, w.acquire_withActions as]
    obtain ⟨answer, v⟩ := w.acquire (World.lockLifetime s.config) job.workspaceId job.documentId
    cases answer <;> rfl
  | opening settings =>
    have same : plan s (w.withActions as).env job settings = plan s w.env job settings := rfl
    simp only [step, act, openRevision, same]
    split <;> rfl
  | chunking d =>
    simp only [step, act, chunk, w.chunkDocument?_withActions as]
    cases w.chunkDocument? job.workspaceId job.documentId d.revisionId d.policy.window <;> rfl
  | sizing d =>
    simp only [step, act, size]
    split <;> rfl
  | authorizing d =>
    simp only [step, act, authorize, w.accessToken_withActions as]
    obtain ⟨answer, v⟩ := w.accessToken d.provider
    cases answer <;> rfl
  | ensuring d =>
    simp only [step, act, ensure, w.ensureCollection_withActions as]
    obtain ⟨answer, v⟩ := w.ensureCollection s _ _
    cases answer <;> rfl
  | writing d =>
    simp only [step, act, write, w.writePoints_withActions as]
    cases points job d with
    | error e => rfl
    | ok batch =>
      simp only
      obtain ⟨answer, v⟩ := w.writePoints s (collection s job) batch
      cases answer <;> rfl
  | accounting d =>
    simp only [step, act, account]
    split <;> rfl
  | switching d =>
    have same := w.switchIn?_withActions as job d.revisionId d.set.id
    have clock : (w.withActions as).now = w.now := rfl
    simp only [step, act, switch, clock, same]
    cases w.db.switchIn? w.now job d.revisionId d.set.id <;> rfl
  | cleaning d previous =>
    simp only [step, act, clean, w.deletePoints_withActions as]
  | failing revision e => cases revision <;> rfl
  | settling e =>
    have same : (w.withActions as).db.jobs.retry s.config.worker (w.withActions as).now job
      e.message = w.db.jobs.retry s.config.worker w.now job e.message := rfl
    simp only [step, act, settle]
    split
    · simp only [same]
      obtain ⟨answer, jobs⟩ := w.db.jobs.retry s.config.worker w.now job e.message
      cases answer <;> rfl
    · rfl
  | releasing outcome => cases h <;> rfl
  | deferring | admitting | marking | finished | crashed => rfl

/-- After the first look a run goes on as it would with other actions. -/
theorem step_withActions (looked : r.stage ≠ .looking) (as : Actions) :
    ∃ as', step s r (w.withActions as) = ((step s r w).1, (step s r w).2.withActions as') := by
  by_cases unwritten : .actions ∉ r.stage.writes
  · exact ⟨as, step_beside looked unwritten as⟩
  · obtain ⟨job, h, stage⟩ := r
    cases stage with
    | embedding d left =>
      cases left with
      | nil => exact ⟨as, rfl⟩
      | cons c left =>
        obtain ⟨as', same⟩ := w.embed_withActions s as d.provider d.token c.text
        refine ⟨as', ?_⟩
        simp only [step, act, embedNext, same]
        obtain ⟨answer, v⟩ := w.embed s d.provider d.token c.text
        cases answer with
        | ok e => rfl
        | error e =>
          simp only
          split <;> rfl
    | noting reason =>
      refine ⟨(note s job reason (w.withActions as)).2.db.actions, ?_⟩
      simp only [step, act, note]
      cases (w.withActions as).db.actions.latest? job.workspaceId job.baseId <;>
        cases w.db.actions.latest? job.workspaceId job.baseId <;> rfl
    | refreshing outcome =>
      exact ⟨((w.withActions as).refreshAction s.config job.workspaceId job.baseId).2.db.actions,
        rfl⟩
    | _ => exact absurd (by simp [Stage.writes]) unwritten

/-- The look comes first, and nothing is looked at again. -/
theorem Move.looked {r' : Run} {w' : World} (m : Move s r w r' w') : r'.stage ≠ .looking := by
  cases m with
  | @refreshed job h =>
    cases h <;> simp
  | _ => simp [Stage.fail]

theorem complete_step (going : r.stage.isOver = false) (w : World) :
    complete s r w = complete s (step s r w).1 (step s r w).2 := by
  rw [complete, dif_neg (by simp [going])]

theorem complete_withActions (looked : r.stage ≠ .looking) (as : Actions) :
    ∃ as', complete s r (w.withActions as) =
      ((complete s r w).1, (complete s r w).2.withActions as') := by
  induction r, w using complete.induct s generalizing as with
  | case1 r w ended =>
    refine ⟨as, ?_⟩
    rw [complete_eq_steps 0 ended, complete_eq_steps 0 ended]
    rfl
  | case2 r w going ih =>
    have going : r.stage.isOver = false := by simpa using going
    obtain ⟨as₁, stepped⟩ := step_withActions (s := s) (w := w) looked as
    obtain ⟨as', done⟩ := ih (step_move s r w going).looked as₁
    refine ⟨as', ?_⟩
    rw [complete_step going, stepped, done, complete_step going w]

theorem complete_start (s : Setup) (job : Job) (w : World) :
    complete s (.start job) w = complete s ⟨job, none, (look s job w).1⟩ w := by
  have world : (look s job w).2 = w := by
    unfold look
    split
    · rfl
    · split <;> rfl
  have stepped : step s (.start job) w = (⟨job, none, (look s job w).1⟩, (look s job w).2) := rfl
  rw [complete_step rfl, stepped, world]

end Run

/-- Where the first look comes to the same, a job has the outcome and leaves behind what it would
with other actions. -/
theorem World.process_withActions (s : Setup) (w : World) (job : Job) (as : Actions)
    (same : (Run.look s job (w.withActions as)).1 = (Run.look s job w).1) :
    ((w.withActions as).process s job).1 = (w.process s job).1 ∧
      ∃ as', ((w.withActions as).process s job).2 = (w.process s job).2.withActions as' := by
  have looked : (⟨job, none, (Run.look s job w).1⟩ : Run).stage ≠ .looking :=
    (Run.step_move s (.start job) w rfl).looked
  obtain ⟨as', done⟩ := Run.complete_withActions (s := s) (w := w) looked as
  have ends : Run.complete s (.start job) (w.withActions as) =
      ((Run.complete s (.start job) w).1, (Run.complete s (.start job) w).2.withActions as') := by
    rw [Run.complete_start, same, done, ← Run.complete_start]
  have outcome : ((w.withActions as).process s job).1 = (w.process s job).1 := by
    unfold process
    rw [ends]
    obtain ⟨⟨_, _, stage⟩, v⟩ := Run.complete s (.start job) w
    cases stage <;> rfl
  refine ⟨outcome, as', ?_⟩
  rw [process_world, process_world, ends]

/-- What an action does with a run: it puts the job back, fails it for a reason or lends it
settings. -/
inductive Ruling where
  | deferred
  | canceled (reason : String)
  | lent (settings : RunSettings)
  deriving DecidableEq, Repr

/-- Settings that say nothing are as good as none. -/
def RunSettings.ruling? (settings : RunSettings) : Option Ruling :=
  if settings = {} then none else some (.lent settings)

def JobError.ruling? : JobError → Option Ruling
  | .canceled reason => some (.canceled reason)
  | _ => none

def Outcome.ruling? : Outcome → Option Ruling
  | .paused _ => some .deferred
  | _ => none

def Action.ruling? (a : Action) : Option Ruling :=
  match a.status with
  | .paused => some .deferred
  | .canceled => some (.canceled ("action " ++ a.id ++ " was canceled"))
  | .processing => a.report.settings.ruling?
  | .done => none
  | .error => none

def Stage.ruling? : Stage → Option Ruling
  | .deferring outcome _ _ => outcome.ruling?
  | .refreshing outcome => outcome.ruling?
  | .releasing outcome => outcome.ruling?
  | .finished outcome => outcome.ruling?
  | .failing _ e => e.ruling?
  | .settling e => e.ruling?
  | .locking settings => settings.ruling?
  | .opening settings => settings.ruling?
  | _ => none

namespace Run

variable {s : Setup} {w : World} {r : Run}

theorem look_ruling (s : Setup) (job : Job) (w : World) :
    (look s job w).1.ruling? =
      (w.db.actions.latest? job.workspaceId job.baseId).bind Action.ruling? := by
  unfold look
  cases latest : w.db.actions.latest? job.workspaceId job.baseId with
  | none => simp [Stage.ruling?, RunSettings.ruling?]
  | some a =>
    cases status : a.status <;>
      simp [Stage.ruling?, Action.ruling?, status, Outcome.ruling?, JobError.ruling?,
        RunSettings.ruling?]

/-- What a run goes on with under a ruling, or under none. -/
def goesOn (s : Setup) (now : Int) : Option Ruling → Stage
  | none => .locking {}
  | some (.lent settings) => .locking settings
  | some (.canceled reason) => .failing none (.canceled reason)
  | some .deferred =>
    let moment := after now s.config.worker.pauseRecheckMs
    .deferring (.paused moment) moment "action paused"

/-- All that the look takes from the actions is the ruling. -/
theorem look_eq (s : Setup) (job : Job) (w : World) :
    (look s job w).1 =
      goesOn s w.now ((w.db.actions.latest? job.workspaceId job.baseId).bind Action.ruling?) := by
  unfold look
  cases w.db.actions.latest? job.workspaceId job.baseId with
  | none => rfl
  | some a =>
    cases status : a.status with
    | processing =>
      by_cases empty : a.report.settings = {} <;>
        simp [Action.ruling?, RunSettings.ruling?, status, empty, goesOn]
    | _ => simp [Action.ruling?, status, goesOn]

theorem Move.ruling {r' : Run} {w' : World} (m : Move s r w r' w') (looked : r.stage ≠ .looking)
    {x : Ruling} (ruled : r'.stage.ruling? = some x) : r.stage.ruling? = some x := by
  have unlike : ∀ retry reason, (JobError.ofReason retry reason).ruling? = none := by
    intro retry reason
    cases retry <;> rfl
  cases m with
  | free | watched | ended | paused | canceled => exact absurd rfl looked
  | deferred | locked | unopened | failed | released | unlocked => exact ruled
  | refused d e =>
    simp [Stage.ruling?, JobError.ofToken, unlike] at ruled
  | unembedded | unaccepted =>
    simp [Stage.ruling?, JobError.ofEmbedding, unlike] at ruled
  | @refreshed job h =>
    cases h <;> exact ruled
  | _ => cases ruled

theorem steps_ruling (s : Setup) (n : Nat) (job : Job) (w : World) {x : Ruling}
    (ruled : (steps s n (.start job) w).1.stage.ruling? = some x) :
    (w.db.actions.latest? job.workspaceId job.baseId).bind Action.ruling? = some x := by
  rw [← look_ruling s job w]
  cases n with
  | zero => cases ruled
  | succ n =>
    have kept := steps_keeps (s := s) (I := fun r _ => r.stage ≠ .looking ∧
      ∀ x, r.stage.ruling? = some x → (look s job w).1.ruling? = some x)
      (fun r v r' v' h m => ⟨m.looked, fun x ruled => h.2 x (m.ruling h.1 ruled)⟩) n
      (r := (step s (.start job) w).1) (w := (step s (.start job) w).2)
      ⟨(step_move s (.start job) w rfl).looked, fun _ ruled => ruled⟩
    exact kept.2 x ruled

end Run

end IndexingPipeline
