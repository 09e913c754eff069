import IndexingPipeline.Proofs.Outcome
import IndexingPipeline.Proofs.Watch

/-!
# At most one writer

A run that comes to its document's lock while a live run has it is sent away: it puts its job
back and ends, and never opens a revision. That, and that no two live runs are at work on one
document, holds however claims, steps, deaths, repairs and the clock follow each other, even if
the job of a live run was handed out once more.
-/

namespace IndexingPipeline

/-- A run that found its document locked: it puts its job back, or has done so. -/
structure Run.SentAway (job : Job) (moment : Int) (r : Run) : Prop where
  same_job : r.job = job
  unlocked : r.holder = none
  stage : r.stage = .deferring (.lockBusy moment) moment
      "document is being indexed by another job" ∨
    r.stage = .finished (.lockBusy moment)

theorem Run.SentAway.ends {job : Job} {moment : Int} {r : Run} (h : r.SentAway job moment)
    (s : Setup) (w : World) :
    (r.step s w).1 = ⟨job, none, .finished (.lockBusy moment)⟩ ∧
      (r.step s w).2.db.revisions = w.db.revisions := by
  obtain ⟨same_job, unlocked, stage⟩ := h
  obtain ⟨_, _, _⟩ := r
  subst same_job unlocked
  rcases stage with rfl | rfl
  · exact ⟨rfl, rfl⟩
  · exact ⟨rfl, rfl⟩

namespace Watch

variable {s : Setup} {v : Watch} {place : Nat} {job : Job} {moment : Int}

theorem sentAway_turn {r : Run} (there : v.crew.runs[place]? = some r)
    (away : r.SentAway job moment) (e : Event) :
    ∃ r', (v.turn s e).crew.runs[place]? = some r' ∧ r'.SentAway job moment := by
  have began := v.turn_runs s e
  have inside : place < v.crew.runs.length := (List.getElem?_eq_some_iff.mp there).1
  cases e with
  | step at' =>
    simp only [turn]
    split
    · exact ⟨r, there, away⟩
    · unfold step
      split
      · exact ⟨r, there, away⟩
      · rename_i x here
        by_cases same : at' = place
        · subst same
          obtain rfl : r = x := Option.some.inj (there.symm.trans here)
          refine ⟨_, List.getElem?_set_self inside, ?_⟩
          rw [(away.ends s _).1]
          exact ⟨rfl, rfl, .inr rfl⟩
        · exact ⟨r, (List.getElem?_set_ne same).trans there, away⟩
  | _ =>
    obtain ⟨jobs, runs⟩ := began (by simp)
    refine ⟨r, ?_, away⟩
    rw [runs, List.getElem?_append_left inside]
    exact there

theorem sentAway_play {r : Run} (there : v.crew.runs[place]? = some r)
    (away : r.SentAway job moment) (events : List Event) :
    ∃ r', (v.play s events).crew.runs[place]? = some r' ∧ r'.SentAway job moment := by
  induction events generalizing v r with
  | nil => exact ⟨r, there, away⟩
  | cons e rest ih =>
    obtain ⟨r', there', away'⟩ := sentAway_turn (s := s) there away e
    exact ih there' away'

/-- A run that comes to the lock of a live run is sent away. -/
theorem Kept.sends_away (h : v.Kept s) (inTime : v.InTime s) {i : Nat} {a b : Run}
    {settings : RunSettings} (inside : v.Inside i a) (there : v.crew.runs[place]? = some b)
    (alive : place ∉ v.dead) (stage : b.stage = .locking settings) (same : a.SameDocument b) :
    (v.turn s (.step place)).world.db.revisions = v.world.db.revisions ∧
    ∃ r, (v.turn s (.step place)).crew.runs[place]? = some r ∧
      r.SentAway b.job (after v.world.now s.config.worker.lockRetryDelayMs) := by
  obtain ⟨holder, held, lock⟩ := h.lock inside
  rw [same.1, same.2] at lock
  have refused := World.refused_of_unexpired (w := v.world.hushed) lock
    (inTime.inside i a inside) (World.lockLifetime s.config)
  have m := Run.step_move s b v.world.hushed (by rw [stage]; rfl)
  simp only [Watch.turn, if_neg alive, Watch.step, there]
  rw [List.getElem?_set_self (List.getElem?_eq_some_iff.mp there).1]
  revert m
  generalize Run.step s b v.world.hushed = next
  obtain ⟨r', w'⟩ := next
  intro m
  cases m with
  | locked _ _ taken =>
    rw [taken] at refused
    cases refused
  | busy => exact ⟨rfl, _, rfl, rfl, rfl, .inl rfl⟩
  | _ => cases stage

end Watch

/-- Begin with an empty database and let anything happen in any order, as long as no live run
keeps its lock for as long as a lock lives. Then no two live runs are between taking and giving
back the lock of one document. A run that comes to that lock meanwhile opens no revision, then
or later, and all that ever becomes of it is that it ends because the lock is busy. And failing
abandoned revisions leaves alone the one that a live run has opened. -/
theorem one_writer (s : Setup) (now : Int) (env : Environment) (peer : Peer)
    (events : List Event) (timely : (Watch.initial now env peer).Timely s events) :
    let v := (Watch.initial now env peer).play s events
    (∀ i j a b, v.Inside i a → v.Inside j b → a.SameDocument b → i = j) ∧
    (∀ (i j : Nat) (a b : Run) (settings : RunSettings), v.Inside i a →
      v.crew.runs[j]? = some b → j ∉ v.dead → b.stage = .locking settings →
      a.SameDocument b →
      (v.turn s (.step j)).world.db.revisions = v.world.db.revisions ∧
      ∃ moment, ∀ later : List Event, ∃ r,
        ((v.turn s (.step j)).play s later).crew.runs[j]? = some r ∧ r.holder = none ∧
        ∀ w, (r.step s w).1 = ⟨b.job, none, .finished (.lockBusy moment)⟩ ∧
          (r.step s w).2.db.revisions = w.db.revisions) ∧
    (∀ (i : Nat) (a : Run) (id : String), v.Inside i a →
      (a.stage.open? = some id → (v.posts i).opened = some id) ∧
      ((v.posts i).opened = some id → ∀ olderThan,
        (v.turn s (.failAbandoned olderThan)).world.db.revisions.revision? id =
          v.world.db.revisions.revision? id)) := by
  intro v
  obtain ⟨kept, inTime⟩ := (Watch.initial_kept s now env peer).play timely
  refine ⟨?_, ?_, ?_⟩
  · intro i j a b insideA insideB same
    exact kept.one_inside insideA insideB same
  · intro i j a b settings inside there alive stage same
    obtain ⟨revisions, r, there', away⟩ := kept.sends_away inTime inside there alive stage same
    refine ⟨revisions, after v.world.now s.config.worker.lockRetryDelayMs, fun later => ?_⟩
    obtain ⟨r', there'', away'⟩ := Watch.sentAway_play (s := s) there' away later
    exact ⟨r', there'', away'.unlocked, away'.ends s⟩
  · intro i a id inside
    exact ⟨kept.noted i a inside.1 id, fun opened => kept.spared_abandoned inTime inside opened⟩

namespace Sample

/-- A run that has taken its time before it took the lock: while it is still at work, its job is
recovered and handed out once more. -/
def contest : List Event :=
  [.outside { World.initial 0 [] {} with usualTurn := turn },
    .put "w" "b" "d" "v1" "hello world", .enqueue "w" "b" "d" "v1",
    .claim, .step 0, .advance 1000, .step 0, .step 0,
    .advance 1799500, .recover, .claim, .step 1]

def contested : Watch := (Watch.initial 1000 [] {}).play setup contest

theorem contest_timely : (Watch.initial 1000 [] {}).Timely setup contest := by decide +kernel

theorem contested_runs :
    (∃ a, contested.Inside 0 a ∧ a.job.id = Identifier.ofNat 0 ∧
      a.job.workspaceId = "w" ∧ a.job.documentId = "d") ∧
    ∃ b settings, contested.crew.runs[1]? = some b ∧ b.job.id = Identifier.ofNat 0 ∧
      b.job.workspaceId = "w" ∧ b.job.documentId = "d" ∧ b.stage = .locking settings := by
  constructor
  · have first : (contested.crew.runs[0]?).any (fun a => a.isInside &&
        decide (a.job.id = Identifier.ofNat 0 ∧ a.job.workspaceId = "w" ∧
          a.job.documentId = "d")) = true := by decide +kernel
    obtain ⟨a, there, all⟩ := (Option.any_eq_true _ _).mp first
    rw [Bool.and_eq_true, decide_eq_true_eq] at all
    exact ⟨a, ⟨there, by decide +kernel, all.1⟩, all.2⟩
  · have second : (contested.crew.runs[1]?).any (fun b =>
        decide (b.job.id = Identifier.ofNat 0 ∧ b.job.workspaceId = "w" ∧
          b.job.documentId = "d" ∧ b.stage.rank = 19)) = true := by decide +kernel
    obtain ⟨⟨job, h, stage⟩, there, all⟩ := (Option.any_eq_true _ _).mp second
    obtain ⟨id, workspace, document, rank⟩ := of_decide_eq_true all
    cases stage with
    | locking settings => exact ⟨_, settings, there, id, workspace, document, rfl⟩
    | _ => simp [Stage.rank] at rank

end Sample

theorem one_writer_sample :
    (Watch.initial 1000 [] {}).Timely Sample.setup Sample.contest ∧
    ∃ (b : Run) (moment : Int), Sample.contested.crew.runs[1]? = some b ∧
      b.job.id = Identifier.ofNat 0 ∧
      ∀ later : List Event, ∃ r,
        ((Sample.contested.turn Sample.setup (.step 1)).play Sample.setup later).crew.runs[1]? =
          some r ∧ r.holder = none ∧
        ∀ w, (r.step Sample.setup w).1 = ⟨b.job, none, .finished (.lockBusy moment)⟩ ∧
          (r.step Sample.setup w).2.db.revisions = w.db.revisions := by
  obtain ⟨⟨a, inside, _, workspaceA, documentA⟩,
    b, settings, there, id, workspaceB, documentB, stage⟩ := Sample.contested_runs
  obtain ⟨_, away, _⟩ := one_writer Sample.setup 1000 [] {} Sample.contest Sample.contest_timely
  obtain ⟨_, moment, ends⟩ := away 0 1 a b settings inside there (by decide +kernel) stage
    ⟨workspaceA.trans workspaceB.symm, documentA.trans documentB.symm⟩
  exact ⟨Sample.contest_timely, b, moment, there, id, ends⟩

end IndexingPipeline
