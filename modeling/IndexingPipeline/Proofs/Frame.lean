import IndexingPipeline.Proofs.Meanwhile
import IndexingPipeline.Proofs.Move

/-!
# What a move leaves alone

Every stage of a run writes few tables, and its move leaves all others as they are. A sound
world stays sound under every move: what is newly kept was drawn from the supply. What holds
at the start of a run and is kept by each move holds at its end, which every run comes to.
-/

namespace IndexingPipeline

open Identifier (Ahead ahead_ofNat)

inductive Table where
  | jobs
  | actions
  | documents
  | revisions
  | locks
  | chunkSets
  | points
  deriving DecidableEq, Repr

def Table.Same (w w' : World) : Table → Prop
  | .jobs => w'.db.jobs = w.db.jobs
  | .actions => w'.db.actions = w.db.actions
  | .documents => w'.db.documents = w.db.documents
  | .revisions => w'.db.revisions = w.db.revisions
  | .locks => w'.db.locks = w.db.locks
  | .chunkSets => w'.db.chunkSets = w.db.chunkSets
  | .points => w'.store = w.store

namespace Stage

/-- The tables that the move of a stage may write. A provider at work counts with all that
others may write meanwhile. -/
def writes : Stage → List Table
  | .deferring _ _ _ => [.jobs]
  | .locking _ => [.locks]
  | .opening _ => [.revisions]
  | .chunking _ => [.chunkSets]
  | .sizing _ => [.revisions]
  | .embedding _ (_ :: _) => [.jobs, .actions, .documents, .locks]
  | .ensuring _ => [.points]
  | .writing _ => [.points]
  | .accounting _ => [.revisions]
  | .switching _ => [.jobs, .documents, .revisions]
  | .cleaning _ _ => [.points]
  | .failing _ _ => [.revisions]
  | .settling _ => [.jobs]
  | .marking _ => [.documents]
  | .noting _ => [.actions]
  | .refreshing _ => [.actions]
  | .releasing _ => [.locks]
  | _ => []

/-- The draft of the revision that a run is at work on. -/
def draft? : Stage → Option Draft
  | .chunking d => some d
  | .sizing d => some d
  | .admitting d => some d
  | .authorizing d => some d
  | .embedding d _ => some d
  | .ensuring d => some d
  | .writing d => some d
  | .accounting d => some d
  | .switching d => some d
  | _ => none

/-- The revision that a run has opened and neither switched in nor failed. -/
def open? : Stage → Option String
  | .failing revision _ => revision
  | stage => stage.draft?.map (·.revisionId)

theorem open?_of_draft? {stage : Stage} {d : Draft} (h : stage.draft? = some d) :
    stage.open? = some d.revisionId := by
  cases stage <;> simp_all [draft?, open?]

end Stage

namespace World

/-- Nothing has changed but the store and the services outside. -/
structure SameInside (w w' : World) : Prop where
  db : w'.db = w.db
  drawn : w'.drawn = w.drawn
  now : w'.now = w.now
  turns : w'.turns = w.turns
  usualTurn : w'.usualTurn = w.usualTurn
  lead : w'.lead = w.lead

variable (s : Setup) (w : World)

theorem ensureCollection_inside (name : String) (size : Nat) :
    w.SameInside (w.ensureCollection s name size).2 := by
  unfold ensureCollection
  split <;> exact ⟨rfl, rfl, rfl, rfl, rfl, rfl⟩

theorem writePoints_inside (name : String) (batch : List Point) :
    w.SameInside (w.writePoints s name batch).2 := by
  unfold writePoints
  split <;> exact ⟨rfl, rfl, rfl, rfl, rfl, rfl⟩

theorem deletePoints_inside (name : String) (f : Filter) :
    w.SameInside (w.deletePoints s name f).2 := by
  unfold deletePoints
  split <;> exact ⟨rfl, rfl, rfl, rfl, rfl, rfl⟩

end World

namespace Run

/-- What a run refers to has been drawn. -/
structure Known (r : Run) (w : World) : Prop where
  revision : ∀ id, r.stage.open? = some id → ¬ Ahead w.drawn id
  holder : ∀ h, r.holder = some h → ¬ Ahead w.drawn h

theorem Known.start (job : Job) (w : World) : (Run.start job).Known w := by
  constructor
  · intro id opened
    cases opened
  · intro h held
    cases held

theorem Known.mono {r r' : Run} {w w' : World} (h : r.Known w) (drawn : w.drawn ≤ w'.drawn)
    (revision : ∀ id, r'.stage.open? = some id → r.stage.open? = some id)
    (holder : ∀ h, r'.holder = some h → r.holder = some h) : r'.Known w' where
  revision := fun id opened ahead => h.revision id (revision id opened) (ahead.mono drawn)
  holder := fun id held ahead => h.holder id (holder id held) (ahead.mono drawn)

namespace Move

variable {s : Setup} {r r' : Run} {w w' : World}

theorem same_job (m : Move s r w r' w') : r'.job = r.job := by cases m <;> rfl

/-- What a move does not write it leaves as it is. -/
theorem frame (m : Move s r w r' w') (t : Table) (h : t ∉ r.stage.writes) : t.Same w w' := by
  cases m with
  | kept | mismatched | unembedded | unaccepted =>
    cases t with
    | revisions => exact (w.embed_meanwhile s _ _ _).revisions
    | chunkSets => exact (w.embed_meanwhile s _ _ _).chunkSets
    | points => exact (w.embed_meanwhile s _ _ _).store
    | _ => simp [Stage.writes] at h
  | ensured | unensured =>
    cases t with
    | points => simp [Stage.writes] at h
    | _ => simp only [Table.Same, (w.ensureCollection_inside s _ _).db]
  | written | unwritten =>
    cases t with
    | points => simp [Stage.writes] at h
    | _ => simp only [Table.Same, (w.writePoints_inside s _ _).db]
  | cleaned =>
    cases t with
    | points => simp [Stage.writes] at h
    | _ => simp only [Table.Same, (w.deletePoints_inside s _ _).db]
  | _ => cases t <;> first | rfl | simp [Stage.writes] at h

theorem jobs_kept (m : Move s r w r' w') (h : .jobs ∉ r.stage.writes) :
    w'.db.jobs = w.db.jobs := m.frame .jobs h

theorem documents_kept (m : Move s r w r' w') (h : .documents ∉ r.stage.writes) :
    w'.db.documents = w.db.documents := m.frame .documents h

theorem revisions_kept (m : Move s r w r' w') (h : .revisions ∉ r.stage.writes) :
    w'.db.revisions = w.db.revisions := m.frame .revisions h

theorem locks_kept (m : Move s r w r' w') (h : .locks ∉ r.stage.writes) :
    w'.db.locks = w.db.locks := m.frame .locks h

theorem chunkSets_kept (m : Move s r w r' w') (h : .chunkSets ∉ r.stage.writes) :
    w'.db.chunkSets = w.db.chunkSets := m.frame .chunkSets h

theorem store_kept (m : Move s r w r' w') (h : .points ∉ r.stage.writes) :
    w'.store = w.store := m.frame .points h

theorem drawn_le (m : Move s r w r' w') : w.drawn ≤ w'.drawn := by
  cases m with
  | chunked d doc set drawn _ build =>
    have := congrArg Prod.snd build
    simp only [ChunkSet.build] at this
    simp only
    omega
  | kept | mismatched | unembedded | unaccepted =>
    exact (w.embed_meanwhile s _ _ _).drawn
  | ensured | unensured => exact Nat.le_of_eq (w.ensureCollection_inside s _ _).drawn.symm
  | written | unwritten => exact Nat.le_of_eq (w.writePoints_inside s _ _).drawn.symm
  | cleaned => exact Nat.le_of_eq (w.deletePoints_inside s _ _).drawn.symm
  | _ => first | exact Nat.le_refl _ | exact Nat.le_succ _

theorem sound (m : Move s r w r' w') (sound : w.Sound) (known : r.Known w) : w'.Sound := by
  have drawn := m.drawn_le
  cases m with
  | deferred | final => exact sound.onJobs (Queue.ids_update (by intro j; rfl))
  | retried _ _ _ _ _ retry | exhausted _ _ _ _ retry =>
    exact sound.onJobs (Queue.ids_retry retry)
  | locked | busy => exact (w.acquire_meanwhile _ _ _).sound sound
  | kept | mismatched | unembedded => exact (w.embed_meanwhile s _ _ _).sound sound
  | unaccepted =>
    exact ((w.embed_meanwhile s _ _ _).sound sound).of_tables (Nat.le_refl _) rfl rfl rfl rfl
  | opened =>
    have kept : World.Sound { w with drawn := w.drawn + 1 } :=
      sound.of_tables (Nat.le_succ _) rfl rfl rfl rfl
    refine { kept with revisions := ?_ }
    intro r member ahead
    rcases List.mem_append.mp member with old | new
    · exact kept.revisions r old ahead
    · rw [List.mem_singleton.mp new] at ahead
      exact Nat.not_succ_le_self _ (ahead_ofNat.mp ahead)
  | sized | accounted => exact sound.onRevisions (Revisions.id_updated _ _)
  | failed =>
    refine sound.onRevisions ?_
    intro r
    simp only
    split <;> rfl
  | @switched job h w d doc _ =>
    have jobs : (w.db.jobs.complete w.now job.id).ids = w.db.jobs.ids :=
      Queue.ids_update (by intro j; rfl)
    have standings := (Documents.standings_markUpToDate
      (w.db.documents.switch w.now job.workspaceId job.documentId d.revisionId d.set.id)
      w.now job.workspaceId job.documentId job.versionId).trans
      (w.db.documents.standings_switch _ _ _ _ _)
    refine { jobs_once := ?_, jobs := ?_, revisions := ?_, standings := ?_, locks := sound.locks }
    · exact jobs ▸ sound.jobs_once
    · exact jobs ▸ sound.jobs
    · exact (sound.onRevisions (Revisions.id_updated _ _)).revisions
    · intro x member id points
      simp only [standings] at member
      obtain ⟨y, old, rfl⟩ := List.mem_map.mp member
      unfold Standing.switched at points
      split at points
      · obtain rfl : d.revisionId = id := by simpa using points
        exact known.revision _ rfl
      · exact sound.standings y old id points
  | marked => exact sound.onDocuments (Documents.standings_markError _ _ _ _ _)
  | released => exact sound.onLocks fun l member => (Locks.mem_release.mp member).1
  | ensured | unensured => exact sound.of_db drawn (w.ensureCollection_inside s _ _).db
  | written | unwritten => exact sound.of_db drawn (w.writePoints_inside s _ _).db
  | cleaned => exact sound.of_db drawn (w.deletePoints_inside s _ _).db
  | _ => exact sound.of_tables drawn rfl rfl rfl rfl

/-- What a run refers to has been drawn, at its next stage too. -/
theorem known (m : Move s r w r' w') (known : r.Known w) : r'.Known w' := by
  have drawn := m.drawn_le
  cases m with
  | @locked job h w settings holder got =>
    have mine := World.holder_of_acquire got
    constructor
    · intro id opened
      cases opened
    · rintro _ ⟨⟩ ahead
      rw [mine] at ahead
      exact Nat.not_succ_le_self _ (ahead_ofNat.mp ahead)
  | opened =>
    refine ⟨?_, fun h held ahead => known.holder h held (ahead.mono drawn)⟩
    rintro _ ⟨⟩ ahead
    exact Nat.not_succ_le_self _ (ahead_ofNat.mp ahead)
  | busy =>
    refine known.mono drawn ?_ ?_
    · intro id opened
      cases opened
    · intro h held
      cases held
  | @refreshed job h =>
    refine known.mono drawn ?_ (fun _ held => held)
    intro id opened
    cases h <;> cases opened
  | _ => exact known.mono drawn (by simp [Stage.open?, Stage.draft?, Stage.fail]) (by simp)

end Move

/-- What every move keeps still holds when the run is over. -/
theorem complete_keeps {s : Setup} {I : Run → World → Prop}
    (keeps : ∀ r w r' w', I r w → Move s r w r' w' → I r' w') (r : Run) (w : World)
    (start : I r w) : I (complete s r w).1 (complete s r w).2 := by
  induction r, w using complete.induct s with
  | case1 r w ended =>
    rw [complete, dif_pos ended]
    exact start
  | case2 r w going ih =>
    rw [complete, dif_neg going]
    exact ih (keeps r w _ _ start (step_move s r w (by simpa using going)))

theorem complete_isOver (s : Setup) (r : Run) (w : World) :
    (complete s r w).1.stage.isOver = true := by
  induction r, w using complete.induct s with
  | case1 r w ended =>
    rw [complete, dif_pos ended]
    exact ended
  | case2 r w going ih =>
    rw [complete, dif_neg going]
    exact ih

/-- A run after a number of steps; one that is over stays as it is. -/
def steps (s : Setup) : Nat → Run → World → Run × World
  | 0, r, w => (r, w)
  | n + 1, r, w => steps s n (step s r w).1 (step s r w).2

theorem step_over (s : Setup) (r : Run) (w : World) (ended : r.stage.isOver = true) :
    step s r w = (r, w) := by
  obtain ⟨job, h, stage⟩ := r
  cases stage <;> first | rfl | cases ended

theorem steps_succ (s : Setup) (n : Nat) (r : Run) (w : World) :
    steps s (n + 1) r w = step s (steps s n r w).1 (steps s n r w).2 := by
  induction n generalizing r w with
  | zero => rfl
  | succ n ih => exact ih _ _

theorem steps_isOver (s : Setup) (r : Run) (w : World) :
    ∃ n, (steps s n r w).1.stage.isOver = true := by
  induction r, w using complete.induct s with
  | case1 r w ended => exact ⟨0, ended⟩
  | case2 r w going ih =>
    obtain ⟨n, ended⟩ := ih
    exact ⟨n + 1, ended⟩

theorem steps_of_over {s : Setup} {r : Run} {w : World} {n m : Nat}
    (ended : (steps s n r w).1.stage.isOver = true) (later : n ≤ m) :
    steps s m r w = steps s n r w := by
  induction later with
  | refl => rfl
  | step _ ih => rw [steps_succ, ih, step_over _ _ _ ended]

/-- What every move keeps still holds after a number of steps. -/
theorem steps_keeps {s : Setup} {I : Run → World → Prop}
    (keeps : ∀ r w r' w', I r w → Move s r w r' w' → I r' w') (n : Nat) {r : Run} {w : World}
    (start : I r w) : I (steps s n r w).1 (steps s n r w).2 := by
  induction n with
  | zero => exact start
  | succ n ih =>
    rw [steps_succ]
    by_cases ended : (steps s n r w).1.stage.isOver = true
    · rw [step_over _ _ _ ended]
      exact ih
    · exact keeps _ _ _ _ ih (step_move _ _ _ (by simpa using ended))

/-- A run that is over after a number of steps is taken to its end by them. -/
theorem complete_eq_steps {s : Setup} (n : Nat) {r : Run} {w : World}
    (ended : (steps s n r w).1.stage.isOver = true) : complete s r w = steps s n r w := by
  induction n generalizing r w with
  | zero =>
    rw [steps] at ended ⊢
    rw [complete, dif_pos ended]
  | succ n ih =>
    by_cases now : r.stage.isOver = true
    · rw [steps, step_over s r w now] at ended ⊢
      exact ih ended
    · rw [complete, dif_neg now]
      exact ih ended

end Run

namespace World

/-- What a job leaves behind is what its run leaves behind, however that ends. -/
theorem process_world (s : Setup) (w : World) (job : Job) :
    (w.process s job).2 = (Run.complete s (.start job) w).2 := by
  unfold process
  split <;> rename_i eq <;> rw [eq]

/-- A job has an outcome unless something stops its run. -/
theorem process_cases (s : Setup) (w : World) (job : Job) :
    (∃ outcome, (w.process s job).1 = some outcome ∧
      (Run.complete s (.start job) w).1.stage = .finished outcome) ∨
    (w.process s job).1 = none ∧ (Run.complete s (.start job) w).1.stage = .crashed := by
  have isOver := Run.complete_isOver s (.start job) w
  unfold process
  generalize Run.complete s (.start job) w = ended at isOver ⊢
  obtain ⟨⟨_, _, stage⟩, _⟩ := ended
  cases stage with
  | finished outcome => exact .inl ⟨outcome, rfl, rfl⟩
  | crashed => exact .inr ⟨rfl, rfl⟩
  | _ => cases isOver

theorem process_finished {s : Setup} {w : World} {job : Job} {outcome : Outcome}
    (done : (w.process s job).1 = some outcome) :
    (Run.complete s (.start job) w).1.stage = .finished outcome := by
  rcases w.process_cases s job with ⟨_, ran, stage⟩ | ⟨ran, _⟩
  · rw [ran] at done
    exact Option.some.inj done ▸ stage
  · rw [ran] at done
    cases done

end World

end IndexingPipeline
