import IndexingPipeline.Proofs.Course

/-!
# Histories as courses

In a history each document is written together with asking for its version. Whatever else is done,
and whatever services answer and others do meanwhile, what happens to a document between two
operations is a course of its docket that begins and ends with no run under way. When the document
is left alone while a job of it is under way, and when no poll is stopped for good, the course is
one in which neither happens.
-/

namespace IndexingPipeline

/-- Whether a document is written only together with asking for its version. -/
def Operation.isPaired : Operation → Bool
  | .put _ _ _ _ _ => false
  | .enqueue _ _ _ _ => false
  | _ => true

namespace World

/-- A document is left alone while a job of it is under way. -/
def LeavesAlone (s : Setup) (workspace id : String) (w : World) : Operation → Prop
  | .interfere i => i.writes workspace id = true → (w.docket workspace id).jobs.IsCalm
  | .poll =>
    let claimed := (w.housekeeping s.config).claim.2
    claimed.awaitsWrite workspace id = true → (claimed.docket workspace id).jobs.IsCalm
  | _ => True

instance (s : Setup) (workspace id : String) (w : World) :
    (op : Operation) → Decidable (w.LeavesAlone s workspace id op)
  | .interfere i =>
    inferInstanceAs (Decidable (i.writes workspace id = true →
      (w.docket workspace id).jobs.IsCalm))
  | .poll =>
    inferInstanceAs (Decidable
      ((w.housekeeping s.config).claim.2.awaitsWrite workspace id = true →
        ((w.housekeeping s.config).claim.2.docket workspace id).jobs.IsCalm))
  | .put _ _ _ _ _ | .enqueue _ _ _ _ | .start _ _ _ | .inject _ _ | .outside _ | .sweep =>
    inferInstanceAs (Decidable True)

/-- A poll is not stopped by something that nothing handles. -/
def Returns (s : Setup) (w : World) : Operation → Prop
  | .poll => (w.poll s).1 ≠ .crashed
  | _ => True

/-- Something is true of every operation of a history in the world that it finds. -/
def Throughout (s : Setup) (p : World → Operation → Prop) (w : World) : List Operation → Prop
  | [] => True
  | op :: rest => p w op ∧ (w.perform s op).Throughout s p rest

theorem Throughout.mono {s : Setup} {p q : World → Operation → Prop}
    (implies : ∀ w op, p w op → q w op) {w : World} {ops : List Operation}
    (h : w.Throughout s p ops) : w.Throughout s q ops := by
  induction ops generalizing w with
  | nil => trivial
  | cons op rest ih => exact ⟨implies w op h.1, ih h.2⟩

/-- Whether the run of a poll works at a revision under a policy. -/
def Works (s : Setup) (w : World) (id : String) (p : Policy) : Prop :=
  ∃ job n, (w.housekeeping s.config).claim.1 = some job ∧
    (Run.steps s n (.start job) (w.housekeeping s.config).claim.2).1.WorksAt id p

/-- Whether the run of one of the polls of a history has worked at a revision under a policy. -/
def Worked (s : Setup) (w : World) (ops : List Operation) (id : String) (p : Policy) : Prop :=
  ∃ earlier, earlier ++ [.poll] <+: ops ∧ (w.performAll s earlier).Works s id p

/-- What a world knows of editions, as the terms of a course. -/
def terms (s : Setup) (worked : String → Policy → Prop) (disturbed stops : Prop) (w : World) :
    Terms :=
  ⟨s.config.worker, fun e => w.Made s e ∧ worked e.revisionId e.policy, disturbed, stops⟩

/-- From one world to another a document takes a course, and what was known of editions is known
still. -/
structure Leads (s : Setup) (worked : String → Policy → Prop) (workspace id : String)
    (disturbed stops : Prop) (p : Phase) (w : World) (p' : Phase) (w' : World) : Prop where
  retains : w.Retains w'
  course : Docket.Course (w'.terms s worked disturbed stops) p (w.docket workspace id) p'
    (w'.docket workspace id)

namespace Leads

variable {s : Setup} {worked : String → Policy → Prop} {workspace id : String}
  {disturbed stops : Prop} {p p' p'' : Phase} {a b c : World}

theorem refl (p : Phase) (w : World) : Leads s worked workspace id disturbed stops p w p w :=
  ⟨.refl w, .refl _ _⟩

theorem trans (ab : Leads s worked workspace id disturbed stops p a p' b)
    (bc : Leads s worked workspace id disturbed stops p' b p'' c) :
    Leads s worked workspace id disturbed stops p a p'' c where
  retains := ab.retains.trans bc.retains
  course :=
    (ab.course.mono fun _ known => ⟨known.1.retained bc.retains, known.2⟩).trans bc.course

theorem of_same (retains : a.Retains b)
    (same : b.docket workspace id = a.docket workspace id) :
    Leads s worked workspace id disturbed stops p a p b :=
  ⟨retains, same ▸ .refl _ _⟩

end Leads

variable (s : Setup) (worked : String → Policy → Prop) (workspace id : String)
  (disturbed stops : Prop)

/-- Looking after what dead workers have left behind recovers jobs, and nothing else of a
document. -/
theorem housekeeping_leads (w : World) :
    Leads s worked workspace id disturbed stops .idle w .idle (w.housekeeping s.config) where
  retains := w.housekeeping_retains s.config
  course := by
    refine .last (.recovered w.now) (docket_eq rfl (Queue.ofDocument_map ?_))
    exact fun j => (Job.SameRequest.tended s.config.worker w.now j).isOf workspace id

theorem claim_none {w : World} (nothing : w.claim.1 = none) : w.claim.2 = w := by
  unfold claim at nothing ⊢
  rcases w.db.jobs.claim_cases w.now with same | ⟨j, _, _, _, taken⟩
  · rw [same]
  · rw [taken] at nothing
    cases nothing

theorem claim_leads {w : World} (sound : w.Sound) {job : Job} (claimed : w.claim.1 = some job) :
    ∃ p, (Run.start job).IsIn workspace id p ∧
      Leads s worked workspace id disturbed stops .idle w p w.claim.2 := by
  have given : w.claim = ((w.db.jobs.claim w.now).1, w.onJobs fun q => (q.claim w.now).2) := rfl
  rcases w.db.jobs.claim_cases w.now with nothing | ⟨j, member, waits, _, taken⟩
  · rw [given, nothing] at claimed
    cases claimed
  · rw [given, taken] at claimed
    obtain rfl := Option.some.inj claimed
    have row := Queue.job?_of_mem sound.jobs_once member
    have after : w.claim.2.db.jobs = w.db.jobs.update j.id (Job.taken w.now) := by
      rw [given, World.onJobs, taken]
    have retains : w.Retains w.claim.2 := .of_tables rfl rfl
    cases own : j.isOf workspace id with
    | true =>
      refine ⟨_, (if_pos own).mpr rfl, retains, .last (.claimed j (j.taken w.now)
        waits rfl rfl rfl ?_) (docket_eq rfl rfl)⟩
      rw [after]
      exact Queue.ofDocument_changed sound.jobs_once row own (fun _ => rfl) rfl
    | false =>
      refine ⟨.idle, (if_neg (Bool.eq_false_iff.mp own)).mpr rfl, .of_same retains ?_⟩
      exact docket_other sound row own after (fun _ => rfl) rfl

end World

namespace Run

/-- A run in progress, what its document has gone through since a moment before, and what is to
be kept in mind of both. -/
structure Follows (s : Setup) (worked : String → Policy → Prop) (workspace id : String)
    (disturbed stops : Prop) (job : Job) (before w₀ : World) (r : Run) (w : World) : Prop where
  abreast : Abreast s job w₀ r w
  works : ∀ x p, r.WorksAt x p → worked x p
  opened : ∀ d, r.stage.draft? = some d → r.Opened s w d
  shelved : w.Shelved
  free : disturbed ∨ w.awaitsWrite workspace id = false ∨
    job.isOf workspace id = false ∧ (w.docket workspace id).jobs.IsCalm
  leads : ∃ p, r.IsIn workspace id p ∧
    World.Leads s worked workspace id disturbed stops .idle before p w

variable {s : Setup} {worked : String → Policy → Prop} {workspace id : String}
  {disturbed stops : Prop} {job : Job} {before w₀ w w' : World} {r r' : Run}

theorem Follows.move (h : Follows s worked workspace id disturbed stops job before w₀ r w)
    (claimed : job.status ≠ .pending) (m : Move s r w r' w')
    (works : ∀ x p, r'.WorksAt x p → worked x p) :
    Follows s worked workspace id disturbed stops job before w₀ r' w' where
  abreast := h.abreast.move m claimed
  works := works
  opened := m.opened_for h.abreast.sound h.opened
  shelved := m.shelved h.shelved
  free := h.free.imp_right (m.undisturbed h.abreast)
  leads := by
    obtain ⟨p, here, leads⟩ := h.leads
    have free := h.free.imp_right (Or.imp_right And.right)
    obtain ⟨p', there, course⟩ := m.course h.abreast (t := w'.terms s worked disturbed stops) rfl
      (fun _ made works => ⟨made, h.works _ _ works⟩) h.opened h.shelved free here
    exact ⟨p', there, leads.trans ⟨m.retains, course⟩⟩

theorem Follows.steps (h : Follows s worked workspace id disturbed stops job before w₀ r w)
    (claimed : job.status ≠ .pending)
    (works : ∀ n x p, (Run.steps s n r w).1.WorksAt x p → worked x p) (n : Nat) :
    Follows s worked workspace id disturbed stops job before w₀ (Run.steps s n r w).1
      (Run.steps s n r w).2 := by
  induction n with
  | zero => exact h
  | succ n ih =>
    have next := works (n + 1)
    rw [steps_succ] at next ⊢
    by_cases ended : (Run.steps s n r w).1.stage.isOver = true
    · rw [step_over _ _ _ ended]
      exact ih
    · exact ih.move claimed (step_move _ _ _ (by simpa using ended)) next

/-- A run that is over leaves no run under way, unless it was stopped. -/
theorem idle_of_over {p : Phase} (here : r.IsIn workspace id p) (ended : r.stage.isOver = true) :
    p = .idle ∨ r.stage = .crashed ∧ ∃ job, p = .stopped job := by
  unfold IsIn at here
  split at here
  · obtain ⟨_, _, stage⟩ := r
    cases stage with
    | finished => exact .inl here
    | crashed => exact .inr ⟨rfl, _, here⟩
    | _ => cases ended
  · exact .inl here

end Run

namespace World

variable {s : Setup} {worked : String → Policy → Prop} {workspace id : String}
  {disturbed stops : Prop} {w : World}

/-- A claimed job is under way: its document is not written meanwhile, if it is left alone. -/
theorem undisturbed_of_claimed {v : World} {job : Job} (row : v.db.jobs.job? job.id = some job)
    (processing : job.status = .processing)
    (alone : v.awaitsWrite workspace id = true → (v.docket workspace id).jobs.IsCalm) :
    v.awaitsWrite workspace id = false ∨
      job.isOf workspace id = false ∧ (v.docket workspace id).jobs.IsCalm := by
  cases awaits : v.awaitsWrite workspace id with
  | false => exact .inl rfl
  | true =>
    have calm := alone awaits
    refine .inr ⟨?_, calm⟩
    rw [← Bool.not_eq_true]
    intro own
    exact calm job (Queue.mem_ofDocument.mpr ⟨(Queue.mem_of_job? row).1, own⟩) processing

theorem poll_crashed {job : Job} (claimed : (w.housekeeping s.config).claim.1 = some job)
    (crashed : (Run.complete s (.start job) (w.housekeeping s.config).claim.2).1.stage =
      .crashed) : (w.poll s).1 = .crashed := by
  unfold poll
  generalize (w.housekeeping s.config).claim = answer at claimed crashed ⊢
  obtain ⟨_, v⟩ := answer
  obtain rfl : _ = some job := claimed
  have stopped : (v.process s job).1 = none := by
    rcases v.process_cases s job with ⟨_, _, finished⟩ | ⟨stopped, _⟩
    · rw [crashed] at finished
      cases finished
    · exact stopped
  simp only
  split <;> rename_i answer
  · rw [answer] at stopped
    cases stopped
  · rfl

theorem poll_leads (sound : w.Sound) (shelved : w.Shelved)
    (works : ∀ x p, w.Works s x p → worked x p)
    (free : disturbed ∨ w.LeavesAlone s workspace id .poll)
    (returns : stops ∨ (w.poll s).1 ≠ .crashed) :
    (w.poll s).2.Sound ∧ (w.poll s).2.Shelved ∧
      Leads s worked workspace id disturbed stops .idle w .idle (w.poll s).2 := by
  have kept := w.housekeeping_around s.config
  have around := kept.trans (claim_around _)
  have first := w.housekeeping_leads s worked workspace id disturbed stops
  rcases w.poll_cases s with ⟨nothing, idle⟩ | ⟨job, claimed, world, outcomes⟩
  · rw [idle]
    refine ⟨around.sound sound, shelved.around around, ?_⟩
    rw [claim_none nothing]
    exact first
  · obtain ⟨p, here, taken⟩ :=
      claim_leads s worked workspace id disturbed stops (kept.sound sound) claimed
    obtain ⟨row, processing⟩ := claim_claimed _ (kept.sound sound) claimed
    have start : Run.Follows s worked workspace id disturbed stops job w
        (w.housekeeping s.config).claim.2 (.start job) (w.housekeeping s.config).claim.2 := by
      refine ⟨.start s (around.sound sound) row, fun x p => works x p ∘ ?_, ?_,
        shelved.around around, free.imp_right (undisturbed_of_claimed row processing), p, here,
        first.trans taken⟩
      · exact fun at_once => ⟨job, 0, claimed, at_once⟩
      · intro d draft
        cases draft
    obtain ⟨n, ended⟩ := Run.steps_isOver s (.start job) (w.housekeeping s.config).claim.2
    have done := start.steps (by simp [processing])
      (fun n x p there => works x p ⟨job, n, claimed, there⟩) n
    rw [← Run.complete_eq_steps n ended] at done ended
    obtain ⟨p', there, leads⟩ := done.leads
    rw [world]
    refine ⟨done.abreast.sound, done.shelved, ?_⟩
    rcases Run.idle_of_over there ended with rfl | ⟨crashed, job', rfl⟩
    · exact leads
    · have stops : stops := returns.resolve_right fun returned =>
        returned (poll_crashed claimed crashed)
      exact leads.trans ⟨.refl _, .one (.left stops)⟩

theorem sweepAll_preserves {I : World → Prop}
    (keeps : ∀ w name f, I w → I (w.deletePoints s name f).2) (report : SweepReport)
    (ds : List Document) (start : I w) : I (w.sweepAll s report ds).2 := by
  induction ds generalizing report w with
  | nil => exact start
  | cons d rest ih =>
    have first : I (w.sweepDocument s report d).2 := by
      unfold sweepDocument
      split
      · exact start
      · simp only
        split <;> rename_i answer
        all_goals
          rw [← congrArg Prod.snd answer]
          exact keeps w _ _ start
    exact ih (w.sweepDocument s report d).1 first

theorem sweepAll_kept (report : SweepReport) (ds : List Document) :
    (w.sweepAll s report ds).2.db = w.db ∧ (w.sweepAll s report ds).2.drawn = w.drawn := by
  refine sweepAll_preserves (I := fun v => v.db = w.db ∧ v.drawn = w.drawn) ?_ report ds ⟨rfl, rfl⟩
  rintro v name f ⟨db, drawn⟩
  have inside := v.deletePoints_inside s name f
  exact ⟨inside.db.trans db, inside.drawn.trans drawn⟩

theorem perform_leads (sound : w.Sound) (shelved : w.Shelved) {op : Operation}
    (paired : op.isPaired = true) (works : op = .poll → ∀ x p, w.Works s x p → worked x p)
    (free : disturbed ∨ w.LeavesAlone s workspace id op)
    (returns : stops ∨ w.Returns s op) :
    (w.perform s op).Sound ∧ (w.perform s op).Shelved ∧
      Leads s worked workspace id disturbed stops .idle w .idle (w.perform s op) := by
  have quiet : ∀ {w' : World}, w.Around w' → w.Retains w' →
      w'.docket workspace id = w.docket workspace id →
      w'.Sound ∧ w'.Shelved ∧ Leads s worked workspace id disturbed stops .idle w .idle w' :=
    fun around retains same =>
      ⟨around.sound sound, shelved.around around, .of_same retains same⟩
  cases op with
  | put | enqueue => cases paired
  | start workspace' base settings =>
    exact quiet (.of_meanwhile (.of_same (Nat.le_succ _) rfl rfl rfl rfl rfl rfl))
      (.of_tables rfl rfl) rfl
  | interfere i =>
    have meanwhile := w.interfere_meanwhile s.config i
    rcases docket_interfere sound workspace id s.config i with
      ⟨_, same⟩ | ⟨writes, submitted⟩
    · exact quiet (.of_meanwhile meanwhile) (.of_meanwhile meanwhile) same
    · refine ⟨meanwhile.sound sound, shelved.around (.of_meanwhile meanwhile),
        .of_meanwhile meanwhile, .one (.written rfl ?_ submitted)⟩
      exact free.imp_right fun alone => alone writes
  | inject failWrites failDeletes =>
    exact quiet (w.outside_around { w with
      store := { w.store with failWrites, failDeletes } }) (.of_tables rfl rfl) rfl
  | outside elsewhere =>
    exact quiet (w.outside_around { elsewhere with store := w.store }) (.of_tables rfl rfl) rfl
  | poll => exact poll_leads sound shelved (works rfl) free returns
  | sweep =>
    obtain ⟨db, drawn⟩ := w.sweepAll_kept (s := s) ⟨0, 0, 0⟩ w.db.documents.indexed
    refine ⟨sound.of_db (Nat.le_of_eq drawn.symm) db,
      shelved.kept (Nat.le_of_eq drawn.symm) (congrArg Database.chunkSets db), ?_⟩
    exact .of_same (.of_tables (congrArg Database.revisions db) (congrArg Database.chunkSets db))
      (docket_congr (congrArg Database.jobs db) (congrArg Database.documents db))

theorem worked_cons {op : Operation} {rest : List Operation} {x : String} {p : Policy} :
    w.Worked s (op :: rest) x p ↔
      op = .poll ∧ w.Works s x p ∨ (w.perform s op).Worked s rest x p := by
  constructor
  · rintro ⟨earlier, early, works⟩
    cases earlier with
    | nil => exact .inl ⟨(List.cons_prefix_cons.mp early).1.symm, works⟩
    | cons first earlier =>
      obtain ⟨rfl, within⟩ := List.cons_prefix_cons.mp early
      exact .inr ⟨earlier, within, works⟩
  · rintro (⟨rfl, works⟩ | ⟨earlier, early, works⟩)
    · exact ⟨[], List.cons_prefix_cons.mpr ⟨rfl, List.nil_prefix⟩, works⟩
    · exact ⟨op :: earlier, List.cons_prefix_cons.mpr ⟨rfl, early⟩, works⟩

theorem performAll_leads (sound : w.Sound) (shelved : w.Shelved) {ops : List Operation}
    (paired : ∀ op ∈ ops, op.isPaired = true)
    (works : ∀ x p, w.Worked s ops x p → worked x p)
    (free : disturbed ∨ w.Throughout s (LeavesAlone s workspace id) ops)
    (returns : stops ∨ w.Throughout s (Returns s) ops) :
    Leads s worked workspace id disturbed stops .idle w .idle (w.performAll s ops) := by
  induction ops generalizing w with
  | nil => exact .refl _ _
  | cons op rest ih =>
    obtain ⟨sound', shelved', first⟩ := perform_leads sound shelved
      (paired op List.mem_cons_self)
      (fun poll x p now => works x p (worked_cons.mpr (.inl ⟨poll, now⟩)))
      (free.imp_right And.left) (returns.imp_right And.left)
    exact first.trans (ih sound' shelved' (fun x later => paired x (List.mem_cons_of_mem _ later))
      (fun x p later => works x p (worked_cons.mpr (.inr later)))
      (free.imp_right And.right) (returns.imp_right And.right))

/-- Every document has come to where it is by a course that began with nothing of it. -/
theorem history_course (s : Setup) (workspace id : String) {disturbed stops : Prop} (now : Int)
    (env : Environment) (peer : Peer) {ops : List Operation}
    (paired : ∀ op ∈ ops, op.isPaired = true)
    (free : disturbed ∨
      (World.initial now env peer).Throughout s (LeavesAlone s workspace id) ops)
    (returns : stops ∨ (World.initial now env peer).Throughout s (Returns s) ops) :
    let start := World.initial now env peer
    let w := start.performAll s ops
    Docket.Course (w.terms s (start.Worked s ops) disturbed stops) .idle ⟨none, []⟩ .idle
      (w.docket workspace id) := by
  have shelved : (World.initial now env peer).Shelved := by
    intro c member
    cases member
  exact (performAll_leads (initial_sound now env peer) shelved paired
    (fun _ _ worked => worked) free returns).course

/-- A history replayed: each run is given so many steps to come to an outcome, and each operation
is checked in the world that it finds. -/
def replay (s : Setup) (n : Nat) (check : World → Operation → Bool) :
    World → List Operation → Option World
  | w, [] => some w
  | w, op :: rest =>
    if check w op then
      match op with
      | .poll =>
        match (w.housekeeping s.config).claim with
        | (none, w) => replay s n check w rest
        | (some job, w) =>
          match Run.steps s n (.start job) w with
          | (⟨_, _, .finished _⟩, w) => replay s n check w rest
          | _ => none
      | op => replay s n check (w.perform s op) rest
    else none

theorem poll_of_finished {n : Nat} {job : Job} {v w' : World} {r : Run} {outcome : Outcome}
    (claimed : (w.housekeeping s.config).claim = (some job, v))
    (ran : Run.steps s n (.start job) v = (r, w')) (ended : r.stage = .finished outcome) :
    w.poll s = (.ran outcome, w') := by
  rw [poll_of_steps n (congrArg Prod.fst claimed)]
  · rw [claimed, ran, ended]
    rfl
  · rw [claimed, ran, ended]
    rfl

/-- A history that can be replayed goes as it is replayed. -/
theorem performAll_of_replay {n : Nat} {check : World → Operation → Bool} {w' : World}
    {ops : List Operation} (replayed : w.replay s n check ops = some w') :
    w.performAll s ops = w' ∧
      w.Throughout s (fun w op => check w op = true ∧ w.Returns s op) ops := by
  induction ops generalizing w with
  | nil => exact ⟨Option.some.inj replayed, trivial⟩
  | cons op rest ih =>
    unfold replay at replayed
    split at replayed
    · rename_i checked
      have goes : w.Returns s op → replay s n check (w.perform s op) rest = some w' →
          w.performAll s (op :: rest) = w' ∧
            w.Throughout s (fun w op => check w op = true ∧ w.Returns s op) (op :: rest) :=
        fun returns next => ⟨(ih next).1, ⟨checked, returns⟩, (ih next).2⟩
      split at replayed
      · split at replayed
        · rename_i v claimed
          have polled : w.poll s = (.idle, v) := by
            unfold poll
            rw [claimed]
          refine goes ?_ ?_
          · simp [Returns, polled]
          · rw [perform, polled]
            exact replayed
        · rename_i job v claimed
          split at replayed
          · rename_i ran
            have polled := poll_of_finished claimed ran rfl
            refine goes ?_ ?_
            · simp [Returns, polled]
            · rw [perform, polled]
              exact replayed
          · cases replayed
      · rename_i other
        refine goes ?_ replayed
        cases op <;> trivial
    · cases replayed

end World

namespace Sample

def answered : Except EmbeddingError Embedding := .ok ⟨[1, 2], some 3, none⟩

/-- A document is written, and once more while its first version is embedded, with that
answer. -/
def overwritten (answer : Except EmbeddingError Embedding) : List Operation :=
  let rewrites : EmbedderTurn :=
    ⟨[.submit "w" "b" "d" "v2" "hello again"], fun _ => answer⟩
  [.outside { World.initial 1000 [] {} with turns := [rewrites], usualTurn := turn },
    .interfere (.submit "w" "b" "d" "v1" "hello world"), .poll]

end Sample

end IndexingPipeline
