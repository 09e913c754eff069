import IndexingPipeline.Proofs.Incidents

/-!
# Noticing that the jobs of an action have ended

The last job of an action ends in one step of a run and the jobs are counted anew in a later one;
until then only that run's base has an action under way whose jobs have run out. Nothing else that a
run does makes the jobs of a base run out: it puts jobs back or claims them, and others add some.
Where jobs end without a run that counts them, or an action is put under way whose jobs have ended
already, nobody notices until the action has been under way for too long: when a recovery gives up
the last job, when an action is resumed after its last job was completed, when one is started in the
millisecond in which its last job was added, and when a worker is dead before it has counted.
-/

namespace IndexingPipeline

namespace Queue

variable {q : Queue} {scope : JobScope}

instance (q : Queue) (scope : JobScope) : Decidable (q.RunOut scope) :=
  inferInstanceAs (Decidable (_ ∧ _))

/-- Jobs that have run out after a change that leaves each job as it is, or waiting or under way,
had run out before. -/
theorem RunOut.of_map {f : Job → Job} (same : ∀ j ∈ q, j.SameRequest (f j))
    (open_ : ∀ j ∈ q, scope.includes j = true → f j = j ∨ (f j).isActive = true)
    (ranOut : RunOut (q.map f) scope) : q.RunOut scope := by
  obtain ⟨⟨k, there, chosen⟩, ended⟩ := ranOut
  obtain ⟨j, member, rfl⟩ := List.mem_map.mp there
  have before : ∀ i ∈ q, scope.includes i = true → i.isActive = false := by
    intro i member chosen
    have inactive := ended (f i) (List.mem_map_of_mem member)
      (((same i member).includes scope).trans chosen)
    rcases open_ i member chosen with kept | active
    · exact kept ▸ inactive
    · rw [inactive] at active
      cases active
  exact ⟨⟨j, member, ((same j member).includes scope).symm.trans chosen⟩, before⟩

theorem RunOut.of_update {id : String} {f : Job → Job} (same : ∀ j : Job, j.SameRequest (f j))
    (open_ : ∀ j ∈ q, j.id = id → scope.includes j = true → (f j).isActive = true)
    (ranOut : RunOut (q.update id f) scope) : q.RunOut scope := by
  refine RunOut.of_map (fun j _ => .choose same _ j) ?_ ranOut
  intro j member chosen
  by_cases here : j.id = id
  · rw [if_pos here]
    exact .inr (open_ j member here chosen)
  · exact .inl (if_neg here)

theorem RunOut.of_enqueue (once : q.ids.Nodup) {now : Int}
    {newId workspace base document version : String}
    (ranOut : RunOut (q.enqueue now newId workspace base document version).2 scope) :
    q.RunOut scope := by
  rcases q.enqueue_cases now newId workspace base document version with
    ⟨j, waits, pointed⟩ | ⟨_, added⟩
  · obtain ⟨member, _, _, pending⟩ := waiting?_spec waits
    rw [pointed] at ranOut
    refine RunOut.of_update (.pointedAt version now) ?_ ranOut
    intro i there same _
    obtain rfl := List.inj_on_of_nodup_map once there member same
    exact Job.isActive_iff.mpr (.inl pending)
  · rw [added] at ranOut
    obtain ⟨⟨k, there, chosen⟩, ended⟩ := ranOut
    refine ⟨⟨k, ?_, chosen⟩, fun i member => ended i (List.mem_append_left _ member)⟩
    refine (List.mem_append.mp there).resolve_right ?_
    intro new
    have inactive := ended k there chosen
    rw [List.mem_singleton.mp new] at inactive
    cases inactive

theorem RunOut.of_claim {now : Int} (ranOut : RunOut (q.claim now).2 scope) : q.RunOut scope := by
  rcases q.claim_cases now with nothing | ⟨j, _, _, _, taken⟩
  · rwa [nothing] at ranOut
  · rw [taken] at ranOut
    exact RunOut.of_update (.taken now) (fun _ _ _ _ => rfl) ranOut

/-- No job is dropped, so that a queue does not get shorter. -/
theorem Keeps.length_le {q' : Queue} (kept : q.Keeps q') (once : q.ids.Nodup) :
    q.length ≤ q'.length := by
  have among : q.ids ⊆ q'.ids := by
    intro id member
    obtain ⟨j, there, rfl⟩ := List.mem_map.mp member
    obtain ⟨k, there, same⟩ := kept j there
    exact List.mem_map.mpr ⟨k, there, same.id⟩
  simpa [ids] using once.length_le_of_subset among

end Queue

/-- No base has a latest action that is under way although its jobs have run out. -/
def Noticed (q : Queue) (as : Actions) : Prop :=
  ∀ a ∈ as, as.latest? a.workspaceId a.baseId = some a → a.status = .processing →
    ¬ q.RunOut a.scope

namespace Noticed

instance (q : Queue) (as : Actions) : Decidable (Noticed q as) :=
  inferInstanceAs (Decidable (∀ a ∈ as, _ → _ → ¬ _))

variable {q q' : Queue} {as as' : Actions}

theorem latest (h : Noticed q as) {workspace base : String} {a : Action}
    (latest : as.latest? workspace base = some a) (processing : a.status = .processing) :
    ¬ q.RunOut a.scope := by
  obtain ⟨there, rfl, rfl⟩ := Actions.latest?_spec latest
  exact h a there latest processing

theorem of_latest (h : ∀ workspace base a, as.latest? workspace base = some a →
    a.status = .processing → ¬ q.RunOut a.scope) : Noticed q as :=
  fun a _ latest => h a.workspaceId a.baseId a latest

theorem jobs (h : Noticed q as) (ranOut : ∀ scope, q'.RunOut scope → q.RunOut scope) :
    Noticed q' as :=
  fun a there latest processing out => h a there latest processing (ranOut a.scope out)

/-- Actions go on, and are put under way only where jobs have not run out. -/
theorem onward (h : Noticed q as) (onward : as.Onward (fun scope => ¬ q.RunOut scope) as') :
    Noticed q as' := by
  refine .of_latest ?_
  intro workspace base b latest processing
  obtain ⟨a, before, same, status⟩ := onward.latest? latest
  rw [same.scope]
  rcases status processing with still | left
  · exact h.latest before still
  · exact left

theorem started (h : Noticed q as) {row : Action} (left : ¬ q.RunOut row.scope) :
    Noticed q (as ++ [row]) := by
  refine .of_latest ?_
  intro workspace base b latest processing
  rcases as.latest?_started row workspace base with ⟨new, _, _⟩ | same
  · obtain rfl := Option.some.inj (new.symm.trans latest)
    exact left
  · exact h.latest (same.symm.trans latest) processing

end Noticed

/-- A refresh notices that the jobs of the latest action have run out. -/
theorem Actions.refreshLatest_notices {s : ActionSettings} {q : Queue} {now : Int} {as : Actions}
    {workspace base : String} (once : as.ids.Nodup) (few : q.length < Number.twoTo 64) {b : Action}
    (latest : (as.refreshLatest s q now workspace base).2.latest? workspace base = some b)
    (processing : b.status = .processing) : ¬ q.RunOut b.scope := by
  cases before : as.latest? workspace base with
  | none =>
    simp only [refreshLatest, before] at latest
    cases latest
  | some a =>
    rw [refreshLatest_of_latest s q now before] at latest
    by_cases ended : a.status.isTerminal = true
    · rw [if_pos ended, before] at latest
      obtain rfl := Option.some.inj latest
      rw [processing] at ended
      cases ended
    · have kept := a.refreshed_written s q now (a.rowVersion + 1)
      simp only [ended, if_false, Bool.false_eq_true, latest?_put once kept before] at latest
      obtain rfl := Option.some.inj latest
      have undecided := (Action.going_of_refreshed processing).2.1
      have ending := q.ending_spec a.scope few
      rw [undecided] at ending
      rw [kept.scope]
      exact ending

/-- Whether a run has ended its job and is still to count it. -/
def Stage.owes : Stage → Bool
  | .cleaning _ _ => true
  | .marking _ => true
  | .noting _ => true
  | .refreshing _ => true
  | _ => false

namespace World

variable {w w' : World}

/-- Nobody resumes an action while a provider is at work. -/
def Unresumed (w : World) : Prop :=
  ∀ t ∈ w.usualTurn :: w.turns, ∀ i ∈ t.meanwhile, i.resumes = false

instance (w : World) : Decidable w.Unresumed :=
  inferInstanceAs (Decidable (∀ t ∈ _, ∀ i ∈ _, _))

theorem Unresumed.resumes (h : w.Unresumed) {may : JobScope → Prop} :
    ∀ t ∈ w.usualTurn :: w.turns, ∀ i ∈ t.meanwhile, i.resumes = true → ∀ scope, may scope := by
  intro t turn i member resumes
  rw [h t turn i member] at resumes
  cases resumes

/-- A provider takes its turns in their order and is given no others. -/
theorem embed_turns (s : Setup) (w : World) (p : Provider) (token : Option String)
    (text : String) :
    (w.embed s p token text).2.usualTurn = w.usualTurn ∧
      (w.embed s p token text).2.turns ⊆ w.turns := by
  refine embed_preserves (I := fun v => v.usualTurn = w.usualTurn ∧ v.turns ⊆ w.turns) s w p
    token text (fun _ => ⟨rfl, List.Subset.refl _⟩) ?_ ?_
  · exact ⟨rfl, List.drop_subset 1 w.turns⟩
  · intro v i _ kept
    cases i <;> exact kept

/-- Whatever another party does, jobs that have run out afterwards had run out before. -/
theorem runOut_of_interfere (sound : w.Sound) {cfg : Config} {i : Interference} {scope : JobScope}
    (ranOut : (w.interfere cfg i).db.jobs.RunOut scope) : w.db.jobs.RunOut scope := by
  cases i with
  | submit workspace base document version body =>
    exact Queue.RunOut.of_enqueue sound.jobs_once ranOut
  | advance | control | lock => exact ranOut

theorem runOut_of_embed (sound : w.Sound) {s : Setup} {p : Provider} {token : Option String}
    {text : String} {scope : JobScope}
    (ranOut : (w.embed s p token text).2.db.jobs.RunOut scope) : w.db.jobs.RunOut scope := by
  have kept : (w.embed s p token text).2.Sound ∧
      ((w.embed s p token text).2.db.jobs.RunOut scope → w.db.jobs.RunOut scope) := by
    refine embed_preserves (I := fun v => v.Sound ∧
      (v.db.jobs.RunOut scope → w.db.jobs.RunOut scope)) s w p token text ?_ ?_ ?_
    · exact fun _ => ⟨sound.of_db (Nat.le_refl _) rfl, id⟩
    · exact ⟨sound.of_db (Nat.le_refl _) rfl, id⟩
    · rintro v i _ ⟨sound, before⟩
      exact ⟨(v.interfere_meanwhile s.config i).sound sound,
        fun ranOut => before (runOut_of_interfere sound ranOut)⟩
  exact kept.2 ranOut

end World

namespace Run

variable {s : Setup} {job : Job} {w₀ w w' : World} {r r' : Run}

theorem Move.turns (m : Move s r w r' w') :
    w'.usualTurn = w.usualTurn ∧ w'.turns ⊆ w.turns := by
  have outside : ∀ v, w.SameInside v → v.usualTurn = w.usualTurn ∧ v.turns ⊆ w.turns :=
    fun v same => ⟨same.usualTurn, same.turns ▸ List.Subset.refl w.turns⟩
  cases m with
  | kept | mismatched | unembedded | unaccepted => exact w.embed_turns s _ _ _
  | ensured | unensured => exact outside _ (w.ensureCollection_inside s _ _)
  | written | unwritten => exact outside _ (w.writePoints_inside s _ _)
  | cleaned => exact outside _ (w.deletePoints_inside s _ _)
  | _ => exact ⟨rfl, List.Subset.refl _⟩

/-- What is so of every turn that a provider may still take stays so from move to move. -/
theorem Move.each_turn {P : EmbedderTurn → Prop} (m : Move s r w r' w')
    (h : ∀ t ∈ w.usualTurn :: w.turns, P t) : ∀ t ∈ w'.usualTurn :: w'.turns, P t := by
  obtain ⟨usual, turns⟩ := m.turns
  intro t member
  rcases List.mem_cons.mp member with rfl | later
  · exact h _ (usual ▸ List.mem_cons_self)
  · exact h t (List.mem_cons_of_mem _ (turns later))

/-- Jobs that have run out after a move had run out before, unless the move ended the job of the run
and it is one of them. -/
theorem Move.runOut (m : Move s r w r' w') (h : Abreast s job w₀ r w) {scope : JobScope}
    (apart : r'.stage.owes = false ∨ r.stage.owes = true ∨ scope.includes job = false)
    (ranOut : w'.db.jobs.RunOut scope) : w.db.jobs.RunOut scope := by
  have jobs := m.jobs_kept
  have row := h.row
  have once := h.sound.jobs_once
  have mine := h.same_job
  -- the one row that a run may end is that of its job
  have ended : r.stage.isUndecided = true → scope.includes job = false →
      ∀ j ∈ w.db.jobs, j.id = job.id → scope.includes j = true → False := by
    intro undecided elsewhere j there same chosen
    have member := (Queue.mem_of_job? (row undecided)).1
    obtain rfl := List.inj_on_of_nodup_map once there member same
    rw [elsewhere] at chosen
    cases chosen
  cases m with
  | kept | mismatched | unembedded | unaccepted =>
    exact World.runOut_of_embed h.sound ranOut
  | deferred =>
    refine Queue.RunOut.of_update ?_ ?_ ranOut
    · exact fun _ => ⟨rfl, rfl, rfl, rfl, rfl⟩
    · exact fun _ _ _ _ => rfl
  | retried e attempts moment jobs retryable retry =>
    obtain ⟨_, _, rfl⟩ := Queue.update_of_rescheduled retry
    refine Queue.RunOut.of_update ?_ ?_ ranOut
    · exact fun _ => ⟨rfl, rfl, rfl, rfl, rfl⟩
    · exact fun _ _ _ _ => rfl
  | exhausted e attempts jobs retryable retry =>
    subst mine
    have elsewhere := (apart.resolve_left (by simp [Stage.owes])).resolve_left
      (by simp [Stage.owes])
    obtain ⟨_, rfl⟩ := Queue.update_of_exhausted retry
    refine Queue.RunOut.of_update ?_ ?_ ranOut
    · exact fun _ => ⟨rfl, rfl, rfl, rfl, rfl⟩
    · exact fun j there same chosen => (ended rfl elsewhere j there same chosen).elim
  | final | switched =>
    subst mine
    have elsewhere := (apart.resolve_left (by simp [Stage.owes])).resolve_left
      (by simp [Stage.owes])
    refine Queue.RunOut.of_update ?_ ?_ ranOut
    · exact fun _ => ⟨rfl, rfl, rfl, rfl, rfl⟩
    · exact fun j there same chosen => (ended rfl elsewhere j there same chosen).elim
  | vanished => exact ranOut
  | _ =>
    rw [jobs (by simp [Stage.writes])] at ranOut
    exact ranOut

/-- A run, and whether the actions under way have jobs left: all but the one that the run is still
to count a job for. -/
structure Noticing (s : Setup) (job : Job) (w₀ : World) (r : Run) (w : World) : Prop where
  abreast : Abreast s job w₀ r w
  rostered : w.Rostered
  unresumed : w.Unresumed
  noticed : w.db.jobs.length < Number.twoTo 64 → ∀ workspace base a,
    w.db.actions.latest? workspace base = some a → a.status = .processing →
    w.db.jobs.RunOut a.scope →
    r.stage.owes = true ∧ workspace = job.workspaceId ∧ base = job.baseId

/-- A run that is still to count its job goes on to do so, or it does and notices. -/
theorem Move.counts (m : Move s r w r' w') (owes : r.stage.owes = true) :
    r'.stage.owes = true ∨ w'.db.jobs = w.db.jobs ∧
      w'.db.actions = (w.db.actions.refreshLatest s.config.actions w.db.jobs w.now
        r.job.workspaceId r.job.baseId).2 := by
  cases m with
  | cleaned | marked | unnoted | noted => exact .inl rfl
  | refreshed => exact .inr ⟨rfl, rfl⟩
  | _ => cases owes

theorem Noticing.move (h : Noticing s job w₀ r w) (claimed : job.status ≠ .pending)
    (m : Move s r w r' w') : Noticing s job w₀ r' w' := by
  have onward : w.db.actions.Onward (fun _ => False) w'.db.actions :=
    m.onward h.rostered.once h.unresumed.resumes
  refine ⟨h.abreast.move m claimed, h.rostered.of_ids m.drawn_le onward.ids,
    m.each_turn h.unresumed, ?_⟩
  intro few workspace base b latest processing ranOut
  obtain ⟨a, before, same, status⟩ := onward.latest? latest
  have under_way : a.status = .processing := (status processing).resolve_right id
  have mine := h.abreast.same_job
  by_cases earlier : w.db.jobs.RunOut a.scope
  · have fewer : w.db.jobs.length < Number.twoTo 64 :=
      Nat.lt_of_le_of_lt (m.keeps.length_le h.abreast.sound.jobs_once) few
    obtain ⟨owes, here⟩ := h.noticed fewer workspace base a before under_way earlier
    rcases m.counts owes with still | ⟨jobs, actions⟩
    · exact ⟨still, here⟩
    · obtain ⟨rfl, rfl⟩ := here
      rw [actions, mine] at latest
      rw [jobs] at ranOut
      exact absurd ranOut (Actions.refreshLatest_notices h.rostered.once fewer latest processing)
  · -- the jobs have run out with this move, which has ended one of them
    have ended : r'.stage.owes = true ∧ a.scope.includes job = true := by
      constructor
      · by_contra paid
        exact earlier (m.runOut h.abreast (.inl (by simpa using paid)) (same.scope ▸ ranOut))
      · by_contra elsewhere
        exact earlier (m.runOut h.abreast (.inr (.inr (by simpa using elsewhere)))
          (same.scope ▸ ranOut))
    obtain ⟨_, rfl, rfl⟩ := Actions.latest?_spec before
    have chosen := ended.2
    rw [a.scope_includes] at chosen
    simp only [Bool.and_eq_true, decide_eq_true_eq] at chosen
    exact ⟨ended.1, chosen.1.1.symm, chosen.1.2.symm⟩

end Run

namespace World

variable {s : Setup} {w : World}

/-- The recovery that a poll begins with gives up no job that was the last one left of an action
under way, and nobody resumes an action while a provider is at work. -/
def Attended (s : Setup) (w : World) : Prop :=
  w.Unresumed ∧ Noticed (w.db.jobs.recover s.config.worker w.now).2 w.db.actions

/-- A worker is not dead between the end of its job and counting it. -/
def Counted (s : Setup) (n : Nat) (w : World) : Prop :=
  match (w.housekeeping s.config).claim with
  | (none, _) => True
  | (some job, w) => (Run.steps s n (.start job) w).1.stage.owes = false

/-- An action is not put under way with jobs that have all ended, and of those under way no worker
and no recovery ends the last job without counting it. -/
def Heeds (s : Setup) (w : World) : Incident → Prop
  | .op (.start workspace base _) =>
    ¬ w.db.jobs.RunOut ⟨some workspace, some base, some w.now⟩
  | .op (.interfere (.control id .resume)) =>
    ∀ a ∈ w.db.actions, a.id = id → a.status = .paused → ¬ w.db.jobs.RunOut a.scope
  | .op .poll => w.Attended s
  | .death n => w.Attended s ∧ w.Counted s n
  | _ => True

instance (s : Setup) (n : Nat) (w : World) : Decidable (w.Counted s n) := by
  unfold Counted
  exact match (w.housekeeping s.config).claim with
    | (none, _) => inferInstanceAs (Decidable True)
    | (some job, w) => inferInstanceAs (Decidable ((Run.steps s n (.start job) w).1.stage.owes = _))

instance (s : Setup) (w : World) : (x : Incident) → Decidable (w.Heeds s x)
  | .op (.start _ _ _) => inferInstanceAs (Decidable (¬ _))
  | .op (.interfere (.control _ .resume)) => inferInstanceAs (Decidable (∀ a ∈ _, _ → _ → ¬ _))
  | .op .poll => inferInstanceAs (Decidable (_ ∧ _))
  | .death _ => inferInstanceAs (Decidable ((_ ∧ _) ∧ _))
  | .op (.interfere (.control _ .pause)) | .op (.interfere (.control _ .cancel))
  | .op (.interfere (.advance _)) | .op (.interfere (.submit _ _ _ _ _))
  | .op (.interfere (.lock _ _)) | .op (.put _ _ _ _ _) | .op (.enqueue _ _ _ _)
  | .op (.inject _ _) | .op (.outside _) | .op .sweep => inferInstanceAs (Decidable True)

/-- Every action under way has jobs left or none at all, as long as the jobs can be counted. -/
structure Tended (w : World) : Prop where
  sound : w.Sound
  rostered : w.Rostered
  noticed : w.db.jobs.length < Number.twoTo 64 → Noticed w.db.jobs w.db.actions

theorem tended_of_run {job : Job} {w₀ : World} {r : Run} (h : r.Noticing s job w₀ w)
    (paid : r.stage.owes = false) : w.Tended where
  sound := h.abreast.sound
  rostered := h.rostered
  noticed := by
    intro few
    refine .of_latest ?_
    intro workspace base a latest processing ranOut
    obtain ⟨owes, _⟩ := h.noticed few workspace base a latest processing ranOut
    rw [paid] at owes
    cases owes

/-- After housekeeping and a claim everything is noticed, and a run may start. -/
theorem Tended.claimed (h : w.Tended) (attended : w.Attended s) :
    let v := (w.housekeeping s.config).claim.2
    v.Tended ∧ v.Unresumed ∧ Noticed v.db.jobs v.db.actions := by
  intro v
  obtain ⟨unresumed, recovered⟩ := attended
  let q := (w.db.jobs.recover s.config.worker w.now).2
  have jobs : v.db.jobs = (q.claim w.now).2 := rfl
  have actions : v.db.actions = (w.db.actions.expire s.config.actions q w.now).2 := rfl
  have around : w.Around v := (w.housekeeping_around s.config).trans (claim_around _)
  have onward : w.db.actions.Onward (fun scope => ¬ q.RunOut scope) v.db.actions :=
    w.claimed_onward s h.rostered.once
  have noticed : Noticed v.db.jobs v.db.actions := by
    rw [jobs]
    exact (recovered.onward onward).jobs fun _ => Queue.RunOut.of_claim
  exact ⟨⟨around.sound h.sound, h.rostered.of_ids around.drawn onward.ids, fun _ => noticed⟩,
    unresumed, noticed⟩

theorem Tended.start (h : w.Tended) (attended : w.Attended s) (job : Job)
    (claimed : (w.housekeeping s.config).claim.1 = some job) :
    let v := (w.housekeeping s.config).claim.2
    (Run.start job).Noticing s job v v ∧ job.status = .processing := by
  intro v
  obtain ⟨tended, unresumed, noticed⟩ := h.claimed attended
  have kept := (w.housekeeping_around s.config).sound h.sound
  obtain ⟨row, processing⟩ := claim_claimed _ kept claimed
  refine ⟨⟨.start s tended.sound row, tended.rostered, unresumed, ?_⟩, processing⟩
  intro _ workspace base a latest under_way ranOut
  exact absurd ranOut (noticed.latest latest under_way)

theorem Tended.poll (h : w.Tended) (attended : w.Attended s) : (w.poll s).2.Tended := by
  rcases w.poll_cases s with ⟨_, idle⟩ | ⟨job, claimed, ran, _⟩
  · rw [idle]
    exact (h.claimed attended).1
  · obtain ⟨start, processing⟩ := h.start attended job claimed
    have done := Run.complete_keeps
      (I := Run.Noticing s job (w.housekeeping s.config).claim.2)
      (fun _ _ _ _ h m => h.move (by simp [processing]) m) _ _ start
    have ended := Run.complete_isOver s (.start job) (w.housekeeping s.config).claim.2
    rw [ran]
    refine tended_of_run done ?_
    revert ended
    cases (Run.complete s (.start job) (w.housekeeping s.config).claim.2).1.stage <;>
      simp [Stage.isOver, Stage.owes]

theorem Tended.death (h : w.Tended) (attended : w.Attended s) {n : Nat}
    (counted : w.Counted s n) : (w.incur s (.death n)).Tended := by
  have start := h.start attended
  have idle := (h.claimed attended).1
  unfold Counted at counted
  unfold incur
  generalize (w.housekeeping s.config).claim = answer at *
  obtain ⟨claimed, v⟩ := answer
  cases claimed with
  | none => exact idle
  | some job =>
    obtain ⟨start, processing⟩ := start job rfl
    have ran := Run.steps_keeps (I := Run.Noticing s job v)
      (fun _ _ _ _ h m => h.move (by simp [processing]) m) n start
    exact tended_of_run ran counted

theorem Tended.incur (h : w.Tended) {x : Incident} (heeds : w.Heeds s x) :
    (w.incur s x).Tended := by
  cases x with
  | death n => exact h.death heeds.1 heeds.2
  | op o =>
    have goes : (Noticed w.db.jobs w.db.actions →
        Noticed (w.perform s o).db.jobs (w.perform s o).db.actions) → (w.perform s o).Tended := by
      intro noticed
      refine ⟨h.sound.incur s (.op o), h.rostered.incur s (.op o), fun few => ?_⟩
      refine noticed (h.noticed ?_)
      exact Nat.lt_of_le_of_lt ((w.perform_keeps s o).length_le h.sound.jobs_once) few
    change (w.perform s o).Tended
    cases o with
    | put | inject | outside => exact goes id
    | enqueue =>
      exact goes fun noticed => noticed.jobs fun _ => Queue.RunOut.of_enqueue h.sound.jobs_once
    | start => exact goes fun noticed => noticed.started heeds
    | interfere i =>
      have actions : w.db.actions.Onward (fun scope => ¬ w.db.jobs.RunOut scope)
          (w.interfere s.config i).db.actions := by
        cases i with
        | control action c =>
          refine Actions.control_onward s.config.actions w.now h.rostered.once action c ?_
          rintro rfl a found
          obtain ⟨there, same⟩ := Actions.mem_of_action? found
          exact heeds a there same
        | advance | submit | lock => exact .refl _
      exact goes fun noticed => (noticed.onward actions).jobs fun _ => runOut_of_interfere h.sound
    | poll => exact h.poll heeds
    | sweep =>
      have db := (w.sweepAll_kept (s := s) ⟨0, 0, 0⟩ w.db.documents.indexed).1
      have actions : (w.perform s .sweep).db.actions = w.db.actions :=
        congrArg Database.actions db
      have jobs : (w.perform s .sweep).db.jobs = w.db.jobs := congrArg Database.jobs db
      rw [actions, jobs] at goes
      exact goes id

end World

/-- Whatever is done, whatever services answer and wherever workers stop: as long as the jobs can be
counted, an action that is the latest of its base is not under way when its jobs have run out. It
takes that no action is put under way with jobs that have run out, and that no worker and no
recovery leaves the end of the last job uncounted. -/
theorem completion_noticed (s : Setup) (now : Int) (env : Environment) (peer : Peer)
    (xs : List Incident) (heeded : (World.initial now env peer).Along s (World.Heeds s) xs) :
    let w := (World.initial now env peer).incurAll s xs
    w.db.jobs.length < Number.twoTo 64 → ∀ workspace base a,
      w.db.actions.latest? workspace base = some a → a.status = .processing →
      ¬ w.db.jobs.RunOut a.scope := by
  intro w few workspace base a latest processing
  have start : (World.initial now env peer).Tended := by
    refine ⟨World.initial_sound now env peer, World.initial_rostered now env peer, fun _ => ?_⟩
    intro a member
    cases member
  have tended := World.incurAll_keeps (fun _ _ h heeds => h.incur heeds) start heeded
  exact (tended.noticed few).latest latest processing

namespace Sample

/-- What is there after incidents and operations that follow them. -/
def aftermath (s : Setup) (xs : List Incident) (ops : List Operation) : World :=
  (World.initial 1000 [] {}).incurAll s (xs ++ ops.map .op)

theorem aftermath_of_replay {s : Setup} {xs : List Incident} {ops : List Operation} {n : Nat}
    {check : World → Operation → Bool} {w : World}
    (replayed : ((World.initial 1000 [] {}).incurAll s xs).replay s n check ops = some w) :
    aftermath s xs ops = w := by
  calc aftermath s xs ops
    _ = ((World.initial 1000 [] {}).incurAll s xs).incurAll s (ops.map .op) := List.foldl_append
    _ = ((World.initial 1000 [] {}).incurAll s xs).performAll s ops := List.foldl_map
    _ = w := (World.performAll_of_replay replayed).1

/-- The jobs of the action of the base have run out, and it stands like this. -/
def hasRunOut (status : ActionStatus → Bool) (w : World) : Bool :=
  (w.db.actions.latest? "w" "b").any fun a =>
    decide (w.db.jobs.RunOut a.scope) && status a.status

def later : List Operation := [.interfere (.advance 1800001), .poll]

/-- A worker is dead in the midst of its run, and another executes the job once more. -/
theorem outlived_ran :
    World.Along setup (World.Heeds setup) (World.initial 1000 [] {}) (watched ++ [.death 5]) ∧
    (((World.initial 1000 [] {}).incurAll setup (watched ++ [.death 5])).replay setup 16
      (fun w o => decide (w.Heeds setup (.op o))) later).any
        (fun w => hasRunOut (fun _ => true) w && w.db.jobs.length = 1) = true := by
  constructor
  · exact ⟨by decide +kernel, by decide +kernel, by decide +kernel, by decide +kernel, trivial⟩
  · decide +kernel

end Sample

theorem completion_noticed_sample :
    let w := Sample.aftermath Sample.setup (Sample.watched ++ [.death 5]) Sample.later
    ∃ a, w.db.actions.latest? "w" "b" = some a ∧ w.db.jobs.RunOut a.scope ∧
      a.status ≠ .processing := by
  obtain ⟨before, ran⟩ := Sample.outlived_ran
  obtain ⟨w, replayed, ended⟩ := (Option.any_eq_true _ _).mp ran
  obtain ⟨ended, one⟩ := Bool.and_eq_true_iff.mp ended
  obtain ⟨a, latest, ended⟩ := (Option.any_eq_true _ _).mp ended
  simp only [Bool.and_true, decide_eq_true_eq] at ended one
  have heeded : World.Along Sample.setup (World.Heeds Sample.setup) (World.initial 1000 [] {})
      ((Sample.watched ++ [.death 5]) ++ Sample.later.map .op) := by
    refine World.along_append before (World.along_ops ?_)
    refine (World.performAll_of_replay replayed).2.mono ?_
    exact fun _ _ checked => of_decide_eq_true checked.1
  obtain rfl := Sample.aftermath_of_replay replayed
  refine ⟨a, latest, ended, fun processing => ?_⟩
  exact completion_noticed Sample.setup 1000 [] {} _ heeded (one ▸ by decide) "w" "b" a latest
    processing ended

namespace Sample

def hasty : Setup := { setup with config := { setup.config with worker := { maxAttempts := 1 } } }

/-- The action is paused while the document is embedded, and resumed when its job is completed. -/
def resumed : List Operation :=
  let pauses : EmbedderTurn := ⟨[.control (Identifier.ofNat 0) .pause], turn.answer⟩
  [.outside { World.initial 1000 [] {} with turns := [pauses], usualTurn := turn },
    .start "w" "b" {}, .interfere (.submit "w" "b" "d" "v1" "hello world"), .poll,
    .interfere (.control (Identifier.ofNat 0) .resume)]

/-- A document is indexed, and within the same millisecond an action of its base is started. -/
def startedLate : List Operation :=
  [.outside { World.initial 1000 [] {} with usualTurn := turn },
    .interfere (.submit "w" "b" "d" "v1" "hello world"), .poll, .start "w" "b" {}]

theorem unnoticed_of_replay {s : Setup} {xs : List Incident} {ops : List Operation}
    (ran : (((World.initial 1000 [] {}).incurAll s xs).replay s 16 (fun _ _ => true) ops).any
      (hasRunOut (· = .processing)) = true) : ∃ a,
    (aftermath s xs ops).db.actions.latest? "w" "b" = some a ∧
      (aftermath s xs ops).db.jobs.RunOut a.scope ∧ a.status = .processing := by
  obtain ⟨w, replayed, ended⟩ := (Option.any_eq_true _ _).mp ran
  obtain ⟨a, latest, ended⟩ := (Option.any_eq_true _ _).mp ended
  obtain rfl := aftermath_of_replay replayed
  simp only [Bool.and_eq_true, decide_eq_true_eq] at ended
  exact ⟨a, latest, ended⟩

end Sample

/-- An action is under way although its jobs have run out: when a recovery gives up the job of a
dead worker, when the action is resumed after its last job was completed, when it is started in the
millisecond of the jobs, and when a worker is dead before it counts. -/
theorem completion_unnoticed :
    let unnoticed (w : World) := ∃ a, w.db.actions.latest? "w" "b" = some a ∧
      w.db.jobs.RunOut a.scope ∧ a.status = .processing
    unnoticed (Sample.aftermath Sample.hasty (Sample.watched ++ [.death 5]) Sample.later) ∧
    unnoticed (Sample.aftermath Sample.setup [] Sample.resumed) ∧
    unnoticed (Sample.aftermath Sample.setup [] Sample.startedLate) ∧
    unnoticed (Sample.aftermath Sample.setup (Sample.watched ++ [.death 13]) []) := by
  refine ⟨?_, ?_, ?_, ?_⟩ <;> exact Sample.unnoticed_of_replay (by decide +kernel)

end IndexingPipeline
