import IndexingPipeline.Proofs.History

/-!
# The label of an index

A document says which version its index has followed up to. That is at all times the version of
the revision that it points at. At rest it is also the version of the document, as long as no
execution of one of its jobs has failed or was taken to be dead: then jobs are executed in the
order in which their versions were asked for, and the last of them is for the last version. A job
that is put back after a failed execution stands beside the newer one that was added meanwhile. It
may come last, and its run reads the newer body but leaves its own version as the label.
-/

namespace IndexingPipeline

namespace Docket

variable {t : Terms} {p p' : Phase} {a b : Docket}

/-- A document points at an edition that is known and has its version as the label, or it has
neither. A run is at work on an edition that is known, of the version of its job. -/
structure Shown (made : Edition → Prop) (p : Phase) (a : Docket) : Prop where
  read : ∀ job e, p = .working job (some e) → made e ∧ e.versionId = job.versionId
  label : ∀ d, a.document = some d →
    d.currentRevisionId = none ∧ d.indexedVersionId = none ∨
    ∃ e, made e ∧ d.currentRevisionId = some e.revisionId ∧
      d.indexedVersionId = some e.versionId

theorem Shown.step (h : a.Shown t.made p) (step : Step t p a p' b) : b.Shown t.made p' := by
  cases step with
  | written quiet free submitted =>
    obtain ⟨version, body, d, found, written, _⟩ := submitted
    refine ⟨h.read, ?_⟩
    intro d' found'
    obtain rfl := Option.some.inj (found.symm.trans found')
    rw [written.revision, written.indexed]
    cases before : a.document with
    | none => exact .inl ⟨rfl, rfl⟩
    | some x => exact h.label x before
  | read e found made version body =>
    refine ⟨?_, h.label⟩
    rintro _ _ ⟨⟩
    exact ⟨made, version⟩
  | marked now reason =>
    refine ⟨(by rintro _ _ ⟨⟩), ?_⟩
    intro d' found'
    obtain ⟨d, found, rfl⟩ := Option.map_eq_some_iff.mp found'
    exact h.label d found
  | switched now e j' found ended attempts changed =>
    obtain ⟨made, version⟩ := h.read _ e rfl
    refine ⟨(by rintro _ _ ⟨⟩), ?_⟩
    rintro _ ⟨⟩
    exact .inr ⟨e, made, rfl, congrArg some version.symm⟩
  | _ => exact ⟨(by rintro _ _ ⟨⟩), h.label⟩

theorem Course.shown (course : Course t .idle ⟨none, []⟩ p a) : a.Shown t.made p :=
  course.keeps (I := fun p a => a.Shown t.made p) Shown.step
    ⟨by rintro _ _ ⟨⟩, by rintro _ ⟨⟩⟩

/-- Some failed execution of one of the document's jobs was counted. -/
def IsTried (a : Docket) : Prop := ∃ j ∈ a.jobs, 0 < j.attempts

/-- Jobs that have not ended can still be executed, and the job that is under way is one. -/
structure Counted (settings : WorkerSettings) (p : Phase) (a : Docket) : Prop where
  few : ∀ j ∈ a.jobs, j.isActive = true → j.attempts < max 1 settings.maxAttempts
  held : ∀ job, p.job? = some job → job.status = .processing

theorem Counted.step (h : a.Counted t.settings p) (step : Step t p a p' b) :
    b.Counted t.settings p' := by
  -- a job of the docket becomes one that can still be executed, or that has ended
  have changed : ∀ {job j' : Job} {jobs : Queue}, a.jobs.Changed job j' jobs →
      (j'.isActive = true → j'.attempts < max 1 t.settings.maxAttempts) →
      ∀ j ∈ jobs, j.isActive = true → j.attempts < max 1 t.settings.maxAttempts := by
    intro job j' jobs changed few x member active
    rcases (changed.mem x).mp member with rfl | ⟨old, _⟩
    · exact few active
    · exact h.few x old active
  have under_way : ∀ {job j' : Job} {jobs : Queue}, p.job? = some job →
      a.jobs.Changed job j' jobs → job.attempts < max 1 t.settings.maxAttempts := by
    intro job j' jobs held changed
    exact h.few job changed.there (Job.isActive_iff.mpr (.inr (h.held job held)))
  cases step with
  | written quiet free submitted =>
    obtain ⟨_, _, _, _, _, asked⟩ := submitted
    refine ⟨?_, h.held⟩
    cases asked with
    | pointed j j' waited waits _ same pointed =>
      refine changed pointed fun _ => ?_
      rw [same]
      exact h.few j pointed.there (Job.isActive_iff.mpr (.inl waited))
    | added j' _ _ _ new mem =>
      intro x member active
      rcases (mem x).mp member with rfl | old
      · omega
      · exact h.few x old active
  | recovered now =>
    refine ⟨?_, h.held⟩
    intro x member active
    obtain ⟨j, old, rfl⟩ := List.mem_map.mp member
    obtain ⟨waited, few⟩ := Queue.open_of_tended (Job.isActive_iff.mp active)
    exact few (h.few j old (Job.isActive_iff.mpr waited))
  | claimed j j' waits taken _ same claimed =>
    refine ⟨changed claimed fun _ => ?_, ?_⟩
    · rw [same]
      exact h.few j claimed.there (Job.isActive_iff.mpr (.inl waits))
    · rintro _ ⟨⟩
      exact taken
  | deferred j' _ _ same deferred =>
    exact ⟨changed deferred fun _ => same ▸ under_way rfl deferred, (by rintro _ ⟨⟩)⟩
  | retried j' _ _ _ left retried =>
    exact ⟨changed retried fun _ => by omega, (by rintro _ ⟨⟩)⟩
  | failed j' ended _ failed =>
    exact ⟨changed failed fun active => by simp [Job.isActive, ended] at active, (by rintro _ ⟨⟩)⟩
  | switched now e j' _ ended _ switched =>
    exact ⟨changed switched fun active => by simp [Job.isActive, ended] at active, (by rintro _ ⟨⟩)⟩
  | entered | read | stopped => exact ⟨h.few, h.held⟩
  | marked | left => exact ⟨h.few, (by rintro _ ⟨⟩)⟩

theorem IsTried.changed {job j' : Job} {document : Option Document} {jobs : Queue}
    (tried : a.IsTried) (changed : a.jobs.Changed job j' jobs)
    (counted : job.attempts ≤ j'.attempts) : IsTried ⟨document, jobs⟩ := by
  obtain ⟨x, member, some_failed⟩ := tried
  by_cases same : x = job
  · subst same
    exact ⟨j', (changed.mem j').mpr (.inl rfl), by omega⟩
  · exact ⟨x, (changed.mem x).mpr (.inr ⟨member, same⟩), some_failed⟩

/-- Recovering jobs counts a failed execution, or changes nothing. -/
theorem recover_tried (q : Queue) (settings : WorkerSettings) (now : Int) :
    (q.recover settings now).2 = q ∨ ∃ j ∈ (q.recover settings now).2, 0 < j.attempts := by
  by_cases stale : ∃ j ∈ q, Queue.isStale settings now j = true
  · obtain ⟨j, member, stale⟩ := stale
    refine .inr ⟨_, List.mem_map.mpr ⟨j, member, if_pos stale⟩, ?_⟩
    rcases Queue.recovered_cases settings now j with ⟨_, made⟩ | ⟨_, made⟩ <;> rw [made] <;>
      exact Nat.succ_pos _
  · exact .inl (Queue.recover_none fun j member dead => stale ⟨j, member, dead⟩)

theorem Counted.next (h : a.Counted t.settings p)
    (small : t.settings.maxAttempts < Number.twoTo 32) {job j' : Job} {jobs : Queue}
    (held : p.job? = some job) (changed : a.jobs.Changed job j' jobs) :
    wrapU32 (job.attempts + 1) = job.attempts + 1 := by
  have few := h.few job changed.there (Job.isActive_iff.mpr (.inr (h.held job held)))
  have size : Number.twoTo 32 = 4294967296 := rfl
  exact wrapU32_of_lt (by omega)

theorem IsTried.step (tried : a.IsTried) (h : a.Counted t.settings p)
    (small : t.settings.maxAttempts < Number.twoTo 32) (step : Step t p a p' b) : b.IsTried := by
  cases step with
  | written quiet free submitted =>
    obtain ⟨_, _, _, _, _, asked⟩ := submitted
    cases asked with
    | pointed j j' _ _ _ same pointed => exact tried.changed pointed (Nat.le_of_eq same.symm)
    | added j' _ _ _ _ mem =>
      obtain ⟨x, member, some_failed⟩ := tried
      exact ⟨x, (mem x).mpr (.inr member), some_failed⟩
  | recovered now =>
    rcases recover_tried a.jobs t.settings now with same | tried'
    · rw [IsTried, same]
      exact tried
    · exact tried'
  | claimed j j' _ _ _ same changed => exact tried.changed changed (Nat.le_of_eq same.symm)
  | deferred j' _ _ same changed => exact tried.changed changed (Nat.le_of_eq same.symm)
  | switched now e j' _ _ same changed => exact tried.changed changed (Nat.le_of_eq same.symm)
  | retried j' _ _ counted _ changed =>
    have next := h.next small rfl changed
    exact tried.changed changed (by omega)
  | failed j' _ counted changed =>
    have next := h.next small rfl changed
    exact tried.changed changed (by omega)
  | entered | read | marked | stopped | left => exact tried

/-- Jobs come in the order in which their versions were asked for: at most one waits, and that is
for the document's version. While a run has not begun to work none waits, and the run's job is
for the document's version; later one may wait in its place. A document that is ready, no job of
it waiting or under way, has its version as its label. -/
structure Straight (p : Phase) (a : Docket) : Prop where
  one : ∀ j ∈ a.jobs, ∀ k ∈ a.jobs, j.status = .pending → k.status = .pending → j = k
  waiting : ∀ j ∈ a.jobs, j.status = .pending →
    a.document.map (·.versionId) = some j.versionId
  outside : ∀ job, p = .outside job → (∀ j ∈ a.jobs, j.status ≠ .pending) ∧
    a.document.map (·.versionId) = some job.versionId
  working : ∀ job read, p = .working job read →
    a.document.map (·.versionId) = some job.versionId ∨ ∃ j ∈ a.jobs, j.status = .pending
  ready : ∀ d, a.document = some d → d.indexStatus = .ready →
    d.indexedVersionId = some d.versionId ∨ (∃ j ∈ a.jobs, j.isActive = true) ∨ p = .failed

theorem Straight.written (h : a.Straight p) (quiet : p.isOutside = false)
    (submitted : a.Submitted b) : b.Straight p := by
  obtain ⟨version, body, d, found, written, asked⟩ := submitted
  obtain ⟨x, member, waits, asked_for⟩ := asked.waits
  have one := asked.one h.one
  have stored : b.document.map (·.versionId) = some version := by
    rw [found, Option.map_some, written.version]
  refine ⟨one, ?_, ?_, fun _ _ _ => .inr ⟨x, member, waits⟩, ?_⟩
  · intro j waiting pending
    rw [one j waiting x member pending waits, asked_for]
    exact stored
  · rintro job rfl
    cases quiet
  · intro d' found' ready
    obtain rfl := Option.some.inj (found.symm.trans found')
    rw [written.status] at ready
    cases ready

/-- When the job of a run that has not begun to work is put back, it is the only one that
waits. -/
theorem Straight.deferred {job j' : Job} {jobs : Queue} (h : a.Straight (.outside job))
    (waits : j'.status = .pending) (version : j'.versionId = job.versionId)
    (changed : a.jobs.Changed job j' jobs) : Straight .idle ⟨a.document, jobs⟩ := by
  obtain ⟨none_waits, stored⟩ := h.outside job rfl
  have sole : ∀ x ∈ jobs, x.status = .pending → x = j' := by
    intro x member pending
    rcases (changed.mem x).mp member with same | ⟨old, _⟩
    · exact same
    · exact absurd pending (none_waits x old)
  refine ⟨?_, ?_, by rintro _ ⟨⟩, by rintro _ _ ⟨⟩, ?_⟩
  · intro j hj k hk pending pending'
    rw [sole j hj pending, sole k hk pending']
  · intro j member pending
    rw [sole j member pending, version]
    exact stored
  · exact fun _ _ _ => .inr (.inl ⟨j', (changed.mem j').mpr (.inl rfl),
      Job.isActive_iff.mpr (.inl waits)⟩)

theorem Straight.claimed {j j' : Job} {jobs : Queue} (h : a.Straight .idle)
    (waits : j.status = .pending) (taken : j'.status = .processing)
    (version : j'.versionId = j.versionId) (changed : a.jobs.Changed j j' jobs) :
    Straight (.outside j') ⟨a.document, jobs⟩ := by
  have none_waits : ∀ x ∈ jobs, x.status ≠ .pending := by
    intro x member pending
    rcases (changed.mem x).mp member with rfl | ⟨old, other⟩
    · rw [taken] at pending
      cases pending
    · exact other (h.one x old j changed.there pending waits)
  refine ⟨?_, ?_, ?_, by rintro _ _ ⟨⟩, ?_⟩
  · exact fun j hj _ _ pending => absurd pending (none_waits j hj)
  · exact fun j hj pending => absurd pending (none_waits j hj)
  · rintro _ ⟨⟩
    exact ⟨none_waits, version ▸ h.waiting j changed.there waits⟩
  · exact fun _ _ _ => .inr (.inl ⟨j', (changed.mem j').mpr (.inl rfl),
      Job.isActive_iff.mpr (.inr taken)⟩)

/-- The job that is under way ends: what waits are jobs that waited before. -/
theorem Straight.ended {job j' : Job} {document : Option Document} {jobs : Queue}
    (h : a.Straight p) (held : job.status = .processing) (ended : j'.status ≠ .pending)
    (same : document.map (·.versionId) = a.document.map (·.versionId))
    (changed : a.jobs.Changed job j' jobs)
    (idle : p' = .idle ∨ p' = .failed)
    (ready : ∀ d, document = some d → d.indexStatus = .ready →
      d.indexedVersionId = some d.versionId ∨ (∃ j ∈ a.jobs, j.status = .pending) ∨
        p' = .failed) : Straight p' ⟨document, jobs⟩ := by
  have before : ∀ x ∈ jobs, x.status = .pending → x ∈ a.jobs := by
    intro x member pending
    rcases (changed.mem x).mp member with rfl | ⟨old, _⟩
    · exact absurd pending ended
    · exact old
  refine ⟨?_, ?_, ?_, ?_, ?_⟩
  · exact fun j hj k hk pending pending' =>
      h.one j (before j hj pending) k (before k hk pending') pending pending'
  · intro j member pending
    rw [same]
    exact h.waiting j (before j member pending) pending
  · rcases idle with rfl | rfl <;> rintro _ ⟨⟩
  · rcases idle with rfl | rfl <;> rintro _ _ ⟨⟩
  · intro d found isReady
    refine (ready d found isReady).imp_right (Or.imp_left ?_)
    rintro ⟨j, member, pending⟩
    refine ⟨j, (changed.mem j).mpr (.inr ⟨member, ?_⟩), Job.isActive_iff.mpr (.inl pending)⟩
    rintro rfl
    rw [held] at pending
    cases pending

theorem Straight.step (h : a.Straight p) (counted : a.Counted t.settings p)
    (small : t.settings.maxAttempts < Number.twoTo 32) (step : Step t p a p' b) :
    b.IsTried ∨ b.Straight p' := by
  cases step with
  | written quiet free submitted => exact .inr (h.written quiet submitted)
  | recovered now =>
    rcases recover_tried a.jobs t.settings now with same | tried
    · refine .inr ?_
      rw [same]
      exact h
    · exact .inl tried
  | claimed j j' waits taken version _ changed =>
    exact .inr (h.claimed waits taken version changed)
  | deferred j' waits version _ changed => exact .inr (h.deferred waits version changed)
  | retried j' _ _ attempts _ changed =>
    have next := counted.next small rfl changed
    exact .inl ⟨j', (changed.mem j').mpr (.inl rfl), by omega⟩
  | failed j' ended _ changed =>
    refine .inr (h.ended (counted.held _ rfl) (by simp [ended]) rfl changed (.inr rfl) ?_)
    exact fun _ _ _ => .inr (.inr rfl)
  | @switched _ jobs job d now e j' found ended _ changed =>
    refine .inr (h.ended (counted.held _ rfl) (by simp [ended]) ?_ changed (.inl rfl) ?_)
    · rw [found]
      rfl
    · rintro _ ⟨⟩ _
      rcases h.working job _ rfl with stored | waits
      · rw [found] at stored
        exact .inl stored.symm
      · exact .inr (.inl waits)
  | marked now reason =>
    refine .inr ⟨h.one, ?_, by rintro _ ⟨⟩, by rintro _ _ ⟨⟩, ?_⟩
    · intro j member pending
      rw [Option.map_map]
      exact h.waiting j member pending
    · intro d found ready
      obtain ⟨_, _, rfl⟩ := Option.map_eq_some_iff.mp found
      cases ready
  | entered =>
    refine .inr ⟨h.one, h.waiting, by rintro _ ⟨⟩, ?_, ?_⟩
    · rintro _ _ ⟨⟩
      exact .inl (h.outside _ rfl).2
    · exact fun d found ready => (h.ready d found ready).imp_right (Or.imp_right nofun)
  | read e found made version body =>
    refine .inr ⟨h.one, h.waiting, by rintro _ ⟨⟩, ?_, ?_⟩
    · rintro _ _ ⟨⟩
      exact h.working _ none rfl
    · exact fun d found ready => (h.ready d found ready).imp_right (Or.imp_right nofun)
  | stopped | left =>
    refine .inr ⟨h.one, h.waiting, by rintro _ ⟨⟩, by rintro _ _ ⟨⟩, ?_⟩
    exact fun d found ready => (h.ready d found ready).imp_right (Or.imp_right nofun)

/-- A course that begins with nothing of a document: as long as no failed execution was counted,
jobs come in the order in which their versions were asked for. -/
theorem Course.straight (course : Course t .idle ⟨none, []⟩ p a)
    (small : t.settings.maxAttempts < Number.twoTo 32) : a.IsTried ∨ a.Straight p := by
  have start : Counted t.settings .idle ⟨none, []⟩ ∧
      (IsTried ⟨none, []⟩ ∨ Straight .idle ⟨none, []⟩) := by
    refine ⟨⟨?_, ?_⟩, .inr ⟨?_, ?_, ?_, ?_, ?_⟩⟩ <;> simp [Phase.job?]
  refine (course.keeps (I := fun p a => a.Counted t.settings p ∧ (a.IsTried ∨ a.Straight p))
    ?_ start).2
  rintro p a p' b ⟨counted, h⟩ step
  refine ⟨counted.step step, ?_⟩
  rcases h with tried | straight
  · exact .inl (tried.step counted small step)
  · exact straight.step counted small step

end Docket

/-- After any history: the label of a document is the version of the revision that it points at.
And once no job of it waits or is under way, no failed execution of one was counted, and it is
ready, its label is its own version, and so is that of the revision. -/
theorem label_at_rest (s : Setup) (small : s.config.worker.maxAttempts < Number.twoTo 32)
    (now : Int) (env : Environment) (peer : Peer) (ops : List Operation)
    (paired : ∀ op ∈ ops, op.isPaired = true) (workspace id : String) :
    let w := (World.initial now env peer).performAll s ops
    let current := w.db.revisions.current? w.db.documents workspace id
    ∀ d, w.db.documents.document? workspace id = some d →
      current.map (·.versionId) = d.indexedVersionId ∧
      ((∀ j ∈ w.db.jobs, j.isOf workspace id = true → j.isActive = false ∧ j.attempts = 0) →
        d.indexStatus = .ready →
        d.indexedVersionId = some d.versionId ∧ current.map (·.versionId) = some d.versionId) := by
  intro w current d found
  have course : Docket.Course
      (w.terms s ((World.initial now env peer).Worked s ops) True True) .idle ⟨none, []⟩ .idle
      (w.docket workspace id) :=
    World.history_course s workspace id now env peer paired (.inl trivial) (.inl trivial)
  have named : current.map (·.versionId) = d.indexedVersionId := by
    have pointed : current = d.currentRevisionId.bind fun id => w.db.revisions.revision? id := by
      simp only [current, Revisions.current?, found, Option.bind_some]
    rcases course.shown.label d found with ⟨nowhere, unlabelled⟩ | ⟨e, made, points, label⟩
    · rw [pointed, nowhere, unlabelled]
      rfl
    · obtain ⟨⟨a, _, _, _, there, version, _⟩, _⟩ := made
      rw [pointed, points, label, Option.bind_some, there, Option.map_some, version]
  refine ⟨named, fun rest ready => ?_⟩
  have labelled : d.indexedVersionId = some d.versionId := by
    rcases course.straight small with ⟨j, member, tried⟩ | straight
    · obtain ⟨member, own⟩ := Queue.mem_ofDocument.mp member
      have untried := (rest j member own).2
      omega
    · rcases straight.ready d found ready with labelled | ⟨j, member, active⟩ | ended
      · exact labelled
      · obtain ⟨member, own⟩ := Queue.mem_ofDocument.mp member
        rw [(rest j member own).1] at active
        cases active
      · cases ended
  exact ⟨labelled, named.trans labelled⟩

namespace Sample

def ended (answer : Except EmbeddingError Embedding) : List Operation :=
  overwritten answer ++ [.poll, .interfere (.advance 10000), .poll]

/-- No job of the document waits, is under way or was tried again, and the document is ready. -/
def settled (w : World) : Bool :=
  w.db.jobs.all (fun j => !j.isActive && j.attempts == 0) &&
    (w.db.documents.document? "w" "d").any fun d => d.indexStatus = .ready && d.versionId = "v2"

theorem ended_settled :
    ((World.initial 1000 [] {}).replay setup 16 (fun _ _ => true) (ended answered)).any
      settled = true := by decide +kernel

/-- The first job was put back, and was the last to be completed. -/
def mislabelled (w : World) : Bool :=
  w.db.jobs.all (fun j => !j.isActive) &&
    (w.db.revisions.current? w.db.documents "w" "d").map (·.versionId) = some "v1" &&
    (w.db.documents.document? "w" "d").any fun d =>
      d.indexStatus = .ready && d.versionId = "v2" && d.indexedVersionId = some "v1"

theorem ended_mislabelled :
    ((World.initial 1000 [] {}).replay setup 16 (fun _ _ => true)
      (ended (.error (.transport "down")))).any mislabelled = true := by decide +kernel

end Sample

theorem label_at_rest_sample :
    let w := (World.initial 1000 [] {}).performAll Sample.setup (Sample.ended Sample.answered)
    ∃ d, w.db.documents.document? "w" "d" = some d ∧ d.indexStatus = .ready ∧
      d.indexedVersionId = some "v2" ∧
      (w.db.revisions.current? w.db.documents "w" "d").map (·.versionId) = some "v2" := by
  obtain ⟨w, replayed, settled⟩ := (Option.any_eq_true _ _).mp Sample.ended_settled
  simp only [Sample.settled, Bool.and_eq_true, List.all_eq_true, Bool.not_eq_true', beq_iff_eq]
    at settled
  obtain ⟨rest, ready⟩ := settled
  obtain ⟨d, found, ready⟩ := (Option.any_eq_true _ _).mp ready
  simp only [Bool.and_eq_true, decide_eq_true_eq] at ready
  have labelled := label_at_rest Sample.setup (by decide) 1000 [] {}
    (Sample.ended Sample.answered) (by decide) "w" "d" d
  rw [(World.performAll_of_replay replayed).1] at labelled ⊢
  obtain ⟨label, current⟩ := (labelled found).2 (fun j member _ => rest j member) ready.1
  rw [ready.2] at label current
  exact ⟨d, found, ready.1, label, current⟩

/-- That no job waits or is under way and a document is ready is no sign that its label is its
version: an older job may have been put back, and be the last to be completed. -/
theorem label_stale :
    let w := (World.initial 1000 [] {}).performAll Sample.setup
      (Sample.ended (.error (.transport "down")))
    (∀ j ∈ w.db.jobs, j.isActive = false) ∧
    ∃ d, w.db.documents.document? "w" "d" = some d ∧ d.indexStatus = .ready ∧
      d.versionId = "v2" ∧ d.indexedVersionId = some "v1" ∧
      (w.db.revisions.current? w.db.documents "w" "d").map (·.versionId) = some "v1" := by
  obtain ⟨w, replayed, stale⟩ := (Option.any_eq_true _ _).mp Sample.ended_mislabelled
  rw [(World.performAll_of_replay replayed).1]
  simp only [Sample.mislabelled, Bool.and_eq_true, List.all_eq_true, Bool.not_eq_true',
    decide_eq_true_eq] at stale
  obtain ⟨⟨rest, current⟩, stale⟩ := stale
  obtain ⟨d, found, stale⟩ := (Option.any_eq_true _ _).mp stale
  simp only [Bool.and_eq_true, decide_eq_true_eq] at stale
  exact ⟨rest, d, found, stale.1.1, stale.1.2, stale.2, current⟩

end IndexingPipeline
