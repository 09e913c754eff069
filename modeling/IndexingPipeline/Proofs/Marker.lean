import IndexingPipeline.Proofs.History

/-!
# The marker of a document

A document that is written says that its index has to follow, and says so until a run has switched
a revision in. As long as it is left alone while a job of it is under way, at most one job of it
waits or is under way at a time, and while one does the document is not ready: there is nothing
left to do once a run has ended. A document that is written while it is embedded comes to be ready
although a job waits for the version that was written: the run that switches its revision in does
not look at what the document says by then.
-/

namespace IndexingPipeline

namespace Docket

variable {t : Terms} {p p' : Phase} {a b : Docket}

/-- At most one job of a document waits or is under way, and while one does the document is not
ready. -/
structure Unmasked (p : Phase) (a : Docket) : Prop where
  one : ∀ j ∈ a.jobs, ∀ k ∈ a.jobs, j.isActive = true → k.isActive = true → j = k
  unready : ∀ j ∈ a.jobs, j.isActive = true → ∀ d, a.document = some d → d.indexStatus ≠ .ready
  held : ∀ job, p.job? = some job → job.isActive = true

namespace Unmasked

theorem written (h : a.Unmasked p) (calm : a.jobs.IsCalm) (submitted : a.Submitted b) :
    b.Unmasked p := by
  have still := submitted.calm calm
  obtain ⟨version, body, d, found, written, asked⟩ := submitted
  have waits : ∀ j ∈ b.jobs, j.isActive = true → j.status = .pending := by
    intro j member active
    exact (Job.isActive_iff.mp active).resolve_right (still j member)
  refine ⟨?_, ?_, h.held⟩
  · intro j hj k hk active active'
    refine asked.one ?_ j hj k hk (waits j hj active) (waits k hk active')
    intro j hj k hk pending pending'
    exact h.one j hj k hk (Job.isActive_iff.mpr (.inl pending))
      (Job.isActive_iff.mpr (.inl pending'))
  · intro _ _ _ d' found'
    obtain rfl := Option.some.inj (found.symm.trans found')
    simp [written.status]

/-- The only job that waits or is under way has become another, which then is the only one. -/
theorem changed (h : a.Unmasked p) {job j' : Job} {jobs : Queue} (active : job.isActive = true)
    (changed : a.jobs.Changed job j' jobs) : ∀ x ∈ jobs, x.isActive = true → x = j' := by
  intro x member still
  rcases (changed.mem x).mp member with same | ⟨old, other⟩
  · exact same
  · exact absurd (h.one x old job changed.there still active) other

/-- A job has become another, and the document is as it was. -/
theorem reported (h : a.Unmasked p) {job j' : Job} {jobs : Queue} (active : job.isActive = true)
    (changed : a.jobs.Changed job j' jobs)
    (held : ∀ job, p'.job? = some job → job.isActive = true) :
    Unmasked p' ⟨a.document, jobs⟩ where
  one := by
    intro j hj k hk active' active''
    rw [h.changed active changed j hj active', h.changed active changed k hk active'']
  unready := fun _ _ _ => h.unready job changed.there active
  held := held

theorem recovered (h : a.Unmasked .idle) (settings : WorkerSettings) (now : Int) :
    Unmasked .idle ⟨a.document, (a.jobs.recover settings now).2⟩ := by
  -- a job that waits after it was recovered was under way
  have before : ∀ j : Job, (Queue.tended settings now j).isActive = true → j.isActive = true := by
    intro j active
    exact Job.isActive_iff.mpr (Queue.open_of_tended (Job.isActive_iff.mp active)).1
  refine ⟨?_, ?_, h.held⟩
  · intro j hj k hk active active'
    obtain ⟨x, hx, rfl⟩ := List.mem_map.mp hj
    obtain ⟨y, hy, rfl⟩ := List.mem_map.mp hk
    rw [h.one x hx y hy (before x active) (before y active')]
  · intro j hj active
    obtain ⟨x, hx, rfl⟩ := List.mem_map.mp hj
    exact h.unready x hx (before x active)

theorem step (h : a.Unmasked p) (undisturbed : ¬ t.disturbed) (step : Step t p a p' b) :
    b.Unmasked p' := by
  cases step with
  | written quiet free submitted => exact h.written (free.resolve_left undisturbed) submitted
  | recovered now => exact h.recovered t.settings now
  | claimed j j' waits taken _ _ changed =>
    refine h.reported (Job.isActive_iff.mpr (.inl waits)) changed ?_
    rintro _ ⟨⟩
    exact Job.isActive_iff.mpr (.inr taken)
  | deferred j' _ _ _ changed | retried j' _ _ _ _ changed | failed j' _ _ changed =>
    exact h.reported (h.held _ rfl) changed (by rintro _ ⟨⟩)
  | @switched _ jobs _ _ now e j' found ended _ changed =>
    have none_left : ∀ x ∈ jobs, x.isActive = true → False := by
      intro x member active
      rw [h.changed (h.held _ rfl) changed x member active] at active
      simp [Job.isActive, ended] at active
    exact ⟨fun j hj _ _ active => (none_left j hj active).elim,
      fun j hj active => (none_left j hj active).elim, by rintro _ ⟨⟩⟩
  | marked now reason =>
    refine ⟨h.one, ?_, by rintro _ ⟨⟩⟩
    intro _ _ _ d found
    obtain ⟨_, _, rfl⟩ := Option.map_eq_some_iff.mp found
    simp
  | entered | read | stopped => exact ⟨h.one, h.unready, h.held⟩
  | left => exact ⟨h.one, h.unready, by rintro _ ⟨⟩⟩

end Unmasked

end Docket

/-- After any history in which a document is left alone while a job of it is under way: at most
one job of it waits or is under way, and as long as one does the document is not ready. -/
theorem marker_unmasked (s : Setup) (now : Int) (env : Environment) (peer : Peer)
    (ops : List Operation) (paired : ∀ op ∈ ops, op.isPaired = true) (workspace id : String)
    (alone : (World.initial now env peer).Throughout s (World.LeavesAlone s workspace id) ops) :
    let w := (World.initial now env peer).performAll s ops
    ∀ j ∈ w.db.jobs, j.isOf workspace id = true → j.isActive = true →
      (∀ k ∈ w.db.jobs, k.isOf workspace id = true → k.isActive = true → k = j) ∧
      ∀ d, w.db.documents.document? workspace id = some d → d.indexStatus ≠ .ready := by
  intro w j member own active
  have course : Docket.Course
      (w.terms s ((World.initial now env peer).Worked s ops) False True) .idle ⟨none, []⟩ .idle
      (w.docket workspace id) :=
    World.history_course s workspace id now env peer paired (.inr alone) (.inl trivial)
  have unmasked : (w.docket workspace id).Unmasked .idle := by
    refine course.keeps (I := fun p a => a.Unmasked p) (fun h step => h.step not_false step)
      ⟨?_, ?_, ?_⟩
    all_goals simp [Phase.job?]
  have listed : ∀ k ∈ w.db.jobs, k.isOf workspace id = true →
      k ∈ (w.docket workspace id).jobs := fun k there own => Queue.mem_ofDocument.mpr ⟨there, own⟩
  exact ⟨fun k there own' active' =>
      unmasked.one k (listed k there own') j (listed j member own) active' active,
    unmasked.unready j (listed j member own) active⟩

namespace Sample

def updated : List Operation :=
  [.outside { World.initial 1000 [] {} with usualTurn := turn },
    .interfere (.submit "w" "b" "d" "v1" "hello world"), .poll,
    .interfere (.submit "w" "b" "d" "v2" "hello again")]

/-- A job waits for the version that the document has. -/
def waits (w : World) : Bool :=
  w.db.jobs.any fun j => j.isOf "w" "d" && j.status = .pending && j.versionId = "v2" &&
    (w.db.documents.document? "w" "d").any fun d => d.versionId = "v2"

theorem updated_waits :
    ((World.initial 1000 [] {}).replay setup 16
      (fun w op => w.LeavesAlone setup "w" "d" op) updated).any waits = true := by decide +kernel

def masked (w : World) : Bool :=
  waits w && (w.db.documents.document? "w" "d").any fun d => d.indexStatus = .ready

theorem overwritten_masked :
    ((World.initial 1000 [] {}).replay setup 16 (fun _ _ => true) (overwritten answered)).any
      masked = true := by decide +kernel

end Sample

theorem marker_unmasked_sample :
    let w := (World.initial 1000 [] {}).performAll Sample.setup Sample.updated
    ∃ j ∈ w.db.jobs, j.isOf "w" "d" = true ∧ j.status = .pending ∧
      ∃ d, w.db.documents.document? "w" "d" = some d ∧ d.versionId = j.versionId ∧
        d.indexStatus ≠ .ready := by
  obtain ⟨w, replayed, waits⟩ := (Option.any_eq_true _ _).mp Sample.updated_waits
  obtain ⟨world, alone⟩ := World.performAll_of_replay replayed
  obtain ⟨j, member, waits⟩ := List.any_eq_true.mp waits
  simp only [Bool.and_eq_true, decide_eq_true_eq] at waits
  obtain ⟨⟨⟨own, pending⟩, version⟩, stored⟩ := waits
  obtain ⟨d, found, stored⟩ := (Option.any_eq_true _ _).mp stored
  have unmasked := marker_unmasked Sample.setup 1000 [] {} Sample.updated (by decide) "w" "d"
    (alone.mono fun _ _ h => of_decide_eq_true h.1) j
  rw [world] at unmasked ⊢
  exact ⟨j, member, own, pending, d, found, (of_decide_eq_true stored).trans version.symm,
    (unmasked member own (Job.isActive_iff.mpr (.inl pending))).2 d found⟩

/-- A document that is written while it is embedded comes to be ready although a job waits for its
version. -/
theorem marker_masks :
    let w := (World.initial 1000 [] {}).performAll Sample.setup (Sample.overwritten Sample.answered)
    ∃ j ∈ w.db.jobs, j.isOf "w" "d" = true ∧ j.status = .pending ∧
      ∃ d, w.db.documents.document? "w" "d" = some d ∧ d.versionId = j.versionId ∧
        d.indexStatus = .ready := by
  obtain ⟨w, replayed, masked⟩ := (Option.any_eq_true _ _).mp Sample.overwritten_masked
  rw [(World.performAll_of_replay replayed).1]
  simp only [Sample.masked, Bool.and_eq_true] at masked
  obtain ⟨j, member, waits⟩ := List.any_eq_true.mp masked.1
  simp only [Bool.and_eq_true, decide_eq_true_eq] at waits
  obtain ⟨⟨⟨own, pending⟩, version⟩, stored⟩ := waits
  obtain ⟨d, found, stored⟩ := (Option.any_eq_true _ _).mp stored
  obtain ⟨d', found', ready⟩ := (Option.any_eq_true _ _).mp masked.2
  obtain rfl := Option.some.inj (found.symm.trans found')
  exact ⟨j, member, own, pending, d, found, (of_decide_eq_true stored).trans version.symm,
    of_decide_eq_true ready⟩

end IndexingPipeline
