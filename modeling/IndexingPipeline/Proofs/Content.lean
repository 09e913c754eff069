import IndexingPipeline.Proofs.History
import IndexingPipeline.Proofs.Incidents

/-!
# The content of an index

A run reads the body of its document once, when it splits it, and the document may be written
before the run is over. Then another job waits, however the run ends: so when none waits or is
under way and the document is ready, the run that made it ready has read the body that is there
now, and the chunk set that the document points at is that body split, under the policy that this
run worked under. The ledger of the revisions says that no run has worked at the current revision
under any other. This needs every poll to come back: a job whose run was stopped may be failed by
the next worker, and nothing then tells the document.
-/

namespace IndexingPipeline

namespace Docket

variable {t : Terms} {p p' : Phase} {a b : Docket}

/-- A document points at a known edition that was made of the body it has. -/
def IsFresh (made : Edition → Prop) (d : Document) : Prop :=
  ∃ e, made e ∧ d.currentRevisionId = some e.revisionId ∧
    d.currentChunkSetId = some e.chunkSetId ∧ e.body = d.body

/-- Only the job of the run is under way. What the run has read is what the document says, unless
a job waits. A document that is ready has a fresh index, unless a job waits or is under way, or
the document is about to be told that its job is failed. -/
structure Followed (made : Edition → Prop) (p : Phase) (a : Docket) : Prop where
  busy : ∀ j ∈ a.jobs, j.status = .processing → p.job? = some j
  held : ∀ job, p.job? = some job → job.status = .processing
  read : ∀ job e, p = .working job (some e) → made e ∧
    (a.document.map (·.body) = some e.body ∨ ∃ j ∈ a.jobs, j.status = .pending)
  ready : ∀ d, a.document = some d → d.indexStatus = .ready →
    IsFresh made d ∨ (∃ j ∈ a.jobs, j.isActive = true) ∨ p = .failed

namespace Followed

variable {made : Edition → Prop}

theorem written (h : a.Followed made p) (submitted : a.Submitted b) : b.Followed made p := by
  obtain ⟨version, body, d, found, written, asked⟩ := submitted
  obtain ⟨x, member, waits, _⟩ := asked.waits
  refine ⟨?_, h.held, fun job e working => ⟨(h.read job e working).1, .inr ⟨x, member, waits⟩⟩,
    ?_⟩
  · intro j member processing
    cases asked with
    | pointed k k' _ waits _ _ changed =>
      rcases (changed.mem j).mp member with rfl | ⟨old, _⟩
      · rw [waits] at processing
        cases processing
      · exact h.busy j old processing
    | added k' _ waits _ _ mem =>
      rcases (mem j).mp member with rfl | old
      · rw [waits] at processing
        cases processing
      · exact h.busy j old processing
  · intro d' found' ready
    obtain rfl := Option.some.inj (found.symm.trans found')
    rw [written.status] at ready
    cases ready

theorem none_busy {job j' : Job} {jobs : Queue} (h : a.Followed made p)
    (mine : p.job? = some job) (ended : j'.status ≠ .processing)
    (changed : a.jobs.Changed job j' jobs) (q : Phase) :
    ∀ j ∈ jobs, j.status = .processing → q.job? = some j := by
  intro j member processing
  rcases (changed.mem j).mp member with rfl | ⟨old, other⟩
  · exact absurd processing ended
  · exact absurd (Option.some.inj ((h.busy j old processing).symm.trans mine)) other

theorem put_back {job j' : Job} {jobs : Queue} (h : a.Followed made p)
    (mine : p.job? = some job) (waits : j'.status = .pending)
    (changed : a.jobs.Changed job j' jobs) : Followed made .idle ⟨a.document, jobs⟩ where
  busy := h.none_busy mine (by simp [waits]) changed .idle
  held := by rintro _ ⟨⟩
  read := by rintro _ _ ⟨⟩
  ready := fun _ _ _ => .inr (.inl ⟨j', (changed.mem j').mpr (.inl rfl),
    Job.isActive_iff.mpr (.inl waits)⟩)

theorem switched {job j' : Job} {jobs : Queue} {e : Edition} {d : Document} (now : Int)
    (h : a.Followed made (.working job (some e))) (found : a.document = some d)
    (ended : j'.status = .completed) (changed : a.jobs.Changed job j' jobs) :
    Followed made .idle
      ⟨some { d with
        currentRevisionId := some e.revisionId, currentChunkSetId := some e.chunkSetId
        indexedVersionId := some job.versionId, indexStatus := .ready, indexError := none
        updatedAt := now }, jobs⟩ := by
  refine ⟨h.none_busy rfl (by simp [ended]) changed .idle, by rintro _ ⟨⟩, by rintro _ _ ⟨⟩, ?_⟩
  rintro _ ⟨⟩ _
  obtain ⟨known, unwritten | ⟨j, member, waits⟩⟩ := h.read job e rfl
  · rw [found] at unwritten
    exact .inl ⟨e, known, rfl, rfl, (Option.some.inj unwritten).symm⟩
  · refine .inr (.inl ⟨j, (changed.mem j).mpr (.inr ⟨member, ?_⟩),
      Job.isActive_iff.mpr (.inl waits)⟩)
    rintro rfl
    rw [h.held j rfl] at waits
    cases waits

theorem step (h : a.Followed t.made p) (returns : ¬ t.stops) (step : Step t p a p' b) :
    b.Followed t.made p' := by
  -- a phase in which the document is not about to be told anything
  have still : p ≠ .failed → ∀ (q : Phase) (d : Document), a.document = some d →
      d.indexStatus = .ready → IsFresh t.made d ∨ (∃ j ∈ a.jobs, j.isActive = true) ∨ q = .failed :=
    fun elsewhere q d found ready =>
      (h.ready d found ready).imp_right (Or.imp_right fun failed => absurd failed elsewhere)
  cases step with
  | written quiet free submitted => exact h.written submitted
  | recovered now =>
    rw [Queue.recover_none]
    · exact h
    · intro j member stale
      cases h.busy j member (Queue.processing_of_isStale stale)
  | claimed j j' waits taken _ _ changed =>
    refine ⟨?_, ?_, by rintro _ _ ⟨⟩, ?_⟩
    · intro x member processing
      rcases (changed.mem x).mp member with rfl | ⟨old, _⟩
      · rfl
      · cases h.busy x old processing
    · rintro _ ⟨⟩
      exact taken
    · exact fun _ _ _ => .inr (.inl ⟨j', (changed.mem j').mpr (.inl rfl),
        Job.isActive_iff.mpr (.inr taken)⟩)
  | entered => exact ⟨h.busy, h.held, by rintro _ _ ⟨⟩, still (by simp) _⟩
  | read e found known _ body =>
    refine ⟨h.busy, h.held, ?_, still (by simp) _⟩
    rintro _ _ ⟨⟩
    rw [found, body]
    exact ⟨known, .inl rfl⟩
  | deferred j' waits _ _ changed => exact h.put_back rfl waits changed
  | retried j' waits _ _ _ changed => exact h.put_back rfl waits changed
  | failed j' ended _ changed =>
    exact ⟨h.none_busy rfl (by simp [ended]) changed .failed, by rintro _ ⟨⟩,
      by rintro _ _ ⟨⟩, fun _ _ _ => .inr (.inr rfl)⟩
  | marked now reason =>
    refine ⟨h.busy, by rintro _ ⟨⟩, by rintro _ _ ⟨⟩, ?_⟩
    intro d found ready
    obtain ⟨_, _, rfl⟩ := Option.map_eq_some_iff.mp found
    cases ready
  | switched now e j' found ended _ changed => exact h.switched now found ended changed
  | stopped => exact ⟨h.busy, h.held, by rintro _ _ ⟨⟩, still (by simp) _⟩
  | left stops => exact absurd stops returns

end Followed

end Docket

namespace World

variable {s : Setup} {w : World} {worked : String → Policy → Prop}
  {opened : List (String × Policy)}

/-- Only a poll touches the revisions. -/
theorem perform_revisions {op : Operation} (other : op ≠ .poll) :
    (w.perform s op).db.revisions = w.db.revisions := by
  cases op with
  | poll => exact absurd rfl other
  | interfere i => exact (w.interfere_meanwhile s.config i).revisions
  | sweep =>
    exact congrArg Database.revisions (w.sweepAll_kept (s := s) ⟨0, 0, 0⟩ w.db.documents.indexed).1
  | _ => rfl

theorem poll_ledger (h : Ledger w.db.revisions worked opened) (sound : w.Sound) :
    ∃ opened', Ledger (w.poll s).2.db.revisions (fun x p => worked x p ∨ w.Works s x p)
      opened' := by
  have around := (w.housekeeping_around s.config).trans (claim_around _)
  have h : Ledger (w.housekeeping s.config).claim.2.db.revisions worked opened :=
    h.kept (Revisions.stamps_map (.failed _ _ _) _) fun _ _ => Iff.rfl
  rcases w.poll_cases s with ⟨nothing, idle⟩ | ⟨job, claimed, world, _⟩
  · rw [idle]
    refine ⟨opened, h.kept rfl fun x p => or_iff_left_of_imp ?_⟩
    rintro ⟨job, _, claimed, _⟩
    rw [nothing] at claimed
    cases claimed
  · obtain ⟨n, ended⟩ := Run.steps_isOver s (.start job) (w.housekeeping s.config).claim.2
    obtain ⟨opened', after⟩ := h.steps (around.sound sound) s job n
    rw [world, Run.complete_eq_steps n ended]
    refine ⟨opened', after.kept rfl fun x p => or_congr_right ⟨?_, ?_⟩⟩
    · rintro ⟨job', k, claimed', works⟩
      obtain rfl := Option.some.inj (claimed.symm.trans claimed')
      rcases Nat.le_total k n with within | later
      · exact ⟨k, within, works⟩
      · exact ⟨n, Nat.le_refl n, Run.steps_of_over ended later ▸ works⟩
    · rintro ⟨k, _, works⟩
      exact ⟨job, k, claimed, works⟩

theorem perform_ledger (h : Ledger w.db.revisions worked opened) (sound : w.Sound)
    (op : Operation) :
    ∃ opened', Ledger (w.perform s op).db.revisions
      (fun x p => worked x p ∨ op = .poll ∧ w.Works s x p) opened' := by
  by_cases poll : op = .poll
  · obtain ⟨opened', after⟩ := poll_ledger (s := s) h sound
    subst poll
    exact ⟨opened', after.kept rfl fun x p => or_congr_right (and_iff_right rfl)⟩
  · exact ⟨opened, h.kept (congrArg Revisions.stamps (perform_revisions poll)) fun x p =>
      or_iff_left_of_imp fun works => absurd works.1 poll⟩

/-- The revisions have a ledger of what the polls of a history have worked at. -/
theorem performAll_ledger (h : Ledger w.db.revisions worked opened) (sound : w.Sound)
    (ops : List Operation) :
    ∃ opened', Ledger (w.performAll s ops).db.revisions
      (fun x p => worked x p ∨ w.Worked s ops x p) opened' := by
  induction ops generalizing w worked opened with
  | nil =>
    refine ⟨opened, h.kept rfl fun x p => or_iff_left_of_imp ?_⟩
    rintro ⟨earlier, early, _⟩
    simp at early
  | cons op rest ih =>
    obtain ⟨_, first⟩ := perform_ledger (s := s) h sound op
    obtain ⟨opened', others⟩ := ih first (sound.incur s (.op op))
    exact ⟨opened', others.kept rfl fun x p => by rw [worked_cons, or_assoc]⟩

/-- Under one policy only the polls of a history have worked at a revision. -/
theorem worked_unique (now : Int) (env : Environment) (peer : Peer) (ops : List Operation)
    {x : String} {p q : Policy} (hp : (World.initial now env peer).Worked s ops x p)
    (hq : (World.initial now env peer).Worked s ops x q) : p = q := by
  obtain ⟨_, h⟩ := performAll_ledger (s := s)
    (w := World.initial now env peer) (.empty fun _ _ => id) (initial_sound now env peer) ops
  exact h.unique (.inr hp) (.inr hq)

end World

/-- After any history of which every poll came back: once no job of a document waits or is under
way and the document is ready, it points at a revision that runs of the history have worked at
under one policy, whose digest it carries, and the texts and places of the chunks of the document's
chunk set are those of the spans into which that policy splits the body that it has. -/
theorem content_at_rest (s : Setup) (now : Int) (env : Environment) (peer : Peer)
    (ops : List Operation) (paired : ∀ op ∈ ops, op.isPaired = true)
    (returns : (World.initial now env peer).Throughout s (World.Returns s) ops)
    (workspace id : String) :
    let start := World.initial now env peer
    let w := start.performAll s ops
    ∀ d, w.db.documents.document? workspace id = some d →
      (∀ j ∈ w.db.jobs, j.isOf workspace id = true → j.isActive = false) →
      d.indexStatus = .ready →
      ∃ a stored policy base settings,
        w.db.revisions.current? w.db.documents workspace id = some a ∧
        (∀ p, start.Worked s ops a.id p ↔ p = policy) ∧
        Policy.effective s.config base settings = .ok policy ∧ a.policyDigest = policy.digest ∧
        d.currentChunkSetId = some stored.set.id ∧
        w.db.chunkSet? stored.set.id = some stored ∧
        stored.set.chunks.map (·.passage) = (split d.body policy.window).map (·.passage) := by
  intro start w d found rest ready
  have course : Docket.Course (w.terms s (start.Worked s ops) True False) .idle ⟨none, []⟩ .idle
      (w.docket workspace id) :=
    World.history_course s workspace id now env peer paired (.inl trivial) (.inr returns)
  let known (e : Edition) : Prop := w.Made s e ∧ start.Worked s ops e.revisionId e.policy
  have followed : (w.docket workspace id).Followed known .idle := by
    refine course.keeps (I := fun p a => a.Followed known p)
      (fun h step => h.step not_false step) ⟨?_, ?_, ?_, ?_⟩
    all_goals simp [Phase.job?]
  have fresh : Docket.IsFresh known d := by
    rcases followed.ready d found ready with fresh | ⟨j, member, active⟩ | failed
    · exact fresh
    · obtain ⟨member, own⟩ := Queue.mem_ofDocument.mp member
      rw [rest j member own] at active
      cases active
    · cases failed
  obtain ⟨e, ⟨made, worked⟩, points, chunks, body⟩ := fresh
  obtain ⟨a, stored, base, settings, there, _, digest, effective, set, passages⟩ := made
  have named : stored.set.id = e.chunkSetId := by simpa using List.find?_some set
  have same : a.id = e.revisionId := by simpa using List.find?_some there
  refine ⟨a, stored, e.policy, base, settings, ?_, fun p => ⟨?_, ?_⟩, effective, digest,
    named ▸ chunks, named ▸ set, body ▸ passages⟩
  · rw [Revisions.current?, found, Option.bind_some, points, Option.bind_some, there]
  · exact fun other => World.worked_unique now env peer ops other (same ▸ worked)
  · rintro rfl
    exact same ▸ worked

namespace Sample

def followed : List Operation := overwritten answered ++ [.poll]

/-- No job of the document waits or is under way, and the document is ready. -/
def atRest (w : World) : Bool :=
  w.db.jobs.all (fun j => !j.isActive) &&
    (w.db.documents.document? "w" "d").any fun d =>
      d.indexStatus = .ready && d.body = "hello again"

theorem followed_atRest :
    ((World.initial 1000 [] {}).replay setup 16 (fun _ _ => true) followed).any atRest =
      true := by decide +kernel

end Sample

theorem content_at_rest_sample :
    let start := World.initial 1000 [] {}
    let w := start.performAll Sample.setup Sample.followed
    ∃ d a stored policy base settings, w.db.documents.document? "w" "d" = some d ∧
      d.body = "hello again" ∧ w.db.revisions.current? w.db.documents "w" "d" = some a ∧
      (∀ p, start.Worked Sample.setup Sample.followed a.id p ↔ p = policy) ∧
      Policy.effective Sample.setup.config base settings = .ok policy ∧
      a.policyDigest = policy.digest ∧ d.currentChunkSetId = some stored.set.id ∧
      w.db.chunkSet? stored.set.id = some stored ∧
      stored.set.chunks.map (·.passage) = (split d.body policy.window).map (·.passage) := by
  obtain ⟨w, replayed, resting⟩ := (Option.any_eq_true _ _).mp Sample.followed_atRest
  obtain ⟨world, returns⟩ := World.performAll_of_replay replayed
  simp only [Sample.atRest, Bool.and_eq_true, List.all_eq_true, Bool.not_eq_true'] at resting
  obtain ⟨rest, ready⟩ := resting
  obtain ⟨d, found, ready⟩ := (Option.any_eq_true _ _).mp ready
  simp only [Bool.and_eq_true, decide_eq_true_eq] at ready
  have content := content_at_rest Sample.setup 1000 [] {} Sample.followed (by decide)
    (returns.mono fun _ _ h => h.2) "w" "d" d
  dsimp only
  rw [world] at content ⊢
  obtain ⟨a, stored, policy, base, settings, facts⟩ :=
    content found (fun j member _ => rest j member) ready.1
  exact ⟨d, a, stored, policy, base, settings, found, ready.2, facts⟩

end IndexingPipeline
