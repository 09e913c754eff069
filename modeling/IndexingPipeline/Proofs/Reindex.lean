import IndexingPipeline.Command
import IndexingPipeline.Proofs.History

/-!
# Reindexing a base

An action that is started with `reindex` asks for every document of its base. A document for which
no job waits gets a new one, and that is one of the action's jobs. Where a job waits already it is
pointed at the stored version instead, and that one is the action's only when it was added for the
same base, and not before the action. No job is ever dropped, and none changes its base or the
moment at which it was added. So whatever is done afterwards, the action counts at least as many
jobs as there are documents that it reaches, and ends when it counts any and all of them have
ended. An action whose documents all had older jobs counts none, and is under way until it has
been so for too long.
-/

namespace IndexingPipeline

namespace Queue

variable {q q' : Queue} {scope : JobScope}

def Keeps (q q' : Queue) : Prop := ∀ j ∈ q, ∃ k ∈ q', j.SameRequest k

theorem Keeps.refl (q : Queue) : q.Keeps q := fun j member => ⟨j, member, .refl j⟩

theorem Keeps.trans {a b c : Queue} (ab : a.Keeps b) (bc : b.Keeps c) : a.Keeps c := by
  intro i member
  obtain ⟨j, member, first⟩ := ab i member
  obtain ⟨k, member, second⟩ := bc j member
  exact ⟨k, member, first.trans second⟩

theorem keeps_map {f : Job → Job} (same : ∀ j : Job, j.SameRequest (f j)) :
    q.Keeps (q.map f) := fun j member => ⟨f j, List.mem_map_of_mem member, same j⟩

theorem keeps_update (id : String) {f : Job → Job} (same : ∀ j : Job, j.SameRequest (f j)) :
    q.Keeps (q.update id f) := keeps_map fun j => .choose same _ j

theorem keeps_enqueue (q : Queue) (now : Int) (newId workspace base document version : String) :
    q.Keeps (q.enqueue now newId workspace base document version).2 := by
  rcases q.enqueue_cases now newId workspace base document version with
    ⟨j, _, pointed⟩ | ⟨_, added⟩
  · rw [pointed]
    exact keeps_update j.id (.pointedAt version now)
  · rw [added]
    exact fun j member => ⟨j, List.mem_append_left _ member, .refl j⟩

theorem keeps_claim (q : Queue) (now : Int) : q.Keeps (q.claim now).2 := by
  rcases q.claim_cases now with nothing | ⟨j, _, _, _, taken⟩
  · rw [nothing]
    exact .refl q
  · rw [taken]
    exact keeps_update j.id (.taken now)

theorem keeps_recover (q : Queue) (settings : WorkerSettings) (now : Int) :
    q.Keeps (q.recover settings now).2 := keeps_map fun j => .choose (.recovered settings now) _ j

/-- The job that waits for a document is looked for among the jobs of the document. -/
theorem waiting?_of_same {workspace id : String}
    (same : q'.ofDocument workspace id = q.ofDocument workspace id) :
    q'.waiting? workspace id = q.waiting? workspace id := by
  have own : ∀ q : Queue, q.waiting? workspace id =
      newest? ((q.ofDocument workspace id).filter (·.status = .pending)) := by
    intro q
    rw [waiting?, ofDocument, List.filter_filter]
    congr 2
    funext j
    exact Bool.and_comm _ _
  rw [own, own, same]

/-- The job that comes of asking for a version is in the queue and waits for that version. It is
one of the base's jobs from now on when none waited before, or when the one that did was. -/
theorem enqueue_spec (q : Queue) (now : Int) (newId workspace base id version : String) :
    ∃ j ∈ (q.enqueue now newId workspace base id version).2.ofDocument workspace id,
      j.status = .pending ∧ j.versionId = version ∧
      JobScope.includes ⟨some workspace, some base, some now⟩ j =
        (q.waiting? workspace id).all
          (JobScope.includes ⟨some workspace, some base, some now⟩) := by
  rcases q.enqueue_cases now newId workspace base id version with
    ⟨j, waits, pointed⟩ | ⟨free, added⟩
  · obtain ⟨member, here, there, pending⟩ := waiting?_spec waits
    rw [pointed, waits]
    refine ⟨j.pointedAt version now, ?_, pending, rfl, rfl⟩
    refine mem_ofDocument.mpr ⟨?_, Job.isOf_iff.mpr ⟨here, there⟩⟩
    exact List.mem_map.mpr ⟨j, member, if_pos rfl⟩
  · rw [added, free]
    refine ⟨_, mem_ofDocument.mpr ⟨List.mem_append_right _ (List.mem_singleton_self _),
      Job.isOf_iff.mpr ⟨rfl, rfl⟩⟩, rfl, rfl, ?_⟩
    simp [JobScope.includes, Job.asked]

theorem counts_sum (q : Queue) (scope : JobScope) :
    (q.counts scope).pending + (q.counts scope).processing + (q.counts scope).completed +
      (q.counts scope).failed = q.countP scope.includes := by
  simp only [counts, countOf]
  induction q with
  | nil => rfl
  | cons j rest ih =>
    simp only [List.countP_cons]
    cases scope.includes j <;> cases j.status <;> simp <;> omega

theorem counts_total (few : q.length < Number.twoTo 64) :
    (q.counts scope).total = q.countP scope.includes := by
  rw [JobCounts.total, counts_sum]
  exact Nat.mod_eq_of_lt (Nat.lt_of_le_of_lt List.countP_le_length few)

/-- When every one of some documents has a job among those chosen, there are as many of these. -/
theorem length_le_total {ds : List Document} (few : q.length < Number.twoTo 64)
    (once : (ds.map (·.id)).Nodup)
    (reached : ∀ d ∈ ds, ∃ j ∈ q, j.documentId = d.id ∧ scope.includes j = true) :
    ds.length ≤ (q.counts scope).total := by
  have among : ds.map (·.id) ⊆ (q.filter scope.includes).map (·.documentId) := by
    intro id member
    obtain ⟨d, listed, rfl⟩ := List.mem_map.mp member
    obtain ⟨j, there, own, chosen⟩ := reached d listed
    exact List.mem_map.mpr ⟨j, List.mem_filter.mpr ⟨there, chosen⟩, own⟩
  rw [counts_total few, List.countP_eq_length_filter]
  simpa using once.length_le_of_subset among

theorem counts_active (ended : ∀ j ∈ q, scope.includes j = true → j.isActive = false) :
    (q.counts scope).active = 0 := by
  have none_of : ∀ status : JobStatus, status = .pending ∨ status = .processing →
      q.countOf scope status = 0 := by
    intro status active
    refine List.countP_eq_zero.mpr ?_
    intro j member chosen
    simp only [Bool.and_eq_true, decide_eq_true_eq] at chosen
    have still : j.isActive = true := Job.isActive_iff.mpr (chosen.2 ▸ active)
    rw [ended j member chosen.1] at still
    cases still
  rw [JobCounts.active, counts, none_of .pending (.inl rfl), none_of .processing (.inr rfl)]
  rfl

end Queue

namespace Documents

def Once (ds : Documents) : Prop := (ds.map fun d => (d.workspaceId, d.id)).Nodup

theorem Once.list {ds : Documents} (once : ds.Once) (workspace base : String) :
    ((ds.list workspace base).map (·.id)).Nodup := by
  refine ((List.mergeSort_perm _ _).map fun d : Document => d.id).nodup_iff.mpr ?_
  -- within one workspace the identifier is the whole key
  have apart := (List.pairwise_map.mp once).sublist (List.filter_sublist (p := fun d =>
    d.workspaceId = workspace && d.baseId = base))
  refine List.pairwise_map.mpr (apart.imp_of_mem ?_)
  intro a b first second apart same
  have here : ∀ d ∈ ds.filter fun d => d.workspaceId = workspace && d.baseId = base,
      d.workspaceId = workspace := by
    intro d member
    have own := (List.mem_filter.mp member).2
    simp only [Bool.and_eq_true, decide_eq_true_eq] at own
    exact own.1
  exact apart (Prod.ext ((here a first).trans (here b second).symm) same)

end Documents

namespace World

theorem interfere_keeps (cfg : Config) (w : World) (i : Interference) :
    w.db.jobs.Keeps (w.interfere cfg i).db.jobs := by
  cases i with
  | submit workspace base document version body => exact Queue.keeps_enqueue _ _ _ _ _ _ _
  | advance | control | lock => exact .refl _

theorem embed_keeps (s : Setup) (w : World) (p : Provider) (token : Option String)
    (text : String) : w.db.jobs.Keeps (w.embed s p token text).2.db.jobs :=
  embed_preserves (I := fun v => w.db.jobs.Keeps v.db.jobs) s w p token text
    (fun _ => .refl _) (.refl _) fun v i _ kept => kept.trans (v.interfere_keeps s.config i)

end World

theorem Run.Move.keeps {s : Setup} {r r' : Run} {w w' : World} (m : Move s r w r' w') :
    w.db.jobs.Keeps w'.db.jobs := by
  rcases m.jobs_moves with ⟨v, reported⟩ | ⟨p, token, text, beside⟩ | same
  · rw [reported, v.write_eq]
    exact Queue.keeps_update r.job.id (v.row_same s.config.worker w.now r.job)
  · rw [beside]
    exact w.embed_keeps s p token text
  · rw [same]
    exact .refl _

namespace World

variable (s : Setup) (w : World)

theorem poll_keeps : w.db.jobs.Keeps (w.poll s).2.db.jobs := by
  have claimed : w.db.jobs.Keeps (w.housekeeping s.config).claim.2.db.jobs :=
    (w.db.jobs.keeps_recover s.config.worker w.now).trans (Queue.keeps_claim _ w.now)
  rcases w.poll_cases s with ⟨_, idle⟩ | ⟨job, _, ran, _⟩
  · rw [idle]
    exact claimed
  · rw [ran]
    exact Run.complete_keeps (I := fun _ v => w.db.jobs.Keeps v.db.jobs)
      (fun _ _ _ _ kept m => kept.trans m.keeps) (.start job) _ claimed

theorem perform_keeps (op : Operation) : w.db.jobs.Keeps (w.perform s op).db.jobs := by
  cases op with
  | enqueue workspace base document version => exact Queue.keeps_enqueue _ _ _ _ _ _ _
  | interfere i => exact w.interfere_keeps s.config i
  | poll => exact w.poll_keeps s
  | sweep =>
    rw [perform, sweep, (w.sweepAll_kept _ _).1]
    exact .refl _
  | put | start | inject | outside => exact .refl _

theorem performAll_keeps (ops : List Operation) :
    w.db.jobs.Keeps (w.performAll s ops).db.jobs := by
  induction ops generalizing w with
  | nil => exact .refl _
  | cons op rest ih => exact (w.perform_keeps s op).trans (ih (w.perform s op))

end World

namespace Command

variable {w : World} {workspace base : String} {ds : List Document}

theorem enqueueAll_actions (w : World) (workspace base : String) (ds : List Document) :
    (enqueueAll w workspace base ds).db.actions = w.db.actions := by
  induction ds generalizing w with
  | nil => rfl
  | cons d rest ih => exact ih _

/-- Asking for other documents leaves alone the jobs of a document. -/
theorem enqueueAll_other (sound : w.Sound) {id : String} (other : id ∉ ds.map (·.id)) :
    (enqueueAll w workspace base ds).db.jobs.ofDocument workspace id =
      w.db.jobs.ofDocument workspace id := by
  induction ds generalizing w with
  | nil => rfl
  | cons d rest ih =>
    rw [List.map_cons, List.mem_cons, not_or] at other
    have first : (w.enqueue workspace base d.id d.versionId).2.db.jobs.ofDocument workspace id =
        w.db.jobs.ofDocument workspace id :=
      Queue.ofDocument_enqueue_other sound.jobs_once (fun same => other.1 same.2.symm) w.now
        (Identifier.ofNat w.drawn) base d.versionId
    exact (ih ((w.enqueue_meanwhile workspace base d.id d.versionId).sound sound) other.2).trans
      first

/-- A job waits for each document of a list in its stored version, and is one of the base's jobs
from now on unless an older one waited for the document. -/
theorem enqueueAll_spec (sound : w.Sound) (workspace base : String)
    (once : (ds.map (·.id)).Nodup) {d : Document} (listed : d ∈ ds) :
    ∃ j ∈ (enqueueAll w workspace base ds).db.jobs.ofDocument workspace d.id,
      j.status = .pending ∧ j.versionId = d.versionId ∧
      JobScope.includes ⟨some workspace, some base, some w.now⟩ j =
        (w.db.jobs.waiting? workspace d.id).all
          (JobScope.includes ⟨some workspace, some base, some w.now⟩) := by
  induction ds generalizing w with
  | nil => cases listed
  | cons first rest ih =>
    have sound' := (w.enqueue_meanwhile workspace base first.id first.versionId).sound sound
    obtain ⟨unlisted, once'⟩ := List.nodup_cons.mp once
    rcases List.mem_cons.mp listed with rfl | later
    · rw [enqueueAll, enqueueAll_other sound' unlisted]
      exact w.db.jobs.enqueue_spec w.now (Identifier.ofNat w.drawn) workspace base d.id d.versionId
    · have other : first.id ≠ d.id := fun same =>
        unlisted (List.mem_map.mpr ⟨d, later, same.symm⟩)
      have waits : (w.enqueue workspace base first.id first.versionId).2.db.jobs.waiting?
          workspace d.id = w.db.jobs.waiting? workspace d.id :=
        Queue.waiting?_of_same (Queue.ofDocument_enqueue_other sound.jobs_once
          (fun same => other same.2) w.now (Identifier.ofNat w.drawn) base first.versionId)
      rw [← waits]
      exact ih sound' once' later

end Command

namespace Action

/-- Whether asking for a document gives an action a job: none waits for the document, or the one
that does is one of the action's. -/
def reaches (a : Action) (q : Queue) (d : Document) : Bool :=
  (q.waiting? a.workspaceId d.id).all a.scope.includes

theorem refreshed_total (settings : ActionSettings) (q : Queue) (now : Int) (a : Action) :
    (a.refreshed settings q now).report.total = (q.counts a.scope).total := by
  unfold refreshed settled
  simp only
  split
  · split
    · rfl
    · rfl
    · split <;> rfl
  · rfl

/-- An action under way that has jobs of which none waits or is under way is over. -/
theorem refreshed_ended {settings : ActionSettings} {q : Queue} {a : Action}
    (processing : a.status = .processing) (some_jobs : 0 < (q.counts a.scope).total)
    (ended : (q.counts a.scope).active = 0) (now : Int) :
    (a.refreshed settings q now).status = .done ∨ (a.refreshed settings q now).status = .error := by
  unfold refreshed
  simp only [processing, if_true, Progress.ofCounts, some_jobs, ended, decide_true,
    beq_self_eq_true, Bool.and_self]
  split
  · exact .inl rfl
  · exact .inr rfl

end Action

/-- Starting an action with `reindex`, in any database with one row for each job and document,
leaves each document of the base with a job that waits for its stored version. That job is one of
the action's exactly when no job waited for the document or the one that did is. After whatever is
done then, the action counts as many jobs as there are documents that it reaches, or more, and it
ends when it reaches any and all its jobs have ended. -/
theorem reindex_covers (cfg : Config) (w : World) (sound : w.Sound)
    (once : w.db.documents.Once) (workspace base : String) (settings : RunSettings) (s : Setup)
    (ops : List Operation) :
    let a := (Command.startAction cfg w workspace base settings).1
    let documents := w.db.documents.list workspace base
    let started := (Command.runStart cfg w workspace base settings true).2
    let later := started.performAll s ops
    a ∈ started.db.actions ∧
    (∀ d ∈ documents, ∃ j ∈ started.db.jobs, j.isOf workspace d.id = true ∧
      j.status = .pending ∧ j.versionId = d.versionId ∧
      a.scope.includes j = a.reaches w.db.jobs d) ∧
    -- whatever else has become of the action by then, it follows the same jobs
    (later.db.jobs.length < Number.twoTo 64 → ∀ b : Action, b.scope = a.scope →
      let recount := b.refreshed cfg.actions later.db.jobs later.now
      (documents.filter (a.reaches w.db.jobs)).length ≤ recount.report.total ∧
      ((∃ d ∈ documents, a.reaches w.db.jobs d = true) →
        (∀ j ∈ later.db.jobs, a.scope.includes j = true → j.isActive = false) →
        b.status = .processing → recount.status = .done ∨ recount.status = .error)) := by
  intro a documents started later
  have fresh : World.Sound (Command.startAction cfg w workspace base settings).2 :=
    sound.of_tables (Nat.le_succ _) rfl rfl rfl rfl
  have listed : (documents.map (·.id)).Nodup := once.list workspace base
  have queued : ∀ d ∈ documents, ∃ j ∈ started.db.jobs, j.isOf workspace d.id = true ∧
      j.status = .pending ∧ j.versionId = d.versionId ∧
      a.scope.includes j = a.reaches w.db.jobs d := by
    intro d member
    obtain ⟨j, own, waits, version, chosen⟩ :=
      Command.enqueueAll_spec fresh workspace base listed member
    obtain ⟨there, own⟩ := Queue.mem_ofDocument.mp own
    exact ⟨j, there, own, waits, version, chosen⟩
  refine ⟨?_, queued, ?_⟩
  · have kept : started.db.actions = w.db.actions ++ [a] :=
      Command.enqueueAll_actions _ workspace base documents
    rw [kept]
    exact List.mem_append_right _ (List.mem_singleton_self _)
  · intro few b scope recount
    have kept : started.db.jobs.Keeps later.db.jobs := started.performAll_keeps s ops
    have total : (documents.filter (a.reaches w.db.jobs)).length ≤
        (later.db.jobs.counts b.scope).total := by
      refine Queue.length_le_total few (listed.sublist (List.filter_sublist.map _)) ?_
      intro d member
      obtain ⟨listed, reached⟩ := List.mem_filter.mp member
      obtain ⟨j, there, own, _, _, chosen⟩ := queued d listed
      obtain ⟨k, there, same⟩ := kept j there
      refine ⟨k, there, same.document.trans (Job.isOf_iff.mp own).2, ?_⟩
      rw [scope, same.includes, chosen, reached]
    refine ⟨Nat.le_trans total (Nat.le_of_eq (b.refreshed_total _ _ _).symm), ?_⟩
    rintro ⟨d, member, reached⟩ ended processing
    have some_reached : 0 < (documents.filter (a.reaches w.db.jobs)).length :=
      List.length_pos_of_mem (List.mem_filter.mpr ⟨member, reached⟩)
    exact Action.refreshed_ended processing (Nat.lt_of_lt_of_le some_reached total)
      (Queue.counts_active (scope ▸ ended)) later.now

namespace Sample

/-- What is there after some operations, with a provider at hand. -/
def shelf (ops : List Operation) : World :=
  (World.initial 1000 [] {}).performAll setup
    (.outside { World.initial 1000 [] {} with usualTurn := turn } :: ops)

def stocked : World := shelf [.put "w" "b" "d" "v1" "hello world"]

/-- A document that a job has been waiting for. -/
def waited : World :=
  shelf [.interfere (.submit "w" "b" "d" "v1" "hello world"), .interfere (.advance 1)]

/-- The action that a base is reindexed by. -/
def follower (w : World) : Action := (Command.startAction setup.config w "w" "b" {}).1

def reindexed (w : World) : World := (Command.runStart setup.config w "w" "b" {} true).2

def isQuiet (w : World) : Bool := w.db.jobs.all fun j => !j.isActive

theorem stocked_sound : stocked.Sound :=
  (World.put_meanwhile _ _ _ _ _ _).sound
    ((World.initial_sound 1000 [] {}).of_tables (Nat.le_refl _) rfl rfl rfl rfl)

theorem stocked_reached : (stocked.db.documents.list "w" "b").map (·.id) = ["d"] ∧
    ∀ d ∈ stocked.db.documents.list "w" "b",
      (follower stocked).reaches stocked.db.jobs d = true := by decide +kernel

theorem stocked_quiet :
    ((reindexed stocked).replay setup 16 (fun _ _ => true) [.poll]).any
      (fun w => isQuiet w && w.db.jobs.length = 1) = true := by decide +kernel

theorem waited_completed :
    ((reindexed waited).replay setup 16 (fun _ _ => true) [.poll]).any (fun w =>
      (w.db.jobs.all fun j => j.status = .completed) &&
        let recount := (follower waited).refreshed setup.config.actions w.db.jobs w.now
        recount.report.total = 0 && recount.status = .processing) = true := by decide +kernel

end Sample

theorem reindex_covers_sample :
    let later := (Sample.reindexed Sample.stocked).performAll Sample.setup [.poll]
    let recount := (Sample.follower Sample.stocked).refreshed Sample.setup.config.actions
      later.db.jobs later.now
    1 ≤ recount.report.total ∧ (recount.status = .done ∨ recount.status = .error) := by
  intro later recount
  obtain ⟨listed, reached⟩ := Sample.stocked_reached
  obtain ⟨w, replayed, quiet⟩ := (Option.any_eq_true _ _).mp Sample.stocked_quiet
  obtain rfl : later = w := (World.performAll_of_replay replayed).1
  simp only [Bool.and_eq_true, decide_eq_true_eq] at quiet
  obtain ⟨d, member, _⟩ := List.mem_map.mp (listed ▸ List.mem_singleton_self "d")
  obtain ⟨counted, ends⟩ := (reindex_covers Sample.setup.config Sample.stocked
    Sample.stocked_sound (by unfold Documents.Once; decide +kernel) "w" "b" {} Sample.setup
    [.poll]).2.2 (quiet.2 ▸ by decide) (Sample.follower Sample.stocked) rfl
  refine ⟨?_, ends ⟨d, member, reached d member⟩ ?_ (by decide +kernel)⟩
  · refine Nat.le_trans ?_ counted
    exact List.length_pos_of_mem (List.mem_filter.mpr ⟨member, reached d member⟩)
  · intro j there _
    simpa using List.all_eq_true.mp quiet.1 j there

/-- A document for which a job had been waiting: no job of the action comes of asking for it, and
when its job is completed the action has counted none and is under way still. -/
theorem reindex_misses :
    let a := Sample.follower Sample.waited
    let started := Sample.reindexed Sample.waited
    let later := started.performAll Sample.setup [.poll]
    let recount := a.refreshed Sample.setup.config.actions later.db.jobs later.now
    (∃ d ∈ Sample.waited.db.documents.list "w" "b",
      ∀ j ∈ started.db.jobs, j.isOf "w" d.id = true → a.scope.includes j = false) ∧
    (∀ j ∈ later.db.jobs, j.status = .completed) ∧
    recount.report.total = 0 ∧ recount.status = .processing := by
  intro a started later recount
  obtain ⟨w, replayed, ended⟩ := (Option.any_eq_true _ _).mp Sample.waited_completed
  obtain rfl : later = w := (World.performAll_of_replay replayed).1
  simp only [Bool.and_eq_true, decide_eq_true_eq, List.all_eq_true] at ended
  exact ⟨by decide +kernel, ended⟩

end IndexingPipeline
