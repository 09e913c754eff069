import IndexingPipeline.Command
import IndexingPipeline.Proofs.Filing
import IndexingPipeline.Proofs.Outcome

/-!
# The index over whole histories

A history begins with an empty database and an empty store in memory. Documents are written and
asked to be indexed, actions are started and controlled, locks are taken, failures of the store
are switched on and off, the clock and the services become anything, jobs are polled and orphans
are swept, one after another. At every point of it the store holds, of the revision that a
document points at, one point for each chunk of the document's chunk set. A poll that completes
a job and says how many points it removed has put the points of the new revision in the place of
all points of the document, and has removed as many as it says.
-/

namespace IndexingPipeline

namespace MemoryStore

/-- A batch of points of a revision stands behind the points of a collection, none of which is of
that revision. -/
def Added (name workspace document id : String) (count : Nat) (before after : MemoryStore) :
    Prop :=
  ∃ batch : List Point, batch.length = count ∧
    (∀ p ∈ batch, p.IsOf workspace document id) ∧
    (∀ p ∈ before.all name, p.tag? "revision_id" ≠ some id) ∧
    ∀ other, after.all other =
      if other = name then before.all name ++ batch else before.all other

/-- The points of a revision, of which there were none, have taken the place of all points of
its document. Nothing else has changed. -/
structure Replaced (name workspace document id : String) (count removed : Nat)
    (before after : MemoryStore) : Prop where
  new : before.points name (.ofRevision workspace document id) = []
  exact : after.points name (.ofDocument workspace document) =
    after.points name (.ofRevision workspace document id)
  count : (after.points name (.ofRevision workspace document id)).length = count
  removed : (before.points name (.ofDocument workspace document)).length = removed
  others : after.others name (.ofDocument workspace document) =
    before.others name (.ofDocument workspace document)
  elsewhere : ∀ other, other ≠ name → after.all other = before.all other

variable {name workspace document id : String} {count removed : Nat}
  {before middle after : MemoryStore}

/-- Deleting what the new revision has superseded takes away what was there of its document
before, and only that. -/
theorem Added.deleted (h : Added name workspace document id count before middle)
    (told : (middle.delete name (.superseded workspace document id)).1.toOption = some removed) :
    ∃ batch : List Point, batch.length = count ∧ (∀ p ∈ batch, p.IsOf workspace document id) ∧
      (∀ p ∈ before.all name, p.tag? "revision_id" ≠ some id) ∧
      (before.points name (.ofDocument workspace document)).length = removed ∧
      ∀ other, (middle.delete name (.superseded workspace document id)).2.all other =
        if other = name then before.others name (.ofDocument workspace document) ++ batch
        else before.all other := by
  obtain ⟨batch, length, allOf, untagged, stored⟩ := h
  rcases middle.all_delete name (.superseded workspace document id) with
    ⟨_, failed⟩ | ⟨left, counted⟩
  · rw [failed] at told
    cases told
  have here : middle.all name = before.all name ++ batch := by rw [stored, if_pos rfl]
  -- of the points that were there before, the filter accepts exactly those of the document
  have old : ∀ p ∈ before.all name,
      (Filter.superseded workspace document id).accepts p.payload =
        (Filter.ofDocument workspace document).accepts p.payload := by
    intro p member
    rw [Bool.eq_iff_iff, Filter.accepts_superseded, Filter.accepts_ofDocument]
    exact and_iff_left (untagged p member)
  have new : ∀ p ∈ batch, (Filter.superseded workspace document id).accepts p.payload =
      false := by
    intro p member
    rw [← Bool.not_eq_true, Filter.accepts_superseded]
    exact fun accepted => accepted.2 (allOf p member).revision
  have none_new : batch.filter (fun p =>
      (Filter.superseded workspace document id).accepts p.payload) = [] :=
    List.filter_eq_nil_iff.mpr fun p member => by simp [new p member]
  have all_new : batch.filter (fun p =>
      !(Filter.superseded workspace document id).accepts p.payload) = batch :=
    List.filter_eq_self.mpr fun p member => by simp [new p member]
  refine ⟨batch, length, allOf, untagged, ?_, ?_⟩
  · rw [told, points_eq, here, List.filter_append, none_new, List.append_nil,
      List.filter_congr old, ← points_eq] at counted
    exact (Option.some.inj counted).symm
  · intro other
    rw [left, others, here, List.filter_append, all_new,
      List.filter_congr fun p member => congrArg not (old p member), ← others]
    split
    · rfl
    · rw [stored, if_neg ‹_›]

theorem Added.replaced (h : Added name workspace document id count before middle)
    (told : (middle.delete name (.superseded workspace document id)).1.toOption = some removed) :
    Replaced name workspace document id count removed before
      (middle.delete name (.superseded workspace document id)).2 := by
  obtain ⟨batch, length, allOf, untagged, counted, left⟩ := h.deleted told
  generalize (middle.delete name (.superseded workspace document id)).2 = after at left
  have here := left name
  rw [if_pos rfl] at here
  have ofDocument : ∀ p ∈ batch, (Filter.ofDocument workspace document).accepts p.payload =
      true := fun p member =>
    Filter.accepts_ofDocument.mpr ⟨(allOf p member).workspace, (allOf p member).document⟩
  have ofRevision : ∀ p ∈ batch, (Filter.ofRevision workspace document id).accepts p.payload =
      true := fun p member => Filter.accepts_ofRevision.mpr (allOf p member)
  have unaccepted : ∀ p ∈ before.all name,
      ¬ (Filter.ofRevision workspace document id).accepts p.payload = true :=
    fun p member accepted => untagged p member (Filter.accepts_ofRevision.mp accepted).revision
  have of_document : after.points name (.ofDocument workspace document) = batch := by
    rw [points_eq, here, List.filter_append, List.filter_eq_self.mpr ofDocument,
      List.filter_eq_nil_iff.mpr, List.nil_append]
    intro p member
    simpa using (List.mem_filter.mp member).2
  have of_revision : after.points name (.ofRevision workspace document id) = batch := by
    rw [points_eq, here, List.filter_append, List.filter_eq_self.mpr ofRevision,
      List.filter_eq_nil_iff.mpr, List.nil_append]
    exact fun p member => unaccepted p (List.mem_filter.mp member).1
  have outside : batch.filter (fun p =>
      !(Filter.ofDocument workspace document).accepts p.payload) = [] :=
    List.filter_eq_nil_iff.mpr fun p member => by simp [ofDocument p member]
  constructor
  · rw [points_eq]
    exact List.filter_eq_nil_iff.mpr unaccepted
  · rw [of_document, of_revision]
  · rw [of_revision, length]
  · exact counted
  · rw [others, here, List.filter_append, outside, List.append_nil, others, List.filter_filter]
    simp
  · intro other ne
    rw [left, if_neg ne]

end MemoryStore

namespace World.Filed

variable {stem : String} {w w' : World}

theorem initial (stem : String) (now : Int) (env : Environment) (peer : Peer) :
    (World.initial now env peer).Filed stem where
  sets := fun _ member => absurd member List.not_mem_nil
  points := fun _ _ member => absurd member List.not_mem_nil
  alone := fun _ member => absurd member List.not_mem_nil
  indexed := fun _ member => absurd member List.not_mem_nil

/-- What is done around runs leaves a world filed, unless it changes points. -/
theorem around (h : w.Filed stem) (a : Around w w')
    (all : ∀ name, w'.store.all name = w.store.all name) : w'.Filed stem where
  sets := fun c member ahead => h.sets c (a.chunkSets ▸ member) (ahead.mono a.drawn)
  points := by
    intro name p member
    obtain ⟨own, tagged⟩ := h.points name p (all name ▸ member)
    exact ⟨fun ahead => own (ahead.mono a.drawn),
      fun id tag ahead => tagged id tag (ahead.mono a.drawn)⟩
  alone := a.standings.alone h.alone
  indexed := by
    intro x member id points
    have old := (a.standings.mem_iff (by simp [points])).mp member
    obtain ⟨r, stored, found, named, set, count, placed⟩ := h.indexed x old id points
    obtain ⟨r', found, ends⟩ := a.revisions id r found
    refine ⟨r', stored, found, named, ?_, ends.chunkCount.trans count, ?_⟩
    · rw [Database.chunkSet?, a.chunkSets]
      exact set
    · rw [MemoryStore.points_eq, all, ← MemoryStore.points_eq]
      exact placed

/-- Deleting the points of every revision of a document but the one that it points at. -/
theorem superseded (h : w.Filed stem) {d : Document} {id : String} (member : d ∈ w.db.documents)
    (points : d.currentRevisionId = some id) (name : String) :
    World.Filed stem { w with
      store := (w.store.delete name (.superseded d.workspaceId d.id id)).2 } where
  sets := h.sets
  points := fun other p there => h.points other p (MemoryStore.mem_all_delete there)
  alone := h.alone
  indexed := by
    intro x there id' points'
    obtain ⟨r, stored, found, named, set, count, placed⟩ := h.indexed x there id' points'
    refine ⟨r, stored, found, named, set, count, ?_⟩
    rw [MemoryStore.points_delete]
    · exact placed
    · intro workspace document
      have own : x = d.standing :=
        h.alone x there d.standing (List.mem_map_of_mem member) workspace document
      rw [own] at points'
      exact Option.some.inj (points'.symm.trans points)

end World.Filed

/-- What a completed run that says how many points it removed has done to the store. -/
def Outcome.Replaced (name : String) (job : Job) (before after : MemoryStore) : Outcome → Prop
  | .completed id _ count (some removed) =>
    before.Replaced name job.workspaceId job.documentId id count removed after
  | _ => True

/-- What a run has done to the store when it comes to a stage. -/
def Stage.Stored (name : String) (job : Job) (before after : MemoryStore) : Stage → Prop
  | .accounting d | .switching d | .cleaning d _ =>
    before.Added name job.workspaceId job.documentId d.revisionId d.set.chunks.length after
  | .deferring outcome _ _ | .refreshing outcome | .releasing outcome | .finished outcome =>
    outcome.Replaced name job before after
  | .failing _ _ | .settling _ | .marking _ | .noting _ | .crashed => True
  | _ => ∀ other, after.all other = before.all other

namespace Run

variable {s : Setup} {r r' : Run} {w w' : World}

/-- Every move of a run does to the store what its stage says. -/
theorem Move.stored (m : Move s r w r' w') (memory : s.gateway = none) (h : r.Filed s w)
    {before : MemoryStore} (stored : r.stage.Stored (collection s r.job) r.job before w.store) :
    r'.stage.Stored (collection s r'.job) r'.job before w'.store := by
  have all := m.all_kept memory
  have kept := m.store_kept
  have filed := h.stage
  have batch_written := @h.batch_written
  cases m with
  | @written job _ w d batch rendered written =>
    obtain ⟨count, _, unwritten⟩ := filed
    rw [w.writePoints_memory memory] at written ⊢
    obtain ⟨ids, allOf, after⟩ := batch_written rfl rendered written
    refine ⟨batch, ?_, allOf, ?_, ?_⟩
    · simpa using congrArg List.length ids
    · intro p member
      exact unwritten.untagged _ p (stored _ ▸ member)
    · intro other
      rw [after, stored, stored]
  | @cleaned job _ w d previous =>
    rw [w.deletePoints_memory memory]
    cases told : (w.store.delete (collection s job)
        (.superseded job.workspaceId job.documentId d.revisionId)).1.toOption with
    | none => trivial
    | some removed => exact stored.replaced told
  | ensured =>
    intro other
    rw [all (by simp) (by simp)]
    exact stored other
  | @refreshed _ holder => cases holder <;> exact stored
  | kept =>
    rw [kept (by simp [Stage.writes])]
    exact stored
  | accounted | switched | deferred | embeddedAll | unaccounted | released | unlocked =>
    exact stored
  | free | watched | ended | locked | opened | chunked | sized | admitted | authorized =>
    exact stored
  | _ => trivial

theorem Filed.start (job : Job) (sound : w.Sound) (h : w.Filed s.config.store.collectionStem) :
    (Run.start job).Filed s w where
  sound := sound
  known := .start job w
  drafted := .start job w
  world := h
  stage := trivial

/-- A run comes to its end filed, and with the store as its last stage says. -/
theorem Filed.complete {job : Job} (h : (Run.start job).Filed s w) (memory : s.gateway = none) :
    (complete s (.start job) w).1.Filed s (complete s (.start job) w).2 ∧
      (complete s (.start job) w).1.stage.Stored (collection s job) job w.store
        (complete s (.start job) w).2.store := by
  have holds := complete_keeps (s := s)
    (I := fun r v => r.job = job ∧ r.Filed s v ∧
      r.stage.Stored (collection s job) job w.store v.store)
    (by
      rintro r v r' v' ⟨rfl, filed, stored⟩ m
      have same := m.same_job
      exact ⟨same, filed.move m memory, same ▸ m.stored memory filed stored⟩)
    (.start job) w ⟨rfl, h, fun _ => rfl⟩
  exact holds.2

end Run

/-- What can be done to a database and a store between which nothing else goes on. -/
inductive Operation where
  | put (workspace base document version body : String)
  | enqueue (workspace base document version : String)
  | start (workspace base : String) (settings : RunSettings)
  | interfere (i : Interference)
  /-- Switch failures of writing and of deleting points on or off. -/
  | inject (failWrites failDeletes : Bool)
  /-- Everything outside the database and the store becomes as it is elsewhere. -/
  | outside (elsewhere : World)
  | poll
  | sweep

namespace World

/-- A poll finds no job, or it is the run of the job that it claims. -/
theorem poll_cases (s : Setup) (w : World) :
    ((w.housekeeping s.config).claim.1 = none ∧
      w.poll s = (.idle, (w.housekeeping s.config).claim.2)) ∨
    ∃ job, (w.housekeeping s.config).claim.1 = some job ∧
      (w.poll s).2 =
        (Run.complete s (.start job) (w.housekeeping s.config).claim.2).2 ∧
      ∀ outcome, (w.poll s).1 = .ran outcome →
        ((w.housekeeping s.config).claim.2.process s job).1 = some outcome := by
  unfold poll
  generalize (w.housekeeping s.config).claim = answer
  obtain ⟨job, v⟩ := answer
  cases job with
  | none => exact .inl ⟨rfl, rfl⟩
  | some job =>
    refine .inr ⟨job, rfl, ?_, ?_⟩
    · rw [← process_world]
      simp only
      split <;> rename_i eq <;> rw [eq]
    · intro outcome
      simp only
      split <;> rename_i eq
      · rintro ⟨⟩
        rw [eq]
      · intro crashed
        cases crashed

def perform (s : Setup) (w : World) : Operation → World
  | .put workspace base document version body =>
    w.onDocuments (·.put w.now workspace base document version body)
  | .enqueue workspace base document version => (w.enqueue workspace base document version).2
  | .start workspace base settings =>
    (Command.startAction s.config w workspace base settings).2
  | .interfere i => w.interfere s.config i
  | .inject failWrites failDeletes => { w with store := { w.store with failWrites, failDeletes } }
  | .outside elsewhere => { elsewhere with drawn := w.drawn, db := w.db, store := w.store }
  | .poll => (w.poll s).2
  | .sweep => (w.sweep s).2

def performAll (s : Setup) (w : World) (ops : List Operation) : World := ops.foldl (perform s) w

variable {s : Setup} {w : World} (memory : s.gateway = none)
include memory

/-- Sweeping a document that points at a revision is one deletion. -/
theorem sweepDocument_world (report : SweepReport) {d : Document} {id : String}
    (points : d.currentRevisionId = some id) :
    (w.sweepDocument s report d).2 = { w with
      store := (w.store.delete (collectionName s.config.store.collectionStem d.workspaceId)
        (.superseded d.workspaceId d.id id)).2 } := by
  unfold sweepDocument
  simp only [points, w.deletePoints_memory memory]
  split <;> rename_i answer <;> exact (congrArg Prod.snd answer).symm

variable (sound : w.Sound) (h : w.Filed s.config.store.collectionStem)
include sound h

/-- A sweep deletes no points of a revision that a document points at. -/
theorem sweepAll_filed (report : SweepReport) (ds : List Document)
    (there : ∀ d ∈ ds, d ∈ w.db.documents) :
    (w.sweepAll s report ds).2.Sound ∧
      (w.sweepAll s report ds).2.Filed s.config.store.collectionStem := by
  induction ds generalizing report w with
  | nil => exact ⟨sound, h⟩
  | cons d rest ih =>
    have kept : (w.sweepDocument s report d).2.Sound ∧
        (w.sweepDocument s report d).2.Filed s.config.store.collectionStem ∧
        (w.sweepDocument s report d).2.db = w.db := by
      cases points : d.currentRevisionId with
      | none =>
        unfold sweepDocument
        rw [points]
        exact ⟨sound, h, rfl⟩
      | some id =>
        rw [sweepDocument_world memory report points]
        exact ⟨sound.of_db (Nat.le_refl _) rfl,
          h.superseded (there d List.mem_cons_self) points _, rfl⟩
    obtain ⟨sound', filed, db⟩ := kept
    exact ih sound' filed (w.sweepDocument s report d).1 fun x later =>
      db ▸ there x (List.mem_cons_of_mem _ later)

theorem sweep_filed :
    (w.sweep s).2.Sound ∧ (w.sweep s).2.Filed s.config.store.collectionStem := by
  refine sweepAll_filed memory sound h _ _ ?_
  intro d member
  exact (List.mem_filter.mp (List.mem_mergeSort.mp member)).1

omit memory in
theorem claim_filed :
    (w.housekeeping s.config).claim.2.Sound ∧
      (w.housekeeping s.config).claim.2.Filed s.config.store.collectionStem := by
  have around := (w.housekeeping_around s.config).trans (claim_around _)
  exact ⟨around.sound sound, h.around around fun _ => rfl⟩

theorem poll_filed :
    (w.poll s).2.Sound ∧ (w.poll s).2.Filed s.config.store.collectionStem := by
  obtain ⟨sound', filed⟩ := claim_filed sound h
  rcases w.poll_cases s with ⟨_, idle⟩ | ⟨job, _, ran, _⟩
  · rw [idle]
    exact ⟨sound', filed⟩
  · have done := (Run.Filed.start job sound' filed).complete memory
    rw [ran]
    exact ⟨done.1.sound, done.1.world⟩

theorem perform_filed (op : Operation) :
    (w.perform s op).Sound ∧ (w.perform s op).Filed s.config.store.collectionStem := by
  have keeps : ∀ {w' : World}, w.Around w' → (∀ name, w'.store.all name = w.store.all name) →
      w'.Sound ∧ w'.Filed s.config.store.collectionStem :=
    fun around all => ⟨around.sound sound, h.around around all⟩
  cases op with
  | put workspace base document version body =>
    exact keeps (.of_meanwhile (w.put_meanwhile workspace base document version body))
      fun _ => rfl
  | enqueue workspace base document version =>
    exact keeps (.of_meanwhile (w.enqueue_meanwhile workspace base document version))
      fun _ => rfl
  | start workspace base settings =>
    exact keeps (.of_meanwhile (.of_same (Nat.le_succ _) rfl rfl rfl rfl rfl rfl)) fun _ => rfl
  | interfere i =>
    have meanwhile := w.interfere_meanwhile s.config i
    exact keeps (.of_meanwhile meanwhile) fun name => by rw [perform, meanwhile.store]
  | inject failWrites failDeletes =>
    exact keeps (w.outside_around { w with
      store := { w.store with failWrites, failDeletes } }) fun _ => rfl
  | outside elsewhere =>
    exact keeps (w.outside_around { elsewhere with store := w.store }) fun _ => rfl
  | poll => exact poll_filed memory sound h
  | sweep => exact sweep_filed memory sound h

theorem performAll_filed (ops : List Operation) :
    (w.performAll s ops).Sound ∧
      (w.performAll s ops).Filed s.config.store.collectionStem := by
  induction ops generalizing w with
  | nil => exact ⟨sound, h⟩
  | cons op rest ih =>
    obtain ⟨sound', filed⟩ := perform_filed memory sound h op
    exact ih sound' filed

end World

/-- After any history: of the revision that a document points at, the store holds one point for
each chunk of the document's chunk set, as many as the revision counts. And when the next poll
completes a job and says how many points it removed, the points of the new revision have taken
the place of so many points of the document, which were all that it had. -/
theorem index_consistent (cfg : Config) (remote : Bool) (now : Int) (env : Environment)
    (peer : Peer) (ops : List Operation) :
    let s : Setup := ⟨cfg, remote, none⟩
    let stem := cfg.store.collectionStem
    let w := (World.initial now env peer).performAll s ops
    (∀ d ∈ w.db.documents, ∀ id, d.currentRevisionId = some id →
      ∃ a stored, w.db.revisions.revision? id = some a ∧
        d.currentChunkSetId = some stored.set.id ∧
        w.db.chunkSet? stored.set.id = some stored ∧
        a.chunkCount = (w.store.points (collectionName stem d.workspaceId)
          (.ofRevision d.workspaceId d.id id)).length ∧
        (w.store.points (collectionName stem d.workspaceId)
          (.ofRevision d.workspaceId d.id id)).map (·.id) =
            stored.set.chunks.map (·.vectorId)) ∧
    ∀ id previous count removed,
      (w.poll s).1 = .ran (.completed id previous count (some removed)) →
      ∃ job, (w.housekeeping cfg).claim.1 = some job ∧
        w.store.Replaced (collectionName stem job.workspaceId) job.workspaceId job.documentId
          id count removed (w.poll s).2.store := by
  intro s stem w
  obtain ⟨sound, filed⟩ := World.performAll_filed (s := s) rfl
    (World.initial_sound now env peer) (.initial stem now env peer) ops
  refine ⟨?_, ?_⟩
  · intro d member id points
    obtain ⟨a, stored, found, named, set, count, placed⟩ :=
      filed.indexed d.standing (List.mem_map_of_mem member) id points
    refine ⟨a, stored, found, named, set, ?_, placed⟩
    have length := congrArg List.length placed
    simp only [List.length_map] at length
    rw [count, ← length]
    rfl
  · intro id previous count removed ran
    obtain ⟨sound', filed'⟩ := World.claim_filed sound filed
    rcases w.poll_cases s with ⟨_, idle⟩ | ⟨job, claimed, world, outcomes⟩
    · rw [idle] at ran
      cases ran
    · have done := ((Run.Filed.start job sound' filed').complete rfl).2
      rw [World.process_finished (outcomes _ ran)] at done
      rw [world]
      exact ⟨job, claimed, done⟩

def Stage.result : Stage → PollResult
  | .finished outcome => .ran outcome
  | _ => .crashed

theorem World.poll_of_steps {s : Setup} {w : World} {job : Job} (n : Nat)
    (claimed : (w.housekeeping s.config).claim.1 = some job)
    (ended : (Run.steps s n (.start job) (w.housekeeping s.config).claim.2).1.stage.isOver =
      true) :
    w.poll s =
      ((Run.steps s n (.start job) (w.housekeeping s.config).claim.2).1.stage.result,
        (Run.steps s n (.start job) (w.housekeeping s.config).claim.2).2) := by
  have complete := Run.complete_eq_steps n ended
  unfold World.poll
  generalize (w.housekeeping s.config).claim = answer at *
  obtain ⟨_, v⟩ := answer
  obtain rfl : _ = some job := claimed
  simp only [World.process, complete]
  generalize Run.steps s n (.start job) v = done
  obtain ⟨⟨_, _, stage⟩, _⟩ := done
  cases stage <;> rfl

namespace Sample

def first : List Operation :=
  [.outside { World.initial 1000 [] {} with usualTurn := turn },
    .put "w" "b" "d" "v1" "hello world", .enqueue "w" "b" "d" "v1"]

def second : List Operation :=
  [.put "w" "b" "d" "v2" "hello again", .enqueue "w" "b" "d" "v2"]

def written : World := (World.initial 1000 [] {}).performAll setup first

def indexed : World :=
  (Run.steps setup 16 (.start job) (written.housekeeping setup.config).claim.2).2

def rewritten : World := (World.initial 1000 [] {}).performAll setup (first ++ .poll :: second)

theorem rewritten_eq : rewritten = indexed.performAll setup second := by
  have claimed : (written.housekeeping setup.config).claim.1 = some job := by decide +kernel
  have polled := World.poll_of_steps 16 claimed (by decide +kernel)
  calc rewritten
    _ = (written.poll setup).2.performAll setup second := List.foldl_append ..
    _ = indexed.performAll setup second := by
      rw [polled]
      rfl

theorem rewritten_poll : (rewritten.poll setup).1 =
    .ran (.completed (Identifier.ofNat 9) (some (Identifier.ofNat 2)) 1 (some 1)) := by
  rw [rewritten_eq]
  have claimed : ((indexed.performAll setup second).housekeeping setup.config).claim.1 =
      some (((indexed.performAll setup second).housekeeping setup.config).claim.1.getD
        default) := by decide +kernel
  rw [World.poll_of_steps 16 claimed (by decide +kernel)]
  decide +kernel

end Sample

theorem index_consistent_sample :
    (Sample.rewritten.poll Sample.setup).1 =
      .ran (.completed (Identifier.ofNat 9) (some (Identifier.ofNat 2)) 1 (some 1)) ∧
    ∃ job, (Sample.rewritten.housekeeping Sample.setup.config).claim.1 = some job ∧
      Sample.rewritten.store.Replaced
        (collectionName Sample.setup.config.store.collectionStem job.workspaceId)
        job.workspaceId job.documentId (Identifier.ofNat 9) 1 1
        (Sample.rewritten.poll Sample.setup).2.store :=
  ⟨Sample.rewritten_poll,
    (index_consistent Sample.setup.config false 1000 [] {}
      (Sample.first ++ .poll :: Sample.second)).2 _ _ _ _ Sample.rewritten_poll⟩

end IndexingPipeline
