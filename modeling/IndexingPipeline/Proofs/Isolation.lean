import IndexingPipeline.Proofs.Index
import IndexingPipeline.Proofs.Notice

/-!
# What a run leaves alone

A run writes its own job, what belongs to its document, and the action of its base that was started
last. Everything beyond that is as it was when the run is over, however it ends and whoever shares
the collection: what it writes by an identifier alone carries one that was drawn in the run itself.
-/

namespace IndexingPipeline

open Identifier (Ahead ahead_ofNat)

/-- Rewriting rows that are left out changes nothing of the others. -/
theorem filter_rewritten {α : Type} {keep : α → Bool} {hit : α → Prop} [DecidablePred hit]
    {f : α → α} {xs : List α}
    (out : ∀ x ∈ xs, hit x → keep x = false ∧ keep (f x) = false) :
    (xs.map fun x => if hit x then f x else x).filter keep = xs.filter keep := by
  induction xs with
  | nil => rfl
  | cons x rest ih =>
    have others := ih fun y later => out y (List.mem_cons_of_mem x later)
    rw [List.map_cons, List.filter_cons, List.filter_cons, others]
    by_cases here : hit x
    · obtain ⟨before, after⟩ := out x List.mem_cons_self here
      simp [here, before, after]
    · simp [here]

def Revision.isFor (workspace document : String) (r : Revision) : Bool :=
  r.workspaceId = workspace && r.documentId = document

/-- What is beyond a job: all rows and points but its own, those of its document, and one action. -/
structure Beyond where
  documents : Documents
  jobs : Queue
  revisions : Revisions
  locks : Locks
  actions : Actions
  points : String → List Point

namespace World

variable {w w' : World}

/-- What of a world is beyond a job and an action. -/
def beyond (w : World) (job : Job) (action : Option String) : Beyond where
  documents := w.db.documents.filter fun d => !Documents.isAt job.workspaceId job.documentId d
  jobs := w.db.jobs.filter fun j => j.id ≠ job.id
  revisions := w.db.revisions.filter fun r => !r.isFor job.workspaceId job.documentId
  locks := w.db.locks.filter fun l => !Locks.isFor job.workspaceId job.documentId l
  actions := w.db.actions.filter fun a => action ≠ some a.id
  points := fun name => w.store.others name (.ofDocument job.workspaceId job.documentId)

/-- Every identifier of a world was drawn for one row or point alone. -/
structure Distinct (w : World) : Prop where
  sound : w.Sound
  actions : w.db.actions.ids.Nodup
  points : ∀ name, ∀ p ∈ w.store.all name, ¬ Ahead w.drawn p.id

/-- Nobody does anything while a provider is at work. -/
def IsQuiet (s : Setup) (w : World) : Prop :=
  s.remoteEmbedder = true ∨ ∀ t ∈ w.usualTurn :: w.turns, t.meanwhile = []

/-- A provider that is left to itself changes nothing that is stored. -/
theorem IsQuiet.embed {s : Setup} (h : w.IsQuiet s) (p : Provider) (token : Option String)
    (text : String) : (w.embed s p token text).2.db = w.db := by
  unfold World.embed
  split
  · rfl
  · rename_i played
    have silent := h.resolve_left played
    simp only [silent _ w.next_turn_mem]
    rfl

end World

namespace Queue

theorem others_update (q : Queue) {id : String} {f : Job → Job} (keeps : ∀ j, (f j).id = j.id) :
    (q.update id f).filter (fun j => j.id ≠ id) = q.filter fun j => j.id ≠ id :=
  filter_rewritten fun j _ here => by simp [keeps, here]

end Queue

namespace Documents

theorem others_update (ds : Documents) {workspace id : String} {f : Document → Document}
    (keeps : ∀ d, isAt workspace id (f d) = isAt workspace id d) :
    (ds.update workspace id f).filter (fun d => !isAt workspace id d) =
      ds.filter fun d => !isAt workspace id d :=
  filter_rewritten fun d _ here => by simp [keeps, here]

end Documents

namespace Revisions

variable {rs : Revisions} {workspace document : String} {drawn : Nat}
  (own : ∀ a ∈ rs, Ahead drawn a.id → a.isFor workspace document = true)
include own

/-- Rewriting revisions that were drawn since, when all of these are of a document, leaves those of
other documents as they are. -/
theorem others_rewritten {hit : Revision → Prop} [DecidablePred hit] {f : Revision → Revision}
    (hits : ∀ a, hit a → Ahead drawn a.id)
    (keeps : ∀ a, (f a).isFor workspace document = a.isFor workspace document) :
    (rs.map fun a => if hit a then f a else a).filter (fun a => !a.isFor workspace document) =
        rs.filter (fun a => !a.isFor workspace document) ∧
      ∀ a ∈ rs.map fun a => if hit a then f a else a, Ahead drawn a.id →
        a.isFor workspace document = true := by
  constructor
  · refine filter_rewritten fun a member here => ?_
    have mine := own a member (hits a here)
    exact ⟨by simp [mine], by simp [keeps, mine]⟩
  · intro a member ahead
    obtain ⟨b, old, rfl⟩ := List.mem_map.mp member
    split
    · rename_i here
      rw [keeps]
      exact own b old (hits b here)
    · rename_i elsewhere
      rw [if_neg elsewhere] at ahead
      exact own b old ahead

theorem others_update {id : String} (since : Ahead drawn id) (c : RevisionChange) :
    (rs.update id c).filter (fun a => !a.isFor workspace document) =
        rs.filter (fun a => !a.isFor workspace document) ∧
      ∀ a ∈ rs.update id c, Ahead drawn a.id → a.isFor workspace document = true :=
  others_rewritten own (fun _ here => here ▸ since) fun _ => rfl

theorem others_markFailed {id : String} (since : Ahead drawn id) (ds : Documents) (now : Int)
    (reason : String) :
    (rs.markFailed ds now id reason).2.filter (fun a => !a.isFor workspace document) =
        rs.filter (fun a => !a.isFor workspace document) ∧
      ∀ a ∈ (rs.markFailed ds now id reason).2, Ahead drawn a.id →
        a.isFor workspace document = true := by
  refine others_rewritten own (fun a hit => ?_) fun _ => rfl
  simp only [Bool.and_eq_true, decide_eq_true_eq] at hit
  exact hit.1 ▸ since

end Revisions

namespace Locks

theorem others_acquire (ls : Locks) (now lifetime : Int) (workspace document holder : String) :
    (ls.acquire now lifetime workspace document holder).2.filter
        (fun l => !isFor workspace document l) =
      ls.filter fun l => !isFor workspace document l := by
  rcases ls.acquire_cases now lifetime workspace document holder with
    ⟨_, added⟩ | ⟨_, _, _, replaced⟩ | ⟨_, _, _, refused⟩
  · rw [added]
    simp [isFor]
  · rw [replaced]
    exact filter_rewritten fun l _ here => by simp [isFor] at here ⊢; exact here
  · rw [refused]

theorem others_release (ls : Locks) (workspace document holder : String) :
    (ls.release workspace document holder).filter (fun l => !isFor workspace document l) =
      ls.filter fun l => !isFor workspace document l := by
  rw [release, List.filter_filter]
  refine List.filter_congr fun l _ => ?_
  cases isFor workspace document l <;> simp

end Locks

namespace Actions

variable {as as' : Actions} {a row : Action} {action : Option String}

theorem others_put (as : Actions) {id : String} {row : Action} (same : row.id = id) :
    (as.put row).filter (fun a => some id ≠ some a.id) = as.filter fun a => some id ≠ some a.id :=
  filter_rewritten fun a _ here => by simp [same ▸ here, same]

theorem others_append (as : Actions) (s : ActionSettings) (id : String) (e : ActionEvent) :
    (as.append s id e).filter (fun a => some id ≠ some a.id) =
      as.filter fun a => some id ≠ some a.id := by
  cases found : as.action? id with
  | none => rw [append, writeTries, tryAppend, found]
  | some a =>
    rw [append_of_found s found]
    exact others_put as (mem_of_action? found).2

/-- Refreshing the latest action of a base changes no other. -/
theorem others_refreshLatest (as : Actions) (s : ActionSettings) (q : Queue) (now : Int)
    (workspace base : String) :
    (as.refreshLatest s q now workspace base).2.filter
        (fun a => (as.latest? workspace base).map (·.id) ≠ some a.id) =
      as.filter fun a => (as.latest? workspace base).map (·.id) ≠ some a.id := by
  cases latest : as.latest? workspace base with
  | none => rw [refreshLatest, latest]
  | some a =>
    rw [refreshLatest_of_latest s q now latest]
    split
    · rfl
    · exact others_put as (a.refreshed_sameStart s q now).id

theorem Onward.latest?_id {may : JobScope → Prop} (onward : as.Onward may as')
    (workspace base : String) :
    (as'.latest? workspace base).map (·.id) = (as.latest? workspace base).map (·.id) := by
  obtain ⟨f, rfl, kept⟩ := onward
  rw [latest?_map fun a member => (kept a member).1]
  cases latest : as.latest? workspace base with
  | none => rfl
  | some a => exact congrArg some (kept a (latest?_spec latest).1).1.id

end Actions

namespace Collection

theorem mem_putPoint {p q : Point} {points : List Point} (member : q ∈ putPoint p points) :
    q = p ∨ q ∈ points := by
  induction points with
  | nil => exact .inl (List.mem_singleton.mp member)
  | cons x rest ih =>
    rw [putPoint] at member
    split at member
    · rcases List.mem_cons.mp member with new | old
      · exact .inl new
      · exact .inr (List.mem_cons_of_mem x old)
    · rcases List.mem_cons.mp member with here | later
      · exact .inr (here ▸ List.mem_cons_self)
      · exact (ih later).imp_right (List.mem_cons_of_mem x)

theorem others_putPoint {keep : Point → Bool} {p : Point} {points : List Point}
    (out : keep p = false) (replaced : ∀ q ∈ points, q.id = p.id → keep q = false) :
    (putPoint p points).filter keep = points.filter keep := by
  induction points with
  | nil => simp [putPoint, out]
  | cons q rest ih =>
    rw [putPoint]
    split
    · simp [out, replaced q List.mem_cons_self ‹_›]
    · rw [List.filter_cons, List.filter_cons,
        ih fun x later => replaced x (List.mem_cons_of_mem q later)]

theorem others_putAll {keep : Point → Bool} {batch points : List Point}
    (out : ∀ p ∈ batch, keep p = false)
    (replaced : ∀ p ∈ batch, ∀ q ∈ points, q.id = p.id → keep q = false) :
    (batch.foldl (fun points p => putPoint p points) points).filter keep = points.filter keep ∧
      ∀ q ∈ batch.foldl (fun points p => putPoint p points) points, q ∈ batch ∨ q ∈ points := by
  induction batch generalizing points with
  | nil => exact ⟨rfl, fun q member => .inr member⟩
  | cons p rest ih =>
    have first := others_putPoint (out p List.mem_cons_self) (replaced p List.mem_cons_self)
    have replacedLater : ∀ q ∈ rest, ∀ x ∈ putPoint p points, x.id = q.id → keep x = false := by
      intro q later x member same
      rcases mem_putPoint member with rfl | old
      · exact out _ List.mem_cons_self
      · exact replaced q (List.mem_cons_of_mem p later) x old same
    obtain ⟨others, members⟩ :=
      ih (fun q later => out q (List.mem_cons_of_mem p later)) replacedLater
    refine ⟨others.trans first, fun q member => ?_⟩
    rcases members q member with new | old
    · exact .inl (List.mem_cons_of_mem p new)
    · rcases mem_putPoint old with rfl | old
      · exact .inl List.mem_cons_self
      · exact .inr old

end Collection

namespace MemoryStore

/-- What a write changes of each collection: points of its batch, and those that they replace. -/
theorem others_write {s : MemoryStore} {name : String} {batch : List Point} {f : Filter}
    (written : (s.write name batch).1 = .ok ())
    (own : ∀ p ∈ batch, f.accepts p.payload = true)
    (replaced : ∀ p ∈ batch, ∀ q ∈ s.all name, q.id = p.id → f.accepts q.payload = true)
    (other : String) :
    (s.write name batch).2.others other f = s.others other f ∧
      ∀ q ∈ (s.write name batch).2.all other, q ∈ batch ∨ q ∈ s.all other := by
  unfold write at written ⊢
  split at written <;> rename_i switched
  · cases written
  · rw [if_neg switched]
    split at written
    · cases written
    · rename_i c there
      split at written
      · cases written
      · have points : s.all name = c.points := by simp [all, there]
        simp only [others, all_with]
        split
        · rename_i here
          subst here
          rw [points]
          exact Collection.others_putAll (fun p inside => by simp [own p inside])
            fun p inside q member same => by simp [replaced p inside q (points ▸ member) same]
        · exact ⟨rfl, fun q member => .inr member⟩

/-- Deleting what a revision has superseded leaves alone the points of every other document. -/
theorem others_delete (s : MemoryStore) (name workspace document revision other : String) :
    (s.delete name (.superseded workspace document revision)).2.others other
        (.ofDocument workspace document) =
      s.others other (.ofDocument workspace document) := by
  rcases s.all_delete name (.superseded workspace document revision) with
    ⟨same, _⟩ | ⟨left, _⟩
  · rw [same]
  · rw [others, others, left]
    split
    · rename_i here
      rw [here, others, List.filter_filter]
      refine List.filter_congr fun p _ => ?_
      cases own : (Filter.ofDocument workspace document).accepts p.payload with
      | true => rfl
      | false =>
        have spared :
            (Filter.superseded workspace document revision).accepts p.payload = false := by
          rw [← Bool.not_eq_true] at own ⊢
          exact fun accepted =>
            own (Filter.accepts_ofDocument.mpr (Filter.accepts_superseded.mp accepted).1)
        simp [spared]
    · rfl

end MemoryStore

namespace Run

/-- The points of a draft's batch are of the run's document, and each has the identifier that a
chunk has for it. -/
theorem points_own {job : Job} {d : Draft} {batch : List Point}
    (rendered : points job d = .ok batch) :
    ∀ p ∈ batch, (∃ c ∈ d.set.chunks, p.id = c.vectorId) ∧
      (Filter.ofDocument job.workspaceId job.documentId).accepts p.payload = true := by
  unfold points at rendered
  cases taken : FieldTemplates.ofFields d.policy.fields with
  | error e => rw [taken] at rendered; cases rendered
  | ok templates =>
    rw [taken] at rendered
    obtain ⟨ids, _, allOf⟩ := Point.buildAll_spec rendered
    intro p inside
    have listed : p.id ∈ (d.set.chunks.zip d.vectors).map (·.1.vectorId) :=
      ids ▸ List.mem_map_of_mem inside
    obtain ⟨⟨c, v⟩, member, same⟩ := List.mem_map.mp listed
    exact ⟨⟨c, (List.of_mem_zip member).1, same.symm⟩,
      Filter.accepts_ofDocument.mpr ⟨(allOf p inside).workspace, (allOf p inside).document⟩⟩

/-- A run that has left alone what is beyond its job, with what it relies on: whatever carries an
identifier that was drawn since its start is of its document. -/
structure Within (s : Setup) (job : Job) (w₀ : World) (r : Run) (w : World) : Prop where
  same_job : r.job = job
  quiet : w.IsQuiet s
  drawn : w₀.drawn ≤ w.drawn
  once : w.db.actions.ids.Nodup
  latest : (w.db.actions.latest? job.workspaceId job.baseId).map (·.id) =
    (w₀.db.actions.latest? job.workspaceId job.baseId).map (·.id)
  opened : ∀ id, r.stage.open? = some id → Ahead w₀.drawn id
  revisions : ∀ a ∈ w.db.revisions, Ahead w₀.drawn a.id →
    a.isFor job.workspaceId job.documentId = true
  split : ∀ d, r.stage.draft? = some d → ∀ c ∈ d.set.chunks, Ahead w₀.drawn c.vectorId
  points : ∀ name, ∀ p ∈ w.store.all name, Ahead w₀.drawn p.id →
    (Filter.ofDocument job.workspaceId job.documentId).accepts p.payload = true
  beyond : ∀ action, action = (w₀.db.actions.latest? job.workspaceId job.baseId).map (·.id) →
    w.beyond job action = w₀.beyond job action

namespace Within

variable {s : Setup} {job : Job} {w₀ w w' : World} {r r' : Run}

theorem start (job : Job) (distinct : w.Distinct) (quiet : w.IsQuiet s) :
    Within s job w (.start job) w where
  same_job := rfl
  quiet := quiet
  drawn := Nat.le_refl _
  once := distinct.actions
  latest := rfl
  opened := by
    intro id opened
    cases opened
  revisions := fun a member ahead => absurd ahead (distinct.sound.revisions a member)
  split := by
    intro d drafted
    cases drafted
  points := fun name p member ahead => absurd ahead (distinct.points name p member)
  beyond := fun _ _ => rfl

variable (h : Within s job w₀ r w) (m : Move s r w r' w')
include h m

theorem jobs_kept :
    w'.db.jobs.filter (fun j => j.id ≠ job.id) = w.db.jobs.filter fun j => j.id ≠ job.id := by
  rcases m.jobs_moves with ⟨v, reported⟩ | ⟨p, token, text, beside⟩ | same
  · rw [reported, v.write_eq, h.same_job]
    exact w.db.jobs.others_update (v.row_id s.config.worker w.now job)
  · rw [beside, h.quiet.embed]
  · rw [same]

theorem documents_kept :
    w'.db.documents.filter (fun d => !Documents.isAt job.workspaceId job.documentId d) =
      w.db.documents.filter fun d => !Documents.isAt job.workspaceId job.documentId d := by
  have kept := m.documents_kept
  have quiet := h.quiet
  have same := h.same_job
  cases m with
  | kept | mismatched | unembedded | unaccepted => simp only [quiet.embed]
  | switched =>
    subst same
    refine (Documents.others_update _ ?_).trans (Documents.others_update _ ?_)
    · exact fun _ => rfl
    · exact fun _ => rfl
  | marked =>
    subst same
    exact Documents.others_update _ fun _ => rfl
  | vanished => rfl
  | _ => rw [kept (by simp [Stage.writes])]

theorem revisions_kept :
    w'.db.revisions.filter (fun a => !a.isFor job.workspaceId job.documentId) =
        w.db.revisions.filter (fun a => !a.isFor job.workspaceId job.documentId) ∧
      ∀ a ∈ w'.db.revisions, Ahead w₀.drawn a.id →
        a.isFor job.workspaceId job.documentId = true := by
  have kept := m.revisions_kept
  have same := h.same_job
  have own := h.revisions
  have opened := h.opened
  cases m with
  | @opened job _ w settings policy provider =>
    subst same
    have appended : (w.openRevision job.workspaceId job.documentId job.versionId
        policy.digest).2.db.revisions = w.db.revisions ++ [Revision.fresh
          (Identifier.ofNat w.drawn) job.workspaceId job.documentId job.versionId policy.digest
          w.now] := rfl
    rw [appended]
    constructor
    · simp [List.filter_append, Revision.isFor, Revision.fresh]
    · intro a member ahead
      rcases List.mem_append.mp member with old | new
      · exact own a old ahead
      · rw [List.mem_singleton.mp new]
        simp [Revision.isFor, Revision.fresh]
  | sized d | accounted d => exact Revisions.others_update own (opened d.revisionId rfl) _
  | switched d => exact Revisions.others_update own (opened d.revisionId rfl) _
  | failed id e => exact Revisions.others_markFailed own (opened id rfl) _ _ _
  | unplanned | blank | unaccounted | vanished | unopened => exact ⟨rfl, own⟩
  | _ =>
    rw [kept (by simp [Stage.writes])]
    exact ⟨rfl, own⟩

theorem locks_kept :
    w'.db.locks.filter (fun l => !Locks.isFor job.workspaceId job.documentId l) =
      w.db.locks.filter fun l => !Locks.isFor job.workspaceId job.documentId l := by
  have kept := m.locks_kept
  have quiet := h.quiet
  have same := h.same_job
  cases m with
  | kept | mismatched | unembedded | unaccepted => simp only [quiet.embed]
  | locked | busy =>
    subst same
    exact Locks.others_acquire _ _ _ _ _ _
  | released =>
    subst same
    exact Locks.others_release _ _ _ _
  | unlocked => rfl
  | _ => rw [kept (by simp [Stage.writes])]

theorem actions_kept :
    w'.db.actions.filter (fun a =>
        (w.db.actions.latest? job.workspaceId job.baseId).map (·.id) ≠ some a.id) =
      w.db.actions.filter fun a =>
        (w.db.actions.latest? job.workspaceId job.baseId).map (·.id) ≠ some a.id := by
  have kept : .actions ∉ r.stage.writes → w'.db.actions = w.db.actions := m.frame .actions
  have quiet := h.quiet
  have same := h.same_job
  cases m with
  | kept | mismatched | unembedded | unaccepted => simp only [quiet.embed]
  | @noted job _ w reason a latest =>
    subst same
    simp only [latest]
    exact Actions.others_append _ _ _ _
  | @refreshed job _ w outcome =>
    subst same
    exact Actions.others_refreshLatest _ _ _ _ _ _
  | unnoted => rfl
  | _ => rw [kept (by simp [Stage.writes])]

theorem points_kept (memory : s.gateway = none) (name : String) :
    w'.store.others name (.ofDocument job.workspaceId job.documentId) =
        w.store.others name (.ofDocument job.workspaceId job.documentId) ∧
      ∀ p ∈ w'.store.all name, Ahead w₀.drawn p.id →
        (Filter.ofDocument job.workspaceId job.documentId).accepts p.payload = true := by
  have own := h.points
  obtain rfl := h.same_job
  rcases m.store_moves memory with
    same | ⟨d, batch, stage, _, rendered, written, after⟩ | ⟨d, previous, _, _, after⟩
  · rw [MemoryStore.others, MemoryStore.others, same]
    exact ⟨rfl, own name⟩
  · have built := points_own rendered
    have replaced : ∀ p ∈ batch, ∀ q ∈ w.store.all (collection s r.job), q.id = p.id →
        (Filter.ofDocument r.job.workspaceId r.job.documentId).accepts q.payload = true := by
      intro p inside q member same
      obtain ⟨⟨c, chunk, vector⟩, _⟩ := built p inside
      exact own _ q member
        (same.trans vector ▸ h.split d (by rw [stage]; rfl) c chunk)
    obtain ⟨others, members⟩ :=
      MemoryStore.others_write written (fun p inside => (built p inside).2) replaced name
    rw [after]
    refine ⟨others, fun p member ahead => ?_⟩
    rcases members p member with new | old
    · exact (built p new).2
    · exact own name p old ahead
  · rw [after]
    exact ⟨MemoryStore.others_delete _ _ _ _ _ _,
      fun p member => own name p (MemoryStore.mem_all_delete member)⟩

theorem opened_kept : ∀ id, r'.stage.open? = some id → Ahead w₀.drawn id := by
  have before := h.opened
  have drawn := h.drawn
  cases m with
  | opened =>
    rintro _ ⟨⟩
    exact ahead_ofNat.mpr drawn
  | chunked | missing | blank | sized | admitted | denied | authorized | refused | kept |
      mismatched | unembedded | unaccepted | embeddedAll | ensured | unensured | unrendered | written |
      unwritten | unaccounted | accounted | vanished =>
    rintro _ ⟨⟩
    exact before _ rfl
  | @refreshed _ holder =>
    intro id opened
    cases holder <;> cases opened
  | _ =>
    intro id opened
    cases opened

theorem split_kept : ∀ d, r'.stage.draft? = some d → ∀ c ∈ d.set.chunks,
    Ahead w₀.drawn c.vectorId := by
  have before := h.split
  have drawn := h.drawn
  cases m with
  | opened =>
    rintro _ ⟨⟩ c inside
    cases inside
  | chunked d doc set supply found built =>
    rintro _ ⟨⟩ c inside
    exact (((ChunkSet.build_drawn built).2.2 c inside).1).mono drawn
  | sized d | admitted d | embeddedAll d | ensured d | written d | unaccounted d | accounted d =>
    rintro _ ⟨⟩
    exact before d rfl
  | authorized d | kept d =>
    rintro _ ⟨⟩
    exact before d rfl
  | @refreshed _ holder =>
    intro d drafted
    cases holder <;> cases drafted
  | _ =>
    intro d drafted
    cases drafted

theorem move (memory : s.gateway = none) : Within s job w₀ r' w' := by
  have onward : w.db.actions.Onward (fun _ => True) w'.db.actions :=
    m.onward h.once fun _ _ _ _ _ _ => trivial
  have points := h.points_kept m memory
  refine {
    same_job := m.same_job.trans h.same_job
    quiet := h.quiet.imp_right m.each_turn
    drawn := Nat.le_trans h.drawn m.drawn_le
    once := onward.ids ▸ h.once
    latest := (onward.latest?_id _ _).trans h.latest
    opened := h.opened_kept m
    revisions := (h.revisions_kept m).2
    split := h.split_kept m
    points := fun name => (points name).2
    beyond := ?_ }
  rintro action rfl
  rw [← h.beyond _ rfl, ← h.latest, World.beyond, World.beyond, h.documents_kept m, h.jobs_kept m,
    (h.revisions_kept m).1, h.locks_kept m, h.actions_kept m]
  simp only [Beyond.mk.injEq, true_and]
  exact funext fun name => (points name).1

end Within

end Run

namespace World

variable {s : Setup} {w : World}

theorem Rostered.performAll (h : w.Rostered) (s : Setup) (ops : List Operation) :
    (w.performAll s ops).Rostered := by
  induction ops generalizing w with
  | nil => exact h
  | cons op rest ih => exact ih (h.incur s (.op op))

/-- Whatever is done on a database that was empty, with a store in memory, no identifier is used
twice. -/
theorem history_distinct (memory : s.gateway = none) (now : Int) (env : Environment) (peer : Peer)
    (ops : List Operation) :
    ((World.initial now env peer).performAll s ops).Distinct ∧
      (((World.initial now env peer).performAll s ops).housekeeping s.config).claim.2.Distinct := by
  obtain ⟨sound, filed⟩ := World.performAll_filed memory (World.initial_sound now env peer)
    (.initial s.config.store.collectionStem now env peer) ops
  have once := ((World.initial_rostered now env peer).performAll s ops).once
  obtain ⟨sound', filed'⟩ := World.claim_filed sound filed
  have onward : Actions.Onward (fun _ => True) _ _ := World.claimed_onward s once
  exact ⟨⟨sound, once, fun name p member => (filed.points name p member).1⟩,
    sound', onward.ids ▸ once, fun name p member => (filed'.points name p member).1⟩

end World

/-- The run of a job of a document, with a store in memory and a provider that does nothing but
answer, leaves alone whatever is beyond the job: however it ends, and also when its collection is
shared with other workspaces, all rows of other documents, other jobs, the revisions and locks of
other documents, all actions but the one of its base that was started last, and in every collection
the points of other documents and workspaces are after it what they were before. -/
theorem isolation (s : Setup) (w : World) (job : Job) (memory : s.gateway = none)
    (distinct : w.Distinct) (quiet : w.IsQuiet s) :
    let latest := (w.db.actions.latest? job.workspaceId job.baseId).map (·.id)
    (w.process s job).2.beyond job latest = w.beyond job latest := by
  intro latest
  have done := Run.complete_keeps (fun _ _ _ _ h m => Run.Within.move h m memory) _ _
    (Run.Within.start (s := s) job distinct quiet)
  rw [World.process_world]
  exact done.beyond latest rfl

namespace Sample

def lodger : List Operation :=
  [.outside { World.initial 1000 [] {} with usualTurn := turn }, .start "a b" "b" {},
    .put "a b" "b" "d" "v1" "hello world", .enqueue "a b" "b" "d" "v1"]

/-- One of another, which has the same collection, is to be indexed. -/
def newcomer : List Operation :=
  [.start "a_b" "b" {}, .put "a_b" "b" "d" "v1" "other words", .enqueue "a_b" "b" "d" "v1"]

def alone : World := (World.initial 1000 [] {}).performAll setup lodger

def tenant : Job := (alone.housekeeping setup.config).claim.1.getD default

def lodged : World :=
  (Run.steps setup 16 (.start tenant) (alone.housekeeping setup.config).claim.2).2

def shared : World := (World.initial 1000 [] {}).performAll setup (lodger ++ .poll :: newcomer)

theorem shared_eq : shared = lodged.performAll setup newcomer := by
  have claimed : (alone.housekeeping setup.config).claim.1 = some tenant := by decide +kernel
  have polled := World.poll_of_steps 16 claimed (by decide +kernel)
  calc shared
    _ = (alone.poll setup).2.performAll setup newcomer := List.foldl_append ..
    _ = lodged.performAll setup newcomer := by
      rw [polled]
      rfl

end Sample

theorem isolation_sample :
    let (claimed, w) := (Sample.shared.housekeeping Sample.setup.config).claim
    let job := claimed.getD default
    let latest := (w.db.actions.latest? job.workspaceId job.baseId).map (·.id)
    job.workspaceId = "a_b" ∧ latest.isSome = true ∧
      (w.beyond job latest).actions.length = 1 ∧
      ((w.beyond job latest).points (Run.collection Sample.setup job)).map (·.tag? "workspace_id") =
        [some "a b"] ∧
      (w.process Sample.setup job).2.beyond job latest = w.beyond job latest := by
  have distinct := (World.history_distinct (s := Sample.setup) rfl 1000 [] {}
    (Sample.lodger ++ .poll :: Sample.newcomer)).2
  change ((Sample.shared.housekeeping Sample.setup.config).claim.2).Distinct at distinct
  rw [Sample.shared_eq] at *
  refine ⟨?_, ?_, ?_, ?_, ?_⟩
  · decide +kernel
  · decide +kernel
  · decide +kernel
  · decide +kernel
  · exact isolation _ _ _ rfl distinct (.inr (by decide +kernel))

end IndexingPipeline
