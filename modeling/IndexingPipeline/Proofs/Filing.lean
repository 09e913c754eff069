import IndexingPipeline.Proofs.Around
import IndexingPipeline.Proofs.Chunks
import IndexingPipeline.Proofs.Points

/-!
# How the index is filed

A world is filed when the store in memory holds, of every revision that a document points at,
the points of its stored chunks and no others, and holds nothing that is still to be drawn. A
run is filed when its draft's chunks are stored, and their points are all there once they have
been written and not there at all before. With a store in memory every move keeps both.
-/

namespace IndexingPipeline

open Identifier (Ahead ahead_ofNat)

namespace World

/-- The revision a document points at has the document's chunk set, and as many points as that
has chunks: one for each, in order, in the collection of the document's workspace. -/
def Indexes (stem : String) (w : World) (x : Standing) (id : String) : Prop :=
  ∃ a stored, w.db.revisions.revision? id = some a ∧ x.chunkSet = some stored.set.id ∧
    w.db.chunkSet? stored.set.id = some stored ∧
    a.chunkCount = stored.set.chunks.length ∧
    (w.store.points (collectionName stem x.workspaceId)
      (.ofRevision x.workspaceId x.documentId id)).map (·.id) =
        stored.set.chunks.map (·.vectorId)

structure Filed (stem : String) (w : World) : Prop where
  sets : ∀ c ∈ w.db.chunkSets, ¬ Ahead w.drawn c.set.id
  points : ∀ name, ∀ p ∈ w.store.all name, ¬ Ahead w.drawn p.id ∧
    ∀ id, p.tag? "revision_id" = some id → ¬ Ahead w.drawn id
  alone : Alone w.db.documents.standings
  indexed : ∀ x ∈ w.db.documents.standings, ∀ id, x.revision = some id → w.Indexes stem x id

theorem chunkSet?_append {db db' : Database} {new : List StoredChunkSet}
    (sets : db'.chunkSets = db.chunkSets ++ new) {id : String} {c : StoredChunkSet}
    (found : db.chunkSet? id = some c) : db'.chunkSet? id = some c := by
  unfold Database.chunkSet? at found ⊢
  rw [sets, List.find?_append, found]
  rfl

end World

namespace Draft

/-- The chunks of a draft are stored, and no two of them have one vector. -/
structure Split (d : Draft) (w : World) : Prop where
  stored : ∃ moment, w.db.chunkSet? d.set.id = some ⟨d.set, moment⟩
  once : (d.set.chunks.map (·.vectorId)).Nodup
  known : ∀ c ∈ d.set.chunks, ¬ Ahead w.drawn c.vectorId

/-- No point is of the draft's revision or has a vector of its chunks. -/
structure Unwritten (d : Draft) (w : World) : Prop where
  untagged : ∀ name, ∀ p ∈ w.store.all name, p.tag? "revision_id" ≠ some d.revisionId
  fresh : ∀ name, ∀ p ∈ w.store.all name, ∀ c ∈ d.set.chunks, p.id ≠ c.vectorId

variable {d d' : Draft} {w w' : World}

theorem Split.kept (h : d.Split w) (same : d'.set = d.set) (drawn : w.drawn ≤ w'.drawn)
    (sets : w'.db.chunkSets = w.db.chunkSets) : d'.Split w' where
  stored := by
    obtain ⟨moment, found⟩ := h.stored
    refine ⟨moment, ?_⟩
    unfold Database.chunkSet? at found ⊢
    rw [sets, same]
    exact found
  once := same ▸ h.once
  known := fun c member ahead => h.known c (same ▸ member) (ahead.mono drawn)

theorem Unwritten.kept (h : d.Unwritten w) (revision : d'.revisionId = d.revisionId)
    (same : d'.set = d.set) (all : ∀ name, w'.store.all name = w.store.all name) :
    d'.Unwritten w' where
  untagged := fun name p member => revision ▸ h.untagged name p (all name ▸ member)
  fresh := fun name p member c inside => h.fresh name p (all name ▸ member) c (same ▸ inside)

end Draft

def Stage.Filed (s : Setup) (job : Job) (w : World) : Stage → Prop
  | .chunking d => d.vectors = [] ∧ d.Unwritten w
  | .sizing d | .admitting d | .authorizing d =>
    d.vectors = [] ∧ d.Split w ∧ d.Unwritten w
  | .embedding d left =>
    d.vectors.length + left.length = d.set.chunks.length ∧ d.Split w ∧ d.Unwritten w
  | .ensuring d | .writing d =>
    d.vectors.length = d.set.chunks.length ∧ d.Split w ∧ d.Unwritten w
  | .accounting d | .switching d =>
    d.Split w ∧ (w.store.points (Run.collection s job)
      (.ofRevision job.workspaceId job.documentId d.revisionId)).map (·.id) =
        d.set.chunks.map (·.vectorId)
  | .cleaning d _ => ∀ x ∈ w.db.documents.standings, x.workspaceId = job.workspaceId →
    x.documentId = job.documentId → x.revision = some d.revisionId
  | _ => True

namespace Run

namespace Move

variable {s : Setup} {r r' : Run} {w w' : World} (m : Move s r w r' w')
include m

theorem alone (alone : Alone w.db.documents.standings) : Alone w'.db.documents.standings := by
  have kept := m.documents_kept
  cases m with
  | kept | mismatched | unembedded | unaccepted =>
    exact (w.embed_meanwhile s _ _ _).standings.alone alone
  | switched =>
    simp only [Documents.standings_markUpToDate, Documents.standings_switch]
    exact alone.switched _ _ _ _
  | marked =>
    rw [World.onDocuments, Documents.standings_markError]
    exact alone
  | vanished => exact alone
  | _ =>
    rw [kept (by simp [Stage.writes])]
    exact alone

theorem chunkSet?_stays {id : String} {c : StoredChunkSet}
    (found : w.db.chunkSet? id = some c) : w'.db.chunkSet? id = some c := by
  have kept := m.chunkSets_kept
  cases m with
  | chunked => exact World.chunkSet?_append rfl found
  | missing => exact found
  | _ =>
    have same := kept (by simp [Stage.writes])
    exact World.chunkSet?_append (same.trans (List.append_nil _).symm) found

end Move

structure Filed (s : Setup) (r : Run) (w : World) : Prop where
  sound : w.Sound
  known : r.Known w
  drafted : r.Drafted w
  world : w.Filed s.config.store.collectionStem
  stage : r.stage.Filed s r.job w

namespace Filed

variable {s : Setup} {r r' : Run} {w w' : World} (h : r.Filed s w) (m : Move s r w r' w')
  (memory : s.gateway = none)
include h

/-- A batch that is written stands behind all other points of the collection. -/
theorem batch_written {d : Draft} {batch : List Point} (stage : r.stage = .writing d)
    (rendered : points r.job d = .ok batch)
    (written : (w.store.write (collection s r.job) batch).1 = .ok ()) :
    batch.map (·.id) = d.set.chunks.map (·.vectorId) ∧
      (∀ p ∈ batch, p.IsOf r.job.workspaceId r.job.documentId d.revisionId) ∧
      ∀ other, (w.store.write (collection s r.job) batch).2.all other =
        if other = collection s r.job then w.store.all (collection s r.job) ++ batch
        else w.store.all other := by
  have filed := h.stage
  rw [stage] at filed
  obtain ⟨count, split, unwritten⟩ := filed
  obtain ⟨ids, _, allOf⟩ := points_spec count rendered
  refine ⟨ids, allOf, MemoryStore.all_write written (ids ▸ split.once) ?_⟩
  intro p inside q member same
  have vector : p.id ∈ d.set.chunks.map (·.vectorId) := ids ▸ List.mem_map_of_mem inside
  obtain ⟨c, chunk, own⟩ := List.mem_map.mp vector
  exact unwritten.fresh _ q member c chunk (same.trans own.symm)

include m

include memory

/-- What is filed for a run stays filed as its moves lead on. -/
theorem stage_kept : r'.stage.Filed s r'.job w' := by
  have all := m.all_kept memory
  have drawn := m.drawn_le
  have sets := m.chunkSets_kept
  have stage := h.stage
  have world := h.world
  have batch_written := @h.batch_written
  cases m with
  | opened settings policy provider =>
    refine ⟨rfl, ?_, ?_⟩
    · intro name p member tagged
      exact (world.points name p member).2 _ tagged (ahead_ofNat.mpr (Nat.le_refl _))
    · intro name p member c inside
      cases inside
  | @chunked job _ w d doc set drawn found built =>
    obtain ⟨vectors, unwritten⟩ := stage
    obtain ⟨ahead, _, chunks⟩ := ChunkSet.build_drawn built
    refine ⟨vectors, ⟨⟨w.now, ?_⟩, ChunkSet.build_nodup built, ?_⟩, ⟨unwritten.untagged, ?_⟩⟩
    · have absent : w.db.chunkSets.find? (·.set.id = set.id) = none := by
        rw [List.find?_eq_none]
        intro c member same
        exact world.sets c member (of_decide_eq_true same ▸ ahead)
      unfold Database.chunkSet?
      rw [List.find?_append, absent]
      simp
    · exact fun c member => (chunks c member).2
    · intro name p member c inside same
      exact (world.points name p member).1 (same ▸ (chunks c inside).1)
  | sized | admitted | authorized | ensured =>
    obtain ⟨vectors, split, unwritten⟩ := stage
    refine ⟨?_, split.kept rfl drawn (sets (by simp [Stage.writes])),
      unwritten.kept rfl rfl (all (by simp) (by simp))⟩
    simp [vectors]
  | embeddedAll =>
    obtain ⟨vectors, split, unwritten⟩ := stage
    exact ⟨by simpa using vectors, split, unwritten⟩
  | kept d c left e =>
    obtain ⟨vectors, split, unwritten⟩ := stage
    refine ⟨?_, split.kept rfl drawn (sets (by simp [Stage.writes])),
      unwritten.kept rfl rfl (all (by simp) (by simp))⟩
    simp only [List.length_append, List.length_cons, List.length_nil] at vectors ⊢
    omega
  | @written job _ w d batch rendered written =>
    obtain ⟨_, split, unwritten⟩ := stage
    refine ⟨split.kept rfl drawn (sets (by simp [Stage.writes])), ?_⟩
    rw [w.writePoints_memory memory] at written ⊢
    obtain ⟨ids, allOf, stored⟩ := batch_written rfl rendered written
    simp only [MemoryStore.points_eq, stored, if_true, List.filter_append, List.map_append]
    have none_before : (w.store.all (collection s job)).filter (fun p =>
        (Filter.ofRevision job.workspaceId job.documentId d.revisionId).accepts p.payload) =
          [] := by
      rw [List.filter_eq_nil_iff]
      intro p member accepted
      exact unwritten.untagged _ p member (Filter.accepts_ofRevision.mp accepted).revision
    have all_new : batch.filter (fun p =>
        (Filter.ofRevision job.workspaceId job.documentId d.revisionId).accepts p.payload) =
          batch := by
      rw [List.filter_eq_self]
      exact fun p inside => Filter.accepts_ofRevision.mpr (allOf p inside)
    rw [none_before, all_new, ← ids]
    rfl
  | unaccounted | accounted =>
    obtain ⟨split, placed⟩ := stage
    exact ⟨split.kept rfl drawn (sets (by simp [Stage.writes])), placed⟩
  | switched d =>
    intro x member workspace document
    simp only [Documents.standings_markUpToDate, Documents.standings_switch, List.mem_map]
      at member
    obtain ⟨y, old, rfl⟩ := member
    unfold Standing.switched at workspace document ⊢
    split at workspace
    · rename_i here
      rw [if_pos here]
    · rename_i elsewhere
      rw [if_neg elsewhere] at document
      exact absurd (by simp [Standing.isAt, workspace, document]) elsewhere
  | @refreshed _ holder => cases holder <;> trivial
  | _ => trivial

/-- The points of a revision stay where they are, unless the run writes them, or cleans up behind
another revision of the document. -/
theorem points_kept {workspace document id : String}
    (unwritten : ∀ d, r.stage = .writing d → d.revisionId ≠ id)
    (spared : ∀ d previous, r.stage = .cleaning d previous → workspace = r.job.workspaceId →
      document = r.job.documentId → id = d.revisionId) (name : String) :
    w'.store.points name (.ofRevision workspace document id) =
      w.store.points name (.ofRevision workspace document id) := by
  rcases m.store_moves memory with
    same | ⟨d, batch, stage, _, rendered, written, after⟩ | ⟨d, previous, stage, _, after⟩
  · simp only [MemoryStore.points_eq, same]
  · obtain ⟨_, allOf, stored⟩ := h.batch_written stage rendered written
    simp only [MemoryStore.points_eq, after, stored]
    split
    · rename_i here
      have none_new : batch.filter (fun p =>
          (Filter.ofRevision workspace document id).accepts p.payload) = [] := by
        rw [List.filter_eq_nil_iff]
        intro p inside accepted
        have tagged := (Filter.accepts_ofRevision.mp accepted).revision
        rw [(allOf p inside).revision] at tagged
        exact unwritten d stage (Option.some.inj tagged)
      rw [List.filter_append, none_new, List.append_nil, here]
    · rfl
  · rw [after]
    exact MemoryStore.points_delete _ _ (spared d previous stage) name

/-- The points of a revision that a document points at stay where they are. -/
theorem points_stay {x : Standing} {id : String} (member : x ∈ w.db.documents.standings)
    (points : x.revision = some id) (name : String) :
    w'.store.points name (.ofRevision x.workspaceId x.documentId id) =
      w.store.points name (.ofRevision x.workspaceId x.documentId id) := by
  refine h.points_kept m memory ?_ ?_ name
  · rintro d stage rfl
    exact h.drafted.unpointed d.revisionId (by rw [stage]; rfl) x member points
  · intro d previous stage workspace document
    have current := h.stage
    rw [stage] at current
    exact Option.some.inj (points.symm.trans (current x member workspace document))

/-- What a document that points somewhere finds there, it still finds. -/
theorem indexes_stay {x : Standing} {id : String} (member : x ∈ w.db.documents.standings)
    (points : x.revision = some id) :
    w'.Indexes s.config.store.collectionStem x id := by
  obtain ⟨a, stored, found, named, set, count, placed⟩ := h.world.indexed x member id points
  have other : ∀ d, r.stage = .sizing d → d.revisionId ≠ id := by
    rintro d stage rfl
    exact h.drafted.unpointed d.revisionId (by rw [stage]; rfl) x member points
  obtain ⟨b, found, ends⟩ := m.row_ends found other
  refine ⟨b, stored, found, named, m.chunkSet?_stays set, ends.chunkCount.trans count, ?_⟩
  rw [h.points_stay m memory member points]
  exact placed

theorem world_kept : w'.Filed s.config.store.collectionStem where
  sets := by
    have drawn := m.drawn_le
    have kept := m.chunkSets_kept
    have old := h.world.sets
    cases m with
    | chunked d doc set drawn found built =>
      intro c member ahead
      rcases List.mem_append.mp member with before | new
      · exact old c before (ahead.mono (by assumption))
      · rw [List.mem_singleton.mp new] at ahead
        exact (ChunkSet.build_drawn built).2.1 ahead
    | missing => exact old
    | _ =>
      intro c member ahead
      rw [kept (by simp [Stage.writes])] at member
      exact old c member (ahead.mono (by assumption))
  points := by
    have drawn := m.drawn_le
    have old := h.world.points
    have later : ∀ name, ∀ p ∈ w.store.all name, ¬ Ahead w'.drawn p.id ∧
        ∀ id, p.tag? "revision_id" = some id → ¬ Ahead w'.drawn id := by
      intro name p member
      obtain ⟨own, tagged⟩ := old name p member
      exact ⟨fun ahead => own (ahead.mono drawn),
        fun id tag ahead => tagged id tag (ahead.mono drawn)⟩
    rcases m.store_moves memory with
      same | ⟨d, batch, stage, _, rendered, written, after⟩ | ⟨d, previous, stage, _, after⟩
    · intro name p member
      exact later name p (same name ▸ member)
    · obtain ⟨ids, allOf, stored⟩ := h.batch_written stage rendered written
      have filed := h.stage
      rw [stage] at filed
      intro name p member
      rw [after, stored] at member
      split at member
      · rcases List.mem_append.mp member with before | new
        · exact later _ p before
        · have vector : p.id ∈ d.set.chunks.map (·.vectorId) := ids ▸ List.mem_map_of_mem new
          obtain ⟨c, chunk, own⟩ := List.mem_map.mp vector
          refine ⟨?_, ?_⟩
          · intro ahead
            exact filed.2.1.known c chunk (own ▸ ahead.mono drawn)
          · intro id tag ahead
            rw [(allOf p new).revision] at tag
            obtain rfl := Option.some.inj tag
            exact h.known.revision d.revisionId (by rw [stage]; rfl) (ahead.mono drawn)
      · exact later _ p member
    · intro name p member
      rw [after] at member
      exact later name p (MemoryStore.mem_all_delete member)
  alone := m.alone h.world.alone
  indexed := by
    intro x member id points
    rcases m.pointed member points with
      old | ⟨d, previous, stage, next, rfl, named, workspace, document⟩
    · exact h.indexes_stay m memory old points
    · obtain ⟨a, found, _, _, sized⟩ := h.drafted.row d (by rw [stage]; rfl)
      obtain ⟨b, found, ends, _⟩ := m.switched_ready stage next found
      have filed := h.stage
      rw [stage] at filed
      obtain ⟨split, placed⟩ := filed
      obtain ⟨moment, set⟩ := split.stored
      refine ⟨b, ⟨d.set, moment⟩, found, named, m.chunkSet?_stays set,
        ends.chunkCount.trans (sized (by rw [stage]; rfl)).2, ?_⟩
      have same : w'.store = w.store := m.store_kept (by rw [stage]; simp [Stage.writes])
      rw [same, workspace, document]
      exact placed

/-- Every move keeps a run and its world filed. -/
theorem move : r'.Filed s w' where
  sound := m.sound h.sound h.known
  known := m.known h.known
  drafted := m.drafted h.sound h.drafted
  world := h.world_kept m memory
  stage := h.stage_kept m memory

end Filed

end Run

end IndexingPipeline
