import IndexingPipeline.Proofs.Index
import IndexingPipeline.Proofs.Watch

/-!
# What live runs rely on

With a store in memory a live run relies on what its draft says: its chunks are stored, their
points are all there or not there at all, and once its revision is switched in its document points
there. The moves of other live runs leave that alone, since each has a revision and vectors of its
own, and no two have the lock of one document. So does what is done around the runs, and a
deletion of superseded points of any document of which no run has its points written and not yet
switched in.
-/

namespace IndexingPipeline

open Identifier (Ahead ahead_ofNat)

namespace Stage

/-- Whether a run has its lock and has not yet cleaned up behind its revision, nor failed. -/
def isWithin : Stage → Bool
  | .opening _ => true
  | .cleaning _ _ => true
  | stage => stage.draft?.isSome

/-- Whether the points of a run are written and not yet switched in. -/
def isBetween : Stage → Bool
  | .accounting _ => true
  | .switching _ => true
  | _ => false

theorem isWithin_of_isBetween {stage : Stage} (h : stage.isBetween = true) :
    stage.isWithin = true := by
  cases stage <;> first | rfl | cases h

end Stage

/-- Where there is one document of a key, that document points where the key does. -/
theorem World.revision_of_pointer {w : World} (alone : Alone w.db.documents.standings)
    {workspace document id : String} (points : w.pointer workspace document = some id)
    {x : Standing} (member : x ∈ w.db.documents.standings) (here : x.workspaceId = workspace)
    (there : x.documentId = document) : x.revision = some id := by
  rw [World.pointer_eq] at points
  obtain ⟨y, found, named⟩ := Option.bind_eq_some_iff.mp points
  have key : y.isAt workspace document = true := List.find?_some found
  simp only [Standing.isAt, Bool.and_eq_true, decide_eq_true_eq] at key
  rw [alone x member y (List.mem_of_find?_eq_some found) (here.trans key.1.symm)
    (there.trans key.2.symm)]
  exact named

namespace Draft

variable {d : Draft} {w w' : World}

theorem Split.stays (h : d.Split w) (drawn : w.drawn ≤ w'.drawn)
    (sets : ∀ id c, w.db.chunkSet? id = some c → w'.db.chunkSet? id = some c) : d.Split w' where
  stored := by
    obtain ⟨moment, found⟩ := h.stored
    exact ⟨moment, sets _ _ found⟩
  once := h.once
  known := fun c member ahead => h.known c member (ahead.mono drawn)

theorem Unwritten.fewer (h : d.Unwritten w)
    (fewer : ∀ name, ∀ p ∈ w'.store.all name, p ∈ w.store.all name) : d.Unwritten w' where
  untagged := fun name p member => h.untagged name p (fewer name p member)
  fresh := fun name p member => h.fresh name p (fewer name p member)

end Draft

namespace Run

def vectors (r : Run) : List String :=
  (r.stage.draft?.map fun d => d.set.chunks.map (·.vectorId)).getD []

theorem vectorId_mem {r : Run} {d : Draft} (draft : r.stage.draft? = some d) {c : Chunk}
    (member : c ∈ d.set.chunks) : c.vectorId ∈ r.vectors := by
  rw [vectors, draft]
  exact List.mem_map_of_mem member

namespace Move

variable {s : Setup} {r r' : Run} {w w' : World} (m : Move s r w r' w')
include m

theorem within (before : r.stage.isWithin = true → r.holder.isSome = true)
    (after : r'.stage.isWithin = true) : r'.holder.isSome = true := by
  cases m with
  | locked => rfl
  | @refreshed _ holder => cases holder <;> cases after
  | _ => first | exact before rfl | cases after

/-- The vectors that a run works on are those that it worked on before, or newly drawn. -/
theorem vectors_move : ∀ x ∈ r'.vectors,
    x ∈ r.vectors ∨ Ahead w.drawn x ∧ ¬ Ahead w'.drawn x := by
  intro x member
  cases m with
  | chunked d doc set drawn found built =>
    obtain ⟨c, inside, rfl⟩ := List.mem_map.mp member
    exact .inr ((ChunkSet.build_drawn built).2.2 c inside)
  | @refreshed _ holder => cases holder <;> cases member
  | _ => first | exact .inl member | cases member

/-- A run comes to clean up only behind a switch, and then its document points at its revision. -/
theorem switched_pointer {d : Draft} {previous : Option String}
    (next : r'.stage = .cleaning d previous) :
    w'.pointer r'.job.workspaceId r'.job.documentId = some d.revisionId := by
  cases m with
  | switched _ _ found =>
    cases next
    rw [World.pointer, Documents.document?_switched found]
    rfl
  | @refreshed _ holder => cases holder <;> cases next
  | _ => cases next

end Move

/-- A run whose stage is filed, and whose document points at its revision once that is switched
in. -/
structure Stocked (s : Setup) (r : Run) (w : World) : Prop where
  filed : r.stage.Filed s r.job w
  current : ∀ d previous, r.stage = .cleaning d previous →
    w.pointer r.job.workspaceId r.job.documentId = some d.revisionId

namespace Stocked

variable {s : Setup} {r : Run} {w w' : World} (h : r.Stocked s w)
include h

/-- What has to be left alone for a run to stay stocked. -/
theorem spared (alone : Alone w'.db.documents.standings) (drawn : w.drawn ≤ w'.drawn)
    (sets : ∀ id c, w.db.chunkSet? id = some c → w'.db.chunkSet? id = some c)
    (unwritten : ∀ d, r.stage.draft? = some d → d.Unwritten w → d.Unwritten w')
    (points : ∀ d, r.stage.draft? = some d → r.stage.isBetween = true →
      w'.store.points (collection s r.job)
          (.ofRevision r.job.workspaceId r.job.documentId d.revisionId) =
        w.store.points (collection s r.job)
          (.ofRevision r.job.workspaceId r.job.documentId d.revisionId))
    (pointer : r.stage.isWithin = true →
      w'.pointer r.job.workspaceId r.job.documentId =
        w.pointer r.job.workspaceId r.job.documentId) : r.Stocked s w' := by
  obtain ⟨filed, current⟩ := h
  obtain ⟨job, holder, stage⟩ := r
  have current' : ∀ d previous, stage = .cleaning d previous →
      w'.pointer job.workspaceId job.documentId = some d.revisionId := by
    rintro d previous rfl
    exact (pointer rfl).trans (current d previous rfl)
  refine ⟨?_, current'⟩
  cases stage with
  | chunking d => exact ⟨filed.1, unwritten d rfl filed.2⟩
  | sizing d | admitting d | authorizing d | ensuring d | writing d =>
    exact ⟨filed.1, filed.2.1.stays drawn sets, unwritten d rfl filed.2.2⟩
  | embedding d left => exact ⟨filed.1, filed.2.1.stays drawn sets, unwritten d rfl filed.2.2⟩
  | accounting d | switching d =>
    refine ⟨filed.1.stays drawn sets, ?_⟩
    rw [points d rfl rfl]
    exact filed.2
  | cleaning d previous =>
    intro x member workspace document
    exact World.revision_of_pointer alone (current' d previous rfl) member workspace document
  | _ => trivial

theorem around (a : World.Around w w') (alone : Alone w.db.documents.standings)
    (all : ∀ name, w'.store.all name = w.store.all name) : r.Stocked s w' := by
  refine h.spared (a.standings.alone alone) a.drawn ?_ ?_ ?_ ?_
  · intro id c found
    rw [Database.chunkSet?, a.chunkSets]
    exact found
  · exact fun d _ unwritten => unwritten.kept rfl rfl all
  · intro d _ _
    rw [MemoryStore.points_eq, all, ← MemoryStore.points_eq]
  · intro _
    rw [World.pointer_eq, a.standings.pointer?_eq, ← World.pointer_eq]

/-- The move of another run leaves alone what a run relies on, if they work on different
revisions and vectors, and on different documents while both have their locks. -/
theorem beside {a a' : Run} (filed : a.Filed s w) (m : Move s a w a' w')
    (memory : s.gateway = none) (documents : r.stage.isWithin = true → a.stage.isWithin = true →
      ¬ r.SameDocument a)
    (revisions : ∀ id, r.stage.open? = some id → a.stage.open? ≠ some id)
    (vectors : ∀ x ∈ r.vectors, x ∉ a.vectors) : r.Stocked s w' := by
  refine h.spared (m.alone filed.world.alone) m.drawn_le (fun _ _ => m.chunkSet?_stays) ?_ ?_ ?_
  · intro d draft unwritten
    rcases m.store_moves memory with
      same | ⟨d', batch, stage, _, rendered, written, after⟩ | ⟨d', _, stage, _, after⟩
    · exact unwritten.kept rfl rfl same
    · obtain ⟨ids, allOf, stored⟩ := filed.batch_written stage rendered written
      have draft' : a.stage.draft? = some d' := by rw [stage]; rfl
      have new : ∀ name, ∀ p ∈ w'.store.all name, p ∈ w.store.all name ∨ p ∈ batch := by
        intro name p member
        rw [after, stored] at member
        split at member
        · rename_i here
          exact here ▸ List.mem_append.mp member
        · exact .inl member
      constructor
      · intro name p member tagged
        rcases new name p member with old | fresh
        · exact unwritten.untagged name p old tagged
        · rw [(allOf p fresh).revision] at tagged
          exact revisions d.revisionId (Stage.open?_of_draft? draft)
            (Option.some.inj tagged ▸ Stage.open?_of_draft? draft')
      · intro name p member c inside same
        rcases new name p member with old | fresh
        · exact unwritten.fresh name p old c inside same
        · have vector : p.id ∈ d'.set.chunks.map (·.vectorId) := ids ▸ List.mem_map_of_mem fresh
          obtain ⟨c', inside', own⟩ := List.mem_map.mp vector
          exact vectors c.vectorId (vectorId_mem draft inside)
            (same ▸ own ▸ vectorId_mem draft' inside')
    · exact unwritten.fewer fun name p member => MemoryStore.mem_all_delete (after ▸ member)
  · intro d draft between
    refine filed.points_kept m memory ?_ ?_ _
    · rintro d' stage same
      refine revisions d.revisionId (Stage.open?_of_draft? draft) ?_
      rw [stage, ← same]
      rfl
    · intro d' previous stage workspace document
      exact absurd ⟨workspace, document⟩
        (documents (Stage.isWithin_of_isBetween between) (by rw [stage]; rfl))
  · intro within
    rcases m.pointer_moves r.job.workspaceId r.job.documentId with
      same | ⟨d', stage, _, workspace, document, _⟩
    · exact same
    · exact absurd ⟨workspace, document⟩ (documents within (by rw [stage]; rfl))

/-- A deletion of superseded points of a document of which the run has none in between. -/
theorem swept (alone : Alone w.db.documents.standings) {workspace document id : String}
    (elsewhere : r.stage.isBetween = true →
      ¬ (r.job.workspaceId = workspace ∧ r.job.documentId = document)) (name : String) :
    r.Stocked s { w with
      store := (w.store.delete name (.superseded workspace document id)).2 } := by
  refine h.spared alone (Nat.le_refl _) (fun _ _ found => found) ?_ ?_ fun _ => rfl
  · exact fun d _ unwritten => unwritten.fewer fun _ _ member => MemoryStore.mem_all_delete member
  · intro d _ between
    refine MemoryStore.points_delete _ _ ?_ _
    intro here there
    exact absurd ⟨here, there⟩ (elsewhere between)

end Stocked

end Run

namespace Watch

/-- Every live run is stocked, all that runs work on is known, and no two of them work on the
same vectors. -/
structure Stocked (s : Setup) (v : Watch) : Prop where
  kept : v.Kept s
  world : v.world.Filed s.config.store.collectionStem
  within : ∀ (i : Nat) (r : Run), v.crew.runs[i]? = some r → r.stage.isWithin = true →
    r.holder.isSome = true
  stocked : ∀ (i : Nat) (r : Run), v.crew.runs[i]? = some r → i ∉ v.dead → r.Stocked s v.world
  known : ∀ (i : Nat) (r : Run), v.crew.runs[i]? = some r → ∀ x ∈ r.vectors,
    ¬ Ahead v.world.drawn x
  apart : ∀ (i j : Nat) (a b : Run), v.crew.runs[i]? = some a → v.crew.runs[j]? = some b →
    i ≠ j → ∀ x ∈ a.vectors, x ∉ b.vectors

theorem initial_stocked (s : Setup) (now : Int) (env : Environment) (peer : Peer) :
    (initial now env peer).Stocked s where
  kept := initial_kept s now env peer
  world := .initial s.config.store.collectionStem now env peer
  within := fun _ _ there => by cases there
  stocked := fun _ _ there => by cases there
  known := fun _ _ there => by cases there
  apart := fun _ _ _ _ there => by cases there

namespace Stocked

variable {s : Setup} {v : Watch} (h : v.Stocked s)
include h

/-- Two live runs that have their locks are for different documents. -/
theorem elsewhere {i j : Nat} {a b : Run} (hereA : v.crew.runs[i]? = some a)
    (hereB : v.crew.runs[j]? = some b) (aliveA : i ∉ v.dead) (aliveB : j ∉ v.dead) (ne : i ≠ j)
    (withinA : a.stage.isWithin = true) (withinB : b.stage.isWithin = true) :
    ¬ a.SameDocument b := by
  have inside : ∀ {r : Run}, r.stage.isWithin = true → r.holder.isSome = true →
      r.isInside = true := by
    intro r within held
    have going : r.stage.isOver = false := by
      generalize r.stage = stage at within
      cases stage <;> first | rfl | cases within
    rw [Run.isInside, held, going]
    rfl
  intro same
  exact ne (h.kept.one_inside ⟨hereA, aliveA, inside withinA (h.within i a hereA withinA)⟩
    ⟨hereB, aliveB, inside withinB (h.within j b hereB withinB)⟩ same)

theorem around {w : World} {runs : List Run} (a : v.world.Around w)
    (kept : Kept s ⟨⟨w, runs⟩, v.posts, v.dead⟩)
    (began : ∃ jobs : List Job, runs = v.crew.runs ++ jobs.map Run.start)
    (all : ∀ name, w.store.all name = v.world.store.all name) :
    Stocked s ⟨⟨w, runs⟩, v.posts, v.dead⟩ where
  kept := kept
  world := h.world.around a all
  within := by
    intro i r there within
    rcases Crew.getElem?_started began there with old | ⟨job, rfl⟩
    · exact h.within i r old within
    · cases within
  stocked := by
    intro i r there alive
    rcases Crew.getElem?_started began there with old | ⟨job, rfl⟩
    · exact (h.stocked i r old alive).around a h.world.alone all
    · exact ⟨trivial, fun _ _ stage => by cases stage⟩
  known := by
    intro i r there x member ahead
    rcases Crew.getElem?_started began there with old | ⟨job, rfl⟩
    · exact h.known i r old x member (ahead.mono a.drawn)
    · cases member
  apart := by
    intro i j a b thereA thereB ne x memberA memberB
    rcases Crew.getElem?_started began thereA with oldA | ⟨job, rfl⟩
    · rcases Crew.getElem?_started began thereB with oldB | ⟨job, rfl⟩
      · exact h.apart i j a b oldA oldB ne x memberA memberB
      · cases memberB
    · cases memberA

variable (memory : s.gateway = none)
include memory

theorem move {place : Nat} {r r' : Run} {w : World} {posts : Nat → Post}
    (here : v.crew.runs[place]? = some r) (alive : place ∉ v.dead)
    (m : Run.Move s r v.world r' w) (kept : Kept s ⟨⟨w, v.crew.runs.set place r'⟩, posts, v.dead⟩) :
    Stocked s ⟨⟨w, v.crew.runs.set place r'⟩, posts, v.dead⟩ := by
  have good := h.kept.good
  have own := h.stocked place r here alive
  have filed : r.Filed s v.world := ⟨good.sound, good.known place r here,
    good.drafted place r here, h.world, own.filed⟩
  have fresh : ∀ (i : Nat) (b : Run), i ≠ place → v.crew.runs[i]? = some b →
      ∀ x ∈ b.vectors, x ∉ r'.vectors := by
    intro i b ne old x member own
    rcases m.vectors_move x own with before | ⟨ahead, _⟩
    · exact h.apart i place b r old here ne x member before
    · exact h.known i b old x member ahead
  refine ⟨kept, filed.world_kept m memory, ?_, ?_, ?_, ?_⟩
  · intro i b there within
    rcases Crew.getElem?_moved there with ⟨rfl, rfl⟩ | ⟨_, old⟩
    · exact m.within (h.within i r here) within
    · exact h.within i b old within
  · intro i b there alive'
    rcases Crew.getElem?_moved there with ⟨rfl, rfl⟩ | ⟨ne, old⟩
    · exact ⟨filed.stage_kept m memory, fun _ _ => m.switched_pointer⟩
    · exact (h.stocked i b old alive').beside filed m memory
        (h.elsewhere old here alive' alive ne) (good.apart i place b r old here ne)
        (h.apart i place b r old here ne)
  · intro i b there x member ahead
    rcases Crew.getElem?_moved there with ⟨rfl, rfl⟩ | ⟨_, old⟩
    · rcases m.vectors_move x member with before | ⟨_, drawn⟩
      · exact h.known i r here x before (ahead.mono m.drawn_le)
      · exact drawn ahead
    · exact h.known i b old x member (ahead.mono m.drawn_le)
  · intro i j a b thereA thereB ne x memberA memberB
    rcases Crew.getElem?_moved thereA with ⟨rfl, rfl⟩ | ⟨neA, oldA⟩
    · rcases Crew.getElem?_moved thereB with ⟨rfl, _⟩ | ⟨neB, oldB⟩
      · exact ne rfl
      · exact fresh j b neB oldB x memberB memberA
    · rcases Crew.getElem?_moved thereB with ⟨rfl, rfl⟩ | ⟨_, oldB⟩
      · exact fresh i a neA oldA x memberA memberB
      · exact h.apart i j a b oldA oldB ne x memberA memberB

variable (inTime : v.InTime s)
include inTime

theorem step {place : Nat} (alive : place ∉ v.dead) : (v.step s place).Stocked s := by
  have kept := h.kept.step inTime alive
  have hushed := h.around (v.world.outside_around v.world.hushed) (h.kept.hushed inTime)
    ⟨[], (List.append_nil _).symm⟩ fun _ => rfl
  cases here : v.crew.runs[place]? with
  | none =>
    unfold Watch.step
    rw [here]
    exact h
  | some r =>
    by_cases ended : r.stage.isOver = true
    · rw [step_over s here ended]
      exact hushed
    · have m := Run.step_move s r v.world.hushed (by simpa using ended)
      unfold Watch.step at kept ⊢
      rw [here] at kept ⊢
      exact hushed.move memory here alive m kept

theorem turn (e : Event) : (v.turn s e).Stocked s := by
  have kept := h.kept.turn inTime e
  have began := v.turn_runs s e
  cases e with
  | step place =>
    simp only [Watch.turn] at kept ⊢
    split
    · exact h
    · exact h.step memory inTime ‹_›
  | die place =>
    refine ⟨kept, h.world, h.within, fun i r there alive => ?_, h.known, h.apart⟩
    exact h.stocked i r there fun dead => alive (List.mem_cons_of_mem _ dead)
  | start job => exact h.around (.refl _) kept (began (by simp)) fun _ => rfl
  | claim =>
    have world : (v.turn s .claim).world = v.world.claim.2 := v.crew.claim_world
    have around : v.world.Around (v.turn s .claim).world := by
      rw [world]
      exact v.world.claim_around
    have all : ∀ name, (v.turn s .claim).world.store.all name = v.world.store.all name := by
      intro name
      rw [world]
      rfl
    exact h.around around kept (began (by simp)) all
  | recover =>
    exact h.around (v.world.recover_around s.config.worker) kept (began (by simp)) fun _ => rfl
  | failAbandoned olderThan =>
    exact h.around (v.world.failAbandoned_around _ _) kept (began (by simp)) fun _ => rfl
  | put workspace base document version body =>
    exact h.around (.of_meanwhile (v.world.put_meanwhile workspace base document version body))
      kept (began (by simp)) fun _ => rfl
  | enqueue workspace base document version =>
    exact h.around (.of_meanwhile (v.world.enqueue_meanwhile workspace base document version))
      kept (began (by simp)) fun _ => rfl
  | onActions f => exact h.around (v.world.onActions_around f) kept (began (by simp)) fun _ => rfl
  | lock workspace document =>
    exact h.around (.of_meanwhile (v.world.interfere_meanwhile s.config (.lock workspace document)))
      kept (began (by simp)) fun _ => rfl
  | advance | inject | outside =>
    exact h.around (v.world.outside_around _) kept (began (by simp)) fun _ => rfl

end Stocked

end Watch

end IndexingPipeline
