import IndexingPipeline.Proofs.Around

/-!
# Switching over while others are at work

Any number of workers, each under a setup of its own, take turns: one begins a run, or does the
next step of one, or looks after what dead workers have left behind, while documents are written
and services become anything. A worker that gets no further turn has died. In whatever order the
turns come, a document points at a ready revision of its own with the chunks that it names; it
never comes to point nowhere again, and a revision that was switched in stays ready.
-/

namespace IndexingPipeline

open Identifier (Ahead)

/-- Runs that are under way in one world. -/
structure Crew where
  world : World
  runs : List Run

/-- What can be done next: a step of any run, or something that another party does. -/
inductive Turn where
  /-- Begin a run for a job, claimed or not. -/
  | start (job : Job)
  | claim
  | step (s : Setup) (place : Nat)
  | recover (settings : WorkerSettings)
  /-- Fail the revisions that were opened before a moment and whose run has not ended. -/
  | failAbandoned (olderThan : Int)
  | markFailed (id reason : String)
  | put (workspace base document version body : String)
  | enqueue (workspace base document version : String)
  | onActions (f : Actions → Actions)
  | interfere (cfg : Config) (i : Interference)
  /-- Everything outside the database becomes as it is elsewhere. -/
  | outside (elsewhere : World)

namespace Crew

def initial (now : Int) (env : Environment) (peer : Peer) : Crew :=
  ⟨World.initial now env peer, []⟩

def turn (c : Crew) : Turn → Crew
  | .start job => { c with runs := c.runs ++ [.start job] }
  | .claim =>
    match c.world.claim with
    | (none, w) => { c with world := w }
    | (some job, w) => ⟨w, c.runs ++ [.start job]⟩
  | .step s place =>
    match c.runs[place]? with
    | none => c
    | some r => ⟨(r.step s c.world).2, c.runs.set place (r.step s c.world).1⟩
  | .recover settings => ⟨c.world.onJobs fun q => (q.recover settings c.world.now).2, c.runs⟩
  | .failAbandoned olderThan =>
    ⟨c.world.onRevisions fun rs =>
      (rs.failAbandoned c.world.db.documents c.world.now olderThan).2, c.runs⟩
  | .markFailed id reason =>
    ⟨c.world.onRevisions fun rs =>
      (rs.markFailed c.world.db.documents c.world.now id reason).2, c.runs⟩
  | .put workspace base document version body =>
    ⟨c.world.onDocuments (·.put c.world.now workspace base document version body), c.runs⟩
  | .enqueue workspace base document version =>
    ⟨(c.world.enqueue workspace base document version).2, c.runs⟩
  | .onActions f => ⟨c.world.onActions f, c.runs⟩
  | .interfere cfg i => ⟨c.world.interfere cfg i, c.runs⟩
  | .outside elsewhere =>
    ⟨{ elsewhere with drawn := c.world.drawn, db := c.world.db }, c.runs⟩

def play (c : Crew) (turns : List Turn) : Crew := turns.foldl turn c

end Crew

namespace World

/-- Every document that points somewhere points at a ready revision of its own, with the chunks
that it names. -/
def Coherent (w : World) : Prop :=
  ∀ x ∈ w.db.documents.standings, ∀ id, x.revision = some id →
    ∃ a setId, w.db.revisions.revision? id = some a ∧
      a.workspaceId = x.workspaceId ∧ a.documentId = x.documentId ∧ a.status = .ready ∧
      a.chunkSetId = some setId ∧ x.chunkSet = some setId

/-- What holds of a world ever after. -/
structure Later (w w' : World) : Prop where
  pointers : ∀ workspace id, w.pointer workspace id ≠ none → w'.pointer workspace id ≠ none
  ready : ∀ id a, w.db.revisions.revision? id = some a → a.status = .ready →
    ∃ b, w'.db.revisions.revision? id = some b ∧ b.status = .ready

theorem Later.refl (w : World) : Later w w :=
  ⟨fun _ _ points => points, fun _ a found ready => ⟨a, found, ready⟩⟩

theorem Later.trans {a b c : World} (ab : Later a b) (bc : Later b c) : Later a c where
  pointers := fun workspace id points =>
    bc.pointers workspace id (ab.pointers workspace id points)
  ready := by
    intro id x found ready
    obtain ⟨y, found, ready⟩ := ab.ready id x found ready
    exact bc.ready id y found ready

theorem Around.later {w w' : World} (h : Around w w') : Later w w' where
  pointers := by
    intro workspace id points
    rw [pointer_eq, h.standings.pointer?_eq, ← pointer_eq]
    exact points
  ready := by
    intro id a found ready
    obtain ⟨b, found, ends⟩ := h.revisions id a found
    exact ⟨b, found, ends.ready ready⟩

theorem Around.coherent {w w' : World} (h : Around w w') (coherent : w.Coherent) :
    w'.Coherent := by
  intro x member id points
  have old := (h.standings.mem_iff (by simp [points])).mp member
  obtain ⟨a, setId, found, workspace, document, ready, set, named⟩ := coherent x old id points
  obtain ⟨b, found, ends⟩ := h.revisions id a found
  exact ⟨b, setId, found, ends.workspaceId.trans workspace, ends.documentId.trans document,
    ends.ready ready, ends.chunkSetId.trans set, named⟩

end World

namespace Run.Move

variable {s : Setup} {r r' : Run} {w w' : World}

theorem later (m : Move s r w r' w') : w.Later w' where
  pointers := by
    intro workspace id points
    rcases m.pointer_moves workspace id with same | ⟨d, _, _, _, _, moved⟩
    · rw [same]
      exact points
    · simp [moved]
  ready := fun _ _ found ready => m.ready_stays found ready

/-- A run's own revision is no document's until it is switched in, and then it is ready and
says which chunks it has. -/
theorem coherent (m : Move s r w r' w') (drafted : r.Drafted w) (coherent : w.Coherent) :
    w'.Coherent := by
  intro x member id points
  rcases m.pointed member points with
    old | ⟨d, previous, stage, next, rfl, named, workspace', document'⟩
  · obtain ⟨a, setId, found, workspace, document, ready, set, named⟩ := coherent x old id points
    have other : ∀ d, r.stage = .sizing d → d.revisionId ≠ id := by
      rintro d stage rfl
      exact drafted.unpointed d.revisionId (by rw [stage]; rfl) x old points
    obtain ⟨b, found, ends⟩ := m.row_ends found other
    exact ⟨b, setId, found, ends.workspaceId.trans workspace, ends.documentId.trans document,
      ends.ready ready, ends.chunkSetId.trans set, named⟩
  · obtain ⟨a, found, workspace, document, sized⟩ := drafted.row d (by rw [stage]; rfl)
    obtain ⟨set, _⟩ := sized (by rw [stage]; rfl)
    obtain ⟨b, found, ends, ready⟩ := m.switched_ready stage next found
    refine ⟨b, d.set.id, found, ?_, ?_, ready, ends.chunkSetId.trans set, named⟩
    · rw [ends.workspaceId, workspace, workspace']
    · rw [ends.documentId, document, document']

/-- A move spares every revision that is there and that the run has not open. -/
theorem spares (m : Move s r w r' w') {id : String}
    (other : r.stage.open? ≠ some id) : w.Spares id w' where
  row := by
    intro a found
    refine m.row_ends found ?_
    rintro d stage rfl
    exact other (by rw [stage]; rfl)
  unpointed := by
    intro unpointed x member points
    rcases m.pointed member points with old | ⟨d, _, stage, _, rfl, _⟩
    · exact unpointed x old points
    · exact other (by rw [stage]; rfl)

end Run.Move

namespace Crew

/-- Every run knows what it refers to, finds its revision as it left it, and has none open that
another run has open too. -/
structure Good (c : Crew) : Prop where
  sound : c.world.Sound
  coherent : c.world.Coherent
  known : ∀ (i : Nat) (r : Run), c.runs[i]? = some r → r.Known c.world
  drafted : ∀ (i : Nat) (r : Run), c.runs[i]? = some r → r.Drafted c.world
  apart : ∀ (i j : Nat) (a b : Run), c.runs[i]? = some a → c.runs[j]? = some b → i ≠ j →
    ∀ id, a.stage.open? = some id → b.stage.open? ≠ some id

theorem initial_good (now : Int) (env : Environment) (peer : Peer) :
    (initial now env peer).Good where
  sound := World.initial_sound now env peer
  coherent := fun _ member => absurd member List.not_mem_nil
  known := fun _ r there => by simp [initial] at there
  drafted := fun _ r there => by simp [initial] at there
  apart := fun _ _ _ _ there => by simp [initial] at there

/-- What a run is where runs have begun: it was there before, or is at its start. -/
theorem getElem?_started {before after : List Run}
    (began : ∃ jobs : List Job, after = before ++ jobs.map Run.start) {i : Nat} {r : Run}
    (there : after[i]? = some r) : before[i]? = some r ∨ ∃ job, r = .start job := by
  obtain ⟨jobs, rfl⟩ := began
  rw [List.getElem?_append] at there
  split at there
  · exact .inl there
  · obtain ⟨job, _, rfl⟩ := List.mem_map.mp (List.mem_of_getElem? there)
    exact .inr ⟨job, rfl⟩

/-- What a run is where one run has moved: it is that one, or was there before. -/
theorem getElem?_moved {runs : List Run} {place i : Nat} {r' r : Run}
    (there : (runs.set place r')[i]? = some r) :
    i = place ∧ r = r' ∨ i ≠ place ∧ runs[i]? = some r := by
  rw [List.getElem?_set] at there
  split at there
  · split at there
    · exact .inl ⟨Eq.symm ‹_›, (Option.some.inj there).symm⟩
    · cases there
  · exact .inr ⟨Ne.symm ‹_›, there⟩

namespace Good

variable {c : Crew} (good : c.Good)
include good

theorem around {w : World} (h : c.world.Around w) : Good ⟨w, c.runs⟩ where
  sound := h.sound good.sound
  coherent := h.coherent good.coherent
  known := fun i r there => (good.known i r there).mono h.drawn (fun _ opened => opened)
    (fun _ held => held)
  drafted := fun i r there => (good.drafted i r there).spared fun id _ => h.spares id
  apart := good.apart

theorem start (job : Job) : Good ⟨c.world, c.runs ++ [.start job]⟩ := by
  have began : ∃ jobs : List Job, c.runs ++ [.start job] = c.runs ++ jobs.map Run.start :=
    ⟨[job], rfl⟩
  refine ⟨good.sound, good.coherent, ?_, ?_, ?_⟩
  · intro i r there
    rcases getElem?_started began there with old | ⟨_, rfl⟩
    · exact good.known i r old
    · exact .start _ c.world
  · intro i r there
    rcases getElem?_started began there with old | ⟨_, rfl⟩
    · exact good.drafted i r old
    · exact .start _ c.world
  · intro i j a b atI atJ ne id openA openB
    rcases getElem?_started began atI with oldA | ⟨_, rfl⟩
    · rcases getElem?_started began atJ with oldB | ⟨_, rfl⟩
      · exact good.apart i j a b oldA oldB ne id openA openB
      · cases openB
    · cases openA

/-- A move of one run spares what the others have open. -/
theorem move {s : Setup} {place : Nat} {r r' : Run} {w' : World}
    (here : c.runs[place]? = some r) (m : Run.Move s r c.world r' w') :
    Good ⟨w', c.runs.set place r'⟩ := by
  have sound := good.sound
  have known := good.known place r here
  refine ⟨m.sound sound known, m.coherent (good.drafted place r here) good.coherent, ?_, ?_, ?_⟩
  · intro i b there
    rcases getElem?_moved there with ⟨_, rfl⟩ | ⟨_, old⟩
    · exact m.known known
    · exact (good.known i b old).mono m.drawn_le (fun _ opened => opened)
        (fun _ held => held)
  · intro i b there
    rcases getElem?_moved there with ⟨_, rfl⟩ | ⟨ne, old⟩
    · exact m.drafted sound (good.drafted place r here)
    · refine (good.drafted i b old).spared fun id opened => m.spares ?_
      exact good.apart i place b r old here ne id opened
  · have fresh : ∀ (i : Nat) (b : Run), i ≠ place → c.runs[i]? = some b →
        ∀ id, b.stage.open? = some id → r'.stage.open? ≠ some id := by
      intro i b ne old id opened opened'
      rcases m.opens opened' with before | ahead
      · exact good.apart i place b r old here ne id opened before
      · exact (good.known i b old).revision id opened ahead
    intro i j a b atI atJ ne id openA openB
    rcases getElem?_moved atI with ⟨rfl, rfl⟩ | ⟨neI, oldA⟩
    · rcases getElem?_moved atJ with ⟨rfl, _⟩ | ⟨neJ, oldB⟩
      · exact ne rfl
      · exact fresh j b neJ oldB id openB openA
    · rcases getElem?_moved atJ with ⟨_, rfl⟩ | ⟨_, oldB⟩
      · exact fresh i a neI oldA id openA openB
      · exact good.apart i j a b oldA oldB ne id openA openB

theorem turn (t : Turn) : (c.turn t).Good ∧ c.world.Later (c.turn t).world := by
  have keeps : ∀ {w : World}, c.world.Around w → Good ⟨w, c.runs⟩ ∧ c.world.Later w :=
    fun h => ⟨good.around h, h.later⟩
  cases t with
  | start job => exact ⟨good.start job, .refl _⟩
  | claim =>
    have claimed := c.world.claim_around
    simp only [Crew.turn]
    split <;> rename_i first <;> rw [first] at claimed
    · exact keeps claimed
    · exact ⟨(good.around claimed).start _, claimed.later⟩
  | step s place =>
    simp only [Crew.turn]
    cases here : c.runs[place]? with
    | none => exact ⟨good, .refl _⟩
    | some r =>
      by_cases going : r.stage.isOver = true
      · simp only [Run.step_over s r c.world going]
        obtain ⟨inside, same⟩ := List.getElem?_eq_some_iff.mp here
        rw [← same, List.set_getElem_self]
        exact ⟨good, .refl _⟩
      · have m := Run.step_move s r c.world (by simpa using going)
        exact ⟨good.move here m, m.later⟩
  | recover settings => exact keeps (c.world.recover_around settings)
  | failAbandoned olderThan =>
    exact keeps (c.world.failAbandoned_around c.world.now olderThan)
  | markFailed id reason => exact keeps (c.world.markFailed_around c.world.now id reason)
  | put workspace base document version body =>
    exact keeps (.of_meanwhile (c.world.put_meanwhile workspace base document version body))
  | enqueue workspace base document version =>
    exact keeps (.of_meanwhile (c.world.enqueue_meanwhile workspace base document version))
  | onActions f => exact keeps (c.world.onActions_around f)
  | interfere cfg i => exact keeps (.of_meanwhile (c.world.interfere_meanwhile cfg i))
  | outside elsewhere => exact keeps (c.world.outside_around elsewhere)

theorem play (turns : List Turn) : (c.play turns).Good ∧ c.world.Later (c.play turns).world := by
  induction turns generalizing c with
  | nil => exact ⟨good, .refl _⟩
  | cons t rest ih =>
    obtain ⟨next, first⟩ := good.turn t
    obtain ⟨last, then_on⟩ := ih next
    exact ⟨last, first.trans then_on⟩

end Good

end Crew

/-- In whatever order runs, writes and repairs take turns on a database that was empty: every
document that points at a revision points at a ready one of its own, whose chunk set it names;
and whatever turns come later, a document that points somewhere always will, and the revision
it points at stays ready. -/
theorem switchover_atomic (now : Int) (env : Environment) (peer : Peer)
    (turns later : List Turn) :
    let before := ((Crew.initial now env peer).play turns).world
    let after := (((Crew.initial now env peer).play turns).play later).world
    (∀ d ∈ before.db.documents, ∀ id, d.currentRevisionId = some id →
      ∃ a setId, before.db.revisions.revision? id = some a ∧
        a.workspaceId = d.workspaceId ∧ a.documentId = d.id ∧ a.status = .ready ∧
        a.chunkSetId = some setId ∧ d.currentChunkSetId = some setId) ∧
    (∀ workspace id, before.pointer workspace id ≠ none → after.pointer workspace id ≠ none) ∧
    (∀ d ∈ before.db.documents, ∀ id, d.currentRevisionId = some id →
      ∃ a, after.db.revisions.revision? id = some a ∧ a.status = .ready) := by
  intro before after
  have good := (Crew.initial_good now env peer).play turns
  have ever := (good.1.play later).2
  have pointed : ∀ d ∈ before.db.documents, ∀ id, d.currentRevisionId = some id →
      ∃ a setId, before.db.revisions.revision? id = some a ∧
        a.workspaceId = d.workspaceId ∧ a.documentId = d.id ∧ a.status = .ready ∧
        a.chunkSetId = some setId ∧ d.currentChunkSetId = some setId :=
    fun d member => good.1.coherent d.standing (List.mem_map_of_mem member)
  refine ⟨pointed, ever.pointers, ?_⟩
  intro d member id points
  obtain ⟨a, _, found, _, _, ready, _⟩ := pointed d member id points
  exact ever.ready id a found ready

end IndexingPipeline
