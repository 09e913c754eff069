import IndexingPipeline.Proofs.Stock

/-!
# Sweeping while runs are at work

A sweep first notes where the documents point, and then deletes, one document after the other,
the points of every revision but the one noted. It takes no lock, and runs go on meanwhile. The
points of a run's revision are there before any document points at it, and a document may point
elsewhere by the time its turn comes. As long as each document still points where the sweep noted
it, and no live run of it stands between writing its points and switching them in, no point of a
current revision is ever lost, nor of one that becomes current. In either of the other cases a
sweep deletes them.
-/

namespace IndexingPipeline

/-- Runs under way, and sweeps: of each how far it has come and which documents are left. -/
structure Yard where
  watch : Watch
  sweeps : List (SweepReport × List Document)

/-- An event, or a part of a sweep; between its parts anything may happen. -/
inductive Chore where
  | event (e : Event)
  /-- Begin a sweep: note where the documents point. -/
  | survey
  /-- Go on with a sweep: delete the superseded points of the next document. -/
  | sweep (place : Nat)

namespace Yard

def initial (now : Int) (env : Environment) (peer : Peer) : Yard :=
  ⟨Watch.initial now env peer, []⟩

abbrev world (y : Yard) : World := y.watch.world

def turn (s : Setup) (y : Yard) : Chore → Yard
  | .event e => { y with watch := y.watch.turn s e }
  | .survey => { y with sweeps := y.sweeps ++ [(⟨0, 0, 0⟩, y.world.db.documents.indexed)] }
  | .sweep place =>
    match y.sweeps[place]? with
    | some (report, d :: rest) =>
      let (report, w) := y.world.sweepDocument s report d
      ⟨y.watch.on (.outside w), y.sweeps.set place (report, rest)⟩
    | _ => y

def play (s : Setup) (y : Yard) (chores : List Chore) : Yard := chores.foldl (turn s) y

def next? (y : Yard) : Chore → Option Document
  | .sweep place => (y.sweeps[place]?).bind (·.2.head?)
  | _ => none

/-- A document still points where a sweep noted it, and no live run of it has written its points
and not yet switched them in. -/
def Settled (y : Yard) (d : Document) : Prop :=
  y.world.pointer d.workspaceId d.id = d.currentRevisionId ∧
  ∀ i < y.watch.crew.runs.length, i ∉ y.watch.dead →
    (y.watch.crew.runs[i]?).any (fun r => r.stage.isBetween &&
      decide (r.job.workspaceId = d.workspaceId ∧ r.job.documentId = d.id)) = false

instance (y : Yard) (d : Document) : Decidable (y.Settled d) :=
  inferInstanceAs (Decidable (_ ∧ _))

/-- At every moment everything is in time, and every document is settled when its turn comes. -/
def Orderly (s : Setup) (y : Yard) : List Chore → Prop
  | [] => y.watch.InTime s
  | c :: rest =>
    y.watch.InTime s ∧ (∀ d ∈ y.next? c, y.Settled d) ∧ (y.turn s c).Orderly s rest

instance decidableOrderly (s : Setup) :
    (y : Yard) → (chores : List Chore) → Decidable (y.Orderly s chores)
  | y, [] => inferInstanceAs (Decidable (y.watch.InTime s))
  | y, c :: rest =>
    have := decidableOrderly s (y.turn s c) rest
    inferInstanceAs (Decidable (y.watch.InTime s ∧ (∀ d ∈ y.next? c, y.Settled d) ∧
      (y.turn s c).Orderly s rest))

variable {s : Setup} (memory : s.gateway = none) {y : Yard} (h : y.watch.Stocked s)
include memory h

/-- Deleting what is superseded of a settled document takes nothing that is current, or that a
run relies on. -/
theorem swept (inTime : y.watch.InTime s) {d : Document} (settled : y.Settled d)
    (report : SweepReport) :
    (y.watch.on (.outside (y.world.sweepDocument s report d).2)).Stocked s := by
  obtain ⟨points, between⟩ := settled
  cases noted : d.currentRevisionId with
  | none =>
    have same : (y.world.sweepDocument s report d).2 = y.world := by
      unfold World.sweepDocument
      rw [noted]
    rw [same]
    exact h
  | some id =>
    rw [World.sweepDocument_world memory report noted]
    rw [noted] at points
    obtain ⟨d', found, current⟩ := Option.bind_eq_some_iff.mp points
    have key : d'.workspaceId = d.workspaceId ∧ d'.id = d.id := by
      have here := List.find?_some found
      simpa [Documents.isAt] using here
    have filed := h.world.superseded (List.mem_of_find?_eq_some found) current
      (collectionName s.config.store.collectionStem d.workspaceId)
    rw [key.1, key.2] at filed
    refine ⟨?_, filed, h.within, ?_, h.known, h.apart⟩
    · exact h.kept.on inTime ⟨[], (List.append_nil _).symm⟩ (Int.le_refl _) rfl
        fun _ _ _ found _ => found
    · intro i r (there : y.watch.crew.runs[i]? = some r) alive
      refine (h.stocked i r there alive).swept h.world.alone ?_ _
      intro isBetween same
      have none_between := between i (List.getElem?_eq_some_iff.mp there).1 alive
      rw [there, Option.any_some] at none_between
      simp [isBetween, same] at none_between

theorem turn_stocked (inTime : y.watch.InTime s) {c : Chore}
    (settled : ∀ d ∈ y.next? c, y.Settled d) : (y.turn s c).watch.Stocked s := by
  cases c with
  | event e => exact h.turn memory inTime e
  | survey => exact h
  | sweep place =>
    simp only [turn]
    split
    · rename_i report d rest there
      exact swept memory h inTime (settled d (by simp [next?, there])) report
    · exact h

theorem play_stocked {chores : List Chore} (orderly : y.Orderly s chores) :
    (y.play s chores).watch.Stocked s := by
  induction chores generalizing y with
  | nil => exact h
  | cons c rest ih =>
    obtain ⟨inTime, settled, others⟩ := orderly
    exact ih (turn_stocked memory h inTime settled) others

end Yard

/-- Begin with an empty database and an empty store in memory, and let sweeps take turns with
runs and everything around them, as long as no live run keeps its lock for as long as a lock
lives, and a document is settled whenever a sweep deletes points of it. Then the store holds, of
the revision that a document points at, one point for each chunk of the document's chunk set, as
many as the revision counts. -/
theorem sweep_spares_current (cfg : Config) (remote : Bool) (now : Int) (env : Environment)
    (peer : Peer) (chores : List Chore)
    (orderly : (Yard.initial now env peer).Orderly ⟨cfg, remote, none⟩ chores) :
    let w := ((Yard.initial now env peer).play ⟨cfg, remote, none⟩ chores).world
    let points (d : Document) (id : String) :=
      w.store.points (collectionName cfg.store.collectionStem d.workspaceId)
        (.ofRevision d.workspaceId d.id id)
    ∀ d ∈ w.db.documents, ∀ id, d.currentRevisionId = some id →
      ∃ a stored, w.db.revisions.revision? id = some a ∧
        d.currentChunkSetId = some stored.set.id ∧
        w.db.chunkSet? stored.set.id = some stored ∧
        a.chunkCount = (points d id).length ∧
        (points d id).map (·.id) = stored.set.chunks.map (·.vectorId) := by
  intro w points d member id current
  have stocked := Yard.play_stocked (s := ⟨cfg, remote, none⟩) rfl
    (Watch.initial_stocked _ now env peer) orderly
  obtain ⟨a, stored, found, named, set, count, placed⟩ :=
    stocked.world.indexed d.standing (List.mem_map_of_mem member) id current
  refine ⟨a, stored, found, named, set, ?_, placed⟩
  have length := congrArg List.length placed
  simp only [List.length_map] at length
  rw [count, ← length]
  rfl

namespace Sample

def steps (place n : Nat) : List Chore := List.replicate n (.event (.step place))

/-- A document is written and asked to be indexed, and a worker takes its job. -/
def begun (version body : String) : List Chore :=
  [.event (.put "w" "b" "d" version body), .event (.enqueue "w" "b" "d" version),
    .event .claim]

/-- A document has been indexed, and was written anew since. -/
def anew : List Chore :=
  [.event (.outside { World.initial 0 [] {} with usualTurn := turn })] ++
    begun "v1" "hello world" ++ steps 0 16 ++ begun "v2" "hello again"

/-- It is indexed anew while a sweep goes on, which comes to it when both are through. -/
def swept : List Chore := anew ++ steps 1 8 ++ [.survey, .sweep 0] ++ steps 1 8

/-- The sweep comes to it when the new points are written and not yet switched in. -/
def sweptEarly : List Chore := anew ++ steps 1 11 ++ [.survey, .sweep 0] ++ steps 1 5

/-- The sweep comes to it when the document points elsewhere than it did at the survey. -/
def sweptLate : List Chore := anew ++ [.survey] ++ steps 1 16 ++ [.sweep 0]

def yard (chores : List Chore) : Yard := (Yard.initial 1000 [] {}).play setup chores

theorem swept_orderly : (Yard.initial 1000 [] {}).Orderly setup swept := by decide +kernel

end Sample

theorem sweep_spares_current_sample :
    (Yard.initial 1000 [] {}).Orderly Sample.setup Sample.swept ∧
    ∃ d ∈ (Sample.yard Sample.swept).world.db.documents,
      d.currentRevisionId = some (Identifier.ofNat 9) ∧
      ∃ a, (Sample.yard Sample.swept).world.db.revisions.revision? (Identifier.ofNat 9) = some a ∧
        a.chunkCount = ((Sample.yard Sample.swept).world.store.points
          (collectionName Sample.setup.config.store.collectionStem d.workspaceId)
          (.ofRevision d.workspaceId d.id (Identifier.ofNat 9))).length := by
  have there : (Sample.yard Sample.swept).world.db.documents.any
      (·.currentRevisionId = some (Identifier.ofNat 9)) = true := by decide +kernel
  obtain ⟨d, member, current⟩ := List.any_eq_true.mp there
  have current := of_decide_eq_true current
  obtain ⟨a, _, found, _, _, count, _⟩ :=
    sweep_spares_current Sample.setup.config false 1000 [] {} Sample.swept Sample.swept_orderly
      d member _ current
  exact ⟨Sample.swept_orderly, d, member, current, a, found, count⟩

/-- Where a document points in the end, how many chunks that revision counts, and how many points
of it the store holds. -/
def Sample.left (chores : List Chore) : Option (String × Option Int × Nat) :=
  let w := (yard chores).world
  (w.pointer "w" "d").map fun id =>
    (id, (w.db.revisions.revision? id).map (·.chunkCount),
      (w.store.points (collectionName setup.config.store.collectionStem "w")
        (.ofRevision "w" "d" id)).length)

/-- Sweeps that come to a document which is not settled: it points at a revision of one chunk, and
the store holds no point of that. -/
theorem sweep_loses_points :
    Sample.left Sample.sweptEarly = some (Identifier.ofNat 9, some 1, 0) ∧
    Sample.left Sample.sweptLate = some (Identifier.ofNat 9, some 1, 0) := by
  decide +kernel

end IndexingPipeline
