import IndexingPipeline.Proofs.Index

/-!
# What a revision was made of

An edition names a revision and its chunk set together with the version, the body and the policy
that they were made of. Once a run has split the body, the tables say so: the revision carries the
version and the digest of the policy, and the stored chunks are the spans of the body under that
policy. Revisions are never taken away and keep their version and digest, and chunk sets are only
added, so whatever is done later the tables say the same.
-/

namespace IndexingPipeline

open Identifier (Ahead ahead_ofNat)

/-- A revision and its chunk set, and what they were made of. -/
structure Edition where
  revisionId : String
  chunkSetId : String
  versionId : String
  body : String
  policy : Policy
  deriving DecidableEq, Repr

def Chunk.passage (c : Chunk) : String × Int × Int := (c.text, c.charStart, c.charEnd)

def Span.passage (x : Span) : String × Int × Int := (String.ofList x.text, x.start, x.stop)

theorem Chunk.passages_ofSpans (documentId : String) (spans : List Span) (supply ordinal : Nat) :
    (ofSpans documentId supply ordinal spans).map (·.passage) = spans.map (·.passage) := by
  induction spans generalizing supply ordinal with
  | nil => rfl
  | cons span rest ih =>
    rw [ofSpans, List.map_cons, List.map_cons, ih]
    rfl

/-- A revision after a change that leaves alone what it was opened for. -/
structure Revision.SameOrigin (a b : Revision) : Prop where
  id : b.id = a.id
  versionId : b.versionId = a.versionId
  policyDigest : b.policyDigest = a.policyDigest

namespace Revision.SameOrigin

theorem refl (a : Revision) : a.SameOrigin a := ⟨rfl, rfl, rfl⟩

theorem trans {a b c : Revision} (ab : a.SameOrigin b) (bc : b.SameOrigin c) : a.SameOrigin c :=
  ⟨bc.id.trans ab.id, bc.versionId.trans ab.versionId, bc.policyDigest.trans ab.policyDigest⟩

theorem update (id : String) (c : RevisionChange) (r : Revision) :
    r.SameOrigin (if r.id = id then r.change c else r) := by
  split <;> exact ⟨rfl, rfl, rfl⟩

theorem failed (hit : Revision → Bool) (now : Int) (reason : String) (r : Revision) :
    r.SameOrigin (if hit r then r.failed now reason else r) := by
  split <;> exact ⟨rfl, rfl, rfl⟩

end Revision.SameOrigin

namespace World

/-- What has become of the revisions and the chunk sets: none is gone, and each revision is still
that of its version and policy. -/
structure Retains (w w' : World) : Prop where
  revisions : ∀ id a, w.db.revisions.revision? id = some a →
    ∃ b, w'.db.revisions.revision? id = some b ∧ a.SameOrigin b
  chunkSets : ∃ new, w'.db.chunkSets = w.db.chunkSets ++ new

namespace Retains

variable {w w' : World}

theorem of_tables (revisions : w'.db.revisions = w.db.revisions)
    (chunkSets : w'.db.chunkSets = w.db.chunkSets) : Retains w w' where
  revisions := fun _ a found => ⟨a, revisions ▸ found, .refl a⟩
  chunkSets := ⟨[], by rw [chunkSets, List.append_nil]⟩

theorem refl (w : World) : Retains w w := .of_tables rfl rfl

theorem trans {a b c : World} (ab : Retains a b) (bc : Retains b c) : Retains a c where
  revisions := by
    intro id x found
    obtain ⟨y, found, first⟩ := ab.revisions id x found
    obtain ⟨z, found, second⟩ := bc.revisions id y found
    exact ⟨z, found, first.trans second⟩
  chunkSets := by
    obtain ⟨new, first⟩ := ab.chunkSets
    obtain ⟨newer, second⟩ := bc.chunkSets
    exact ⟨new ++ newer, by rw [second, first, List.append_assoc]⟩

theorem of_meanwhile (h : Meanwhile w w') : Retains w w' := .of_tables h.revisions h.chunkSets

/-- What is done to each revision leaves alone what it was opened for. -/
theorem of_map {f : Revision → Revision} (origin : ∀ r : Revision, r.SameOrigin (f r))
    (revisions : w'.db.revisions = w.db.revisions.map f)
    (chunkSets : w'.db.chunkSets = w.db.chunkSets) : Retains w w' where
  revisions := by
    intro id a found
    refine ⟨f a, ?_, origin a⟩
    rw [revisions, Revisions.revision?_map fun r => (origin r).id, found]
    rfl
  chunkSets := ⟨[], by rw [chunkSets, List.append_nil]⟩

theorem chunkSet? (h : Retains w w') {id : String} {stored : StoredChunkSet}
    (found : w.db.chunkSet? id = some stored) : w'.db.chunkSet? id = some stored := by
  obtain ⟨new, sets⟩ := h.chunkSets
  exact chunkSet?_append sets found

end Retains

/-- The tables say of an edition what it was made of. -/
def Made (s : Setup) (w : World) (e : Edition) : Prop :=
  ∃ a stored base settings,
    w.db.revisions.revision? e.revisionId = some a ∧ a.versionId = e.versionId ∧
    a.policyDigest = e.policy.digest ∧ Policy.effective s.config base settings = .ok e.policy ∧
    w.db.chunkSet? e.chunkSetId = some stored ∧
    stored.set.chunks.map (·.passage) = (split e.body e.policy.window).map (·.passage)

theorem Made.retained {s : Setup} {w w' : World} {e : Edition} (made : w.Made s e)
    (retains : Retains w w') : w'.Made s e := by
  obtain ⟨a, stored, base, settings, found, version, digest, effective, set, passages⟩ := made
  obtain ⟨b, found, origin⟩ := retains.revisions _ a found
  exact ⟨b, stored, base, settings, found, origin.versionId.trans version,
    origin.policyDigest.trans digest, effective, retains.chunkSet? set, passages⟩

/-- No chunk set that is stored carries an identifier that is still ahead. -/
def Shelved (w : World) : Prop := ∀ c ∈ w.db.chunkSets, ¬ Ahead w.drawn c.set.id

theorem Shelved.kept {w w' : World} (h : w.Shelved) (drawn : w.drawn ≤ w'.drawn)
    (sets : w'.db.chunkSets = w.db.chunkSets) : w'.Shelved :=
  fun c member ahead => h c (sets ▸ member) (ahead.mono drawn)

theorem Shelved.around {w w' : World} (h : w.Shelved) (around : Around w w') : w'.Shelved :=
  h.kept around.drawn around.chunkSets

end World

namespace Run

variable {s : Setup} {r r' : Run} {w w' : World}

theorem Move.retains (m : Move s r w r' w') : w.Retains w' := by
  have revisions := m.revisions_kept
  have chunkSets := m.chunkSets_kept
  cases m with
  | opened =>
    refine ⟨?_, [], (List.append_nil _).symm⟩
    exact fun id a found => ⟨a, Revisions.revision?_append_of_some found, .refl a⟩
  | chunked => exact ⟨fun id a found => ⟨a, found, .refl a⟩, _, rfl⟩
  | sized | accounted | switched => exact .of_map (.update _ _) rfl rfl
  | failed => exact .of_map (.failed _ _ _) rfl rfl
  | unplanned | missing | blank | unaccounted | vanished | unopened => exact .refl _
  | _ => exact .of_tables (revisions (by simp [Stage.writes])) (chunkSets (by simp [Stage.writes]))

theorem Move.shelved (m : Move s r w r' w') (shelved : w.Shelved) : w'.Shelved := by
  have drawn := m.drawn_le
  have sets := m.chunkSets_kept
  cases m with
  | chunked d doc set next found built =>
    intro c member ahead
    rcases List.mem_append.mp member with old | new
    · exact shelved c old (ahead.mono drawn)
    · rw [List.mem_singleton.mp new] at ahead
      exact (ChunkSet.build_drawn built).2.1 ahead
  | missing => exact shelved
  | _ => exact shelved.kept drawn (sets (by simp [Stage.writes]))

/-- The revision of a draft carries the version of the run's job and the digest of the draft's
policy, which is one of those that a run may work under. -/
def Opened (s : Setup) (r : Run) (w : World) (d : Draft) : Prop :=
  ∃ a settings, w.db.revisions.revision? d.revisionId = some a ∧
    a.versionId = r.job.versionId ∧ a.policyDigest = d.policy.digest ∧
    Policy.effective s.config r.job.baseId settings = .ok d.policy

theorem Opened.retained {d d' : Draft} (opened : r.Opened s w d) (retains : w.Retains w')
    (job : r'.job = r.job) (revision : d'.revisionId = d.revisionId)
    (policy : d'.policy = d.policy) : r'.Opened s w' d' := by
  obtain ⟨a, settings, found, version, digest, effective⟩ := opened
  obtain ⟨b, found, origin⟩ := retains.revisions _ a found
  rw [Opened, revision, policy, job]
  exact ⟨b, settings, found, origin.versionId.trans version, origin.policyDigest.trans digest,
    effective⟩

theorem effective_of_plan {env : Environment} {job : Job} {settings : RunSettings}
    {policy : Policy} {provider : Provider}
    (planned : plan s env job settings = .ok (policy, provider)) :
    Policy.effective s.config job.baseId settings = .ok policy := by
  unfold plan at planned
  split at planned
  · cases planned
  · split at planned
    · cases planned
    · split at planned <;> cases planned
      assumption

/-- Whatever a run has drafted, its revision was opened for the job and for the policy. -/
theorem Move.opened_for (m : Move s r w r' w') (sound : w.Sound)
    (h : ∀ d, r.stage.draft? = some d → r.Opened s w d) :
    ∀ d, r'.stage.draft? = some d → r'.Opened s w' d := by
  have retains := m.retains
  cases m with
  | opened settings policy provider planned =>
    rintro _ ⟨⟩
    refine ⟨_, settings, Revisions.revision?_append_new ?_, rfl, rfl, effective_of_plan planned⟩
    rintro a member same
    exact sound.revisions a member (same ▸ ahead_ofNat.mpr (Nat.le_refl _))
  | @refreshed _ holder =>
    intro d draft
    cases holder <;> cases draft
  | _ =>
    intro d draft
    first
    | exact (h _ rfl).retained retains rfl (by cases draft; rfl) (by cases draft; rfl)
    | cases draft

/-- A run that has split the document has made an edition of it. -/
theorem made_of_chunked {job : Job} {holder : Option String} {d : Draft} {doc : Document}
    {set : ChunkSet} {drawn : Nat} (shelved : w.Shelved)
    (opened : Run.Opened s ⟨job, holder, .chunking d⟩ w d)
    (built : ChunkSet.build job.documentId d.revisionId doc.body d.policy.window w.drawn =
      (set, drawn)) :
    World.Made s
      { w with drawn, db := { w.db with chunkSets := w.db.chunkSets ++ [⟨set, w.now⟩] } }
      ⟨d.revisionId, set.id, job.versionId, doc.body, d.policy⟩ := by
  obtain ⟨a, settings, found, version, digest, effective⟩ := opened
  refine ⟨a, ⟨set, w.now⟩, job.baseId, settings, found, version, digest, effective, ?_, ?_⟩
  · have absent : w.db.chunkSets.find? (fun c => decide (c.set.id = set.id)) = none := by
      rw [List.find?_eq_none]
      intro c member
      rw [decide_eq_true_eq]
      exact fun same => shelved c member (same ▸ (ChunkSet.build_drawn built).1)
    rw [Database.chunkSet?, List.find?_append, absent]
    simp
  · rw [(ChunkSet.build_chunks built).1]
    exact Chunk.passages_ofSpans _ _ _ _

end Run

namespace World

variable (w : World)

theorem housekeeping_retains (cfg : Config) : w.Retains (w.housekeeping cfg) :=
  .of_map (.failed _ _ _) rfl rfl

end World

end IndexingPipeline
