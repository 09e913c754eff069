import IndexingPipeline.Proofs.Frame

/-!
# The revision that a run is at work on

From the moment it is opened until it is switched in, a run's revision has a row under the key
of the run's job, which says how large it is once that has been written down, and no document
points at it. The moves of the run keep that, and so does whatever spares the revision: others
may end it, but neither change what it is nor point a document at it.
-/

namespace IndexingPipeline

open Identifier (Ahead ahead_ofNat)

/-- Whether a run has written down how large its revision is, and has not switched it in. -/
def Stage.isSized : Stage → Bool
  | .admitting _ => true
  | .authorizing _ => true
  | .embedding _ _ => true
  | .ensuring _ => true
  | .writing _ => true
  | .accounting _ => true
  | .switching _ => true
  | _ => false

/-- What happens to a world does no more to a revision than to end it, and makes no document
point at it. -/
structure World.Spares (id : String) (w w' : World) : Prop where
  row : ∀ a, w.db.revisions.revision? id = some a →
    ∃ b, w'.db.revisions.revision? id = some b ∧ a.EndsAs b
  unpointed : (∀ x ∈ w.db.documents.standings, x.revision ≠ some id) →
    ∀ x ∈ w'.db.documents.standings, x.revision ≠ some id

namespace Run

namespace Move

variable {s : Setup} {r r' : Run} {w w' : World}

/-- A move ends the revision of a row at most, unless it writes down how large it is. -/
theorem row_ends (m : Move s r w r' w') {id : String} {a : Revision}
    (found : w.db.revisions.revision? id = some a)
    (other : ∀ d, r.stage = .sizing d → d.revisionId ≠ id) :
    ∃ b, w'.db.revisions.revision? id = some b ∧ a.EndsAs b := by
  have kept := m.revisions_kept
  cases m with
  | opened => exact ⟨a, Revisions.revision?_append_of_some found, .refl a⟩
  | sized d =>
    refine ⟨a, ?_, .refl a⟩
    exact (Revisions.revision?_update_ne (other d rfl).symm _).trans found
  | accounted =>
    refine Revisions.endsAs_map ?_ found
    intro r
    exact Revisions.endsAs_change rfl rfl (by simp) _ r
  | switched =>
    refine Revisions.endsAs_map ?_ found
    intro r
    exact Revisions.endsAs_change rfl rfl (by simp) _ r
  | failed =>
    refine Revisions.endsAs_map ?_ found
    intro r
    simp only
    split
    · rename_i hit
      simp only [Revisions.isOpen, Bool.and_eq_true, decide_eq_true_eq] at hit
      exact Revision.endsAs_failed hit.2.1 _ _
    · exact .refl r
  | unplanned | blank | unaccounted | vanished | unopened => exact ⟨a, found, .refl a⟩
  | _ => exact ⟨a, (kept (by simp [Stage.writes])).symm ▸ found, .refl a⟩

/-- A revision that is ready stays ready, whatever a run does. -/
theorem ready_stays (m : Move s r w r' w') {id : String} {a : Revision}
    (found : w.db.revisions.revision? id = some a) (ready : a.status = .ready) :
    ∃ b, w'.db.revisions.revision? id = some b ∧ b.status = .ready := by
  by_cases own : ∃ d, r.stage = .sizing d ∧ d.revisionId = id
  · obtain ⟨d, stage, rfl⟩ := own
    cases m <;> cases stage
    · exact ⟨a, found, ready⟩
    · exact ⟨_, Revisions.revision?_update found _, ready⟩
  · obtain ⟨b, found', ends⟩ := m.row_ends found fun d stage same => own ⟨d, stage, same⟩
    exact ⟨b, found', ends.ready ready⟩

/-- A document comes to point at a revision only by the move that switches the run's own in. -/
theorem pointed (m : Move s r w r' w') {x : Standing} {id : String}
    (member : x ∈ w'.db.documents.standings) (points : x.revision = some id) :
    x ∈ w.db.documents.standings ∨
      ∃ d previous, r.stage = .switching d ∧ r'.stage = .cleaning d previous ∧
        id = d.revisionId ∧ x.chunkSet = some d.set.id ∧
        x.workspaceId = r.job.workspaceId ∧ x.documentId = r.job.documentId := by
  have kept := m.documents_kept
  cases m with
  | kept | mismatched | unembedded | unaccepted =>
    exact .inl (((w.embed_meanwhile s _ _ _).standings.mem_iff (by simp [points])).mp member)
  | @switched job h w d doc _ =>
    simp only [Documents.standings_markUpToDate, Documents.standings_switch, List.mem_map]
      at member
    obtain ⟨y, old, rfl⟩ := member
    by_cases here : y.isAt job.workspaceId job.documentId = true
    · refine .inr ⟨d, doc.currentRevisionId, rfl, rfl, ?_⟩
      have key := here
      simp only [Standing.isAt, Bool.and_eq_true, decide_eq_true_eq] at key
      unfold Standing.switched at points ⊢
      rw [if_pos here] at points ⊢
      exact ⟨(Option.some.inj points).symm, rfl, key.1, key.2⟩
    · refine .inl ?_
      simpa [Standing.switched, here] using old
  | marked => exact .inl ((Documents.standings_markError _ _ _ _ _) ▸ member)
  | vanished => exact .inl member
  | _ => exact .inl (kept (by simp [Stage.writes]) ▸ member)

/-- Where the document of a key points changes only when the run of a job for it switches its
revision in. -/
theorem pointer_moves (m : Move s r w r' w') (workspace id : String) :
    w'.pointer workspace id = w.pointer workspace id ∨
      ∃ d, r.stage = .switching d ∧ r'.stage = .cleaning d (w.pointer workspace id) ∧
        workspace = r.job.workspaceId ∧ id = r.job.documentId ∧
        w'.pointer workspace id = some d.revisionId := by
  have kept := m.documents_kept
  cases m with
  | kept | mismatched | unembedded | unaccepted =>
    refine .inl ?_
    rw [World.pointer_eq, World.pointer_eq]
    exact (w.embed_meanwhile s _ _ _).standings.pointer?_eq workspace id
  | @switched job h w d doc found =>
    simp only [World.pointer_eq, Documents.standings_markUpToDate, Documents.standings_switch]
    by_cases key : workspace = job.workspaceId ∧ id = job.documentId
    · obtain ⟨rfl, rfl⟩ := key
      have there := Documents.document?_standing w.db.documents job.workspaceId job.documentId
      rw [found] at there
      refine .inr ⟨d, rfl, ?_, rfl, rfl, pointer?_switched there.symm⟩
      rw [← World.pointer_eq, World.pointer, found]
      rfl
    · exact .inl (pointer?_switched_ne key)
  | marked =>
    refine .inl ?_
    rw [World.pointer_eq, World.pointer_eq, World.onDocuments, Documents.standings_markError]
  | vanished => exact .inl rfl
  | _ => exact .inl (World.pointer_congr (kept (by simp [Stage.writes])) workspace id)

theorem switched_ready (m : Move s r w r' w') {d : Draft} {previous : Option String}
    (stage : r.stage = .switching d) (next : r'.stage = .cleaning d previous) {a : Revision}
    (found : w.db.revisions.revision? d.revisionId = some a) :
    ∃ b, w'.db.revisions.revision? d.revisionId = some b ∧ a.EndsAs b ∧ b.status = .ready := by
  cases m with
  | switched =>
    cases stage
    exact ⟨_, Revisions.revision?_update found _, ⟨rfl, rfl, rfl, rfl, rfl, fun _ => rfl⟩, rfl⟩
  | _ => first | cases stage; cases next | cases stage

/-- What a run has open it had open before, or it is newly drawn. -/
theorem opens (m : Move s r w r' w') {id : String} (opened : r'.stage.open? = some id) :
    r.stage.open? = some id ∨ Ahead w.drawn id := by
  cases m with
  | opened => exact .inr ⟨w.drawn, Nat.le_refl _, (Option.some.inj opened).symm⟩
  | @refreshed _ holder => cases holder <;> cases opened
  | _ => first | exact .inl opened | cases opened

end Move

/-- What a run finds of the revision that it has open. -/
structure Drafted (r : Run) (w : World) : Prop where
  unpointed : ∀ id, r.stage.open? = some id →
    ∀ x ∈ w.db.documents.standings, x.revision ≠ some id
  row : ∀ d, r.stage.draft? = some d → ∃ a,
    w.db.revisions.revision? d.revisionId = some a ∧
      a.workspaceId = r.job.workspaceId ∧ a.documentId = r.job.documentId ∧
      (r.stage.isSized = true →
        a.chunkSetId = some d.set.id ∧ a.chunkCount = d.set.chunks.length)

namespace Drafted

theorem start (job : Job) (w : World) : (Run.start job).Drafted w := by
  constructor
  · intro id opened
    cases opened
  · intro d draft
    cases draft

variable {s : Setup} {r r' : Run} {w w' : World}

/-- What spares a run's revision leaves it as the run knows it. -/
theorem spared (h : r.Drafted w) (spares : ∀ id, r.stage.open? = some id → w.Spares id w') :
    r.Drafted w' where
  unpointed := fun id opened => (spares id opened).unpointed (h.unpointed id opened)
  row := by
    intro d draft
    obtain ⟨a, found, workspace, document, sized⟩ := h.row d draft
    obtain ⟨b, found', ends⟩ := (spares _ (Stage.open?_of_draft? draft)).row a found
    refine ⟨b, found', ends.workspaceId.trans workspace, ends.documentId.trans document, ?_⟩
    intro isSized
    rw [ends.chunkSetId, ends.chunkCount]
    exact sized isSized

/-- A move that leads on with the same draft, or to the revision's failure, leaves the revision
as the run knows it. -/
theorem onward (h : r.Drafted w) (m : Move s r w r' w')
    (job : r'.job = r.job) (unswitched : ∀ d previous, r'.stage ≠ .cleaning d previous)
    (opened : ∀ id, r'.stage.open? = some id → r.stage.open? = some id)
    (draft : ∀ d', r'.stage.draft? = some d' → ∃ d, r.stage.draft? = some d ∧
      d.revisionId = d'.revisionId ∧ r.stage ≠ .sizing d ∧
      (r'.stage.isSized = true → r.stage.isSized = true ∧ d.set = d'.set)) : r'.Drafted w' where
  unpointed := by
    intro id opened' x member points
    rcases m.pointed member points with old | ⟨d, previous, _, next, _⟩
    · exact h.unpointed id (opened id opened') x old points
    · exact unswitched d previous next
  row := by
    intro d' draft'
    obtain ⟨d, had, same, unsized, sized'⟩ := draft d' draft'
    obtain ⟨a, found, workspace, document, sized⟩ := h.row d had
    obtain ⟨b, found', ends⟩ := m.row_ends found (by
      intro k stage _
      rw [stage] at had unsized
      exact unsized (by rw [show k = d from Option.some.inj had]))
    refine ⟨b, same ▸ found', ?_, ?_, ?_⟩
    · rw [job, ends.workspaceId, workspace]
    · rw [job, ends.documentId, document]
    · intro isSized
      obtain ⟨isSized, sets⟩ := sized' isSized
      rw [ends.chunkSetId, ends.chunkCount, ← sets]
      exact sized isSized

end Drafted

theorem Move.drafted {s : Setup} {r r' : Run} {w w' : World} (m : Move s r w r' w')
    (sound : w.Sound) (h : r.Drafted w) : r'.Drafted w' := by
  have onward := h.onward m
  cases m with
  | opened settings policy provider =>
    refine ⟨?_, ?_⟩
    · rintro _ ⟨⟩ x member points
      exact sound.standings x member _ points (ahead_ofNat.mpr (Nat.le_refl _))
    · rintro _ ⟨⟩
      refine ⟨_, Revisions.revision?_append_new ?_, rfl, rfl, by simp [Stage.isSized]⟩
      rintro a member same
      exact sound.revisions a member (same ▸ ahead_ofNat.mpr (Nat.le_refl _))
  | sized d =>
    obtain ⟨a, found, workspace, document, _⟩ := h.row d rfl
    refine ⟨h.unpointed, ?_⟩
    rintro _ ⟨⟩
    exact ⟨_, Revisions.revision?_update found _, workspace, document, fun _ => ⟨rfl, rfl⟩⟩
  | switched | cleaned =>
    refine ⟨?_, ?_⟩
    · rintro _ ⟨⟩
    · rintro _ ⟨⟩
  | @refreshed job holder =>
    refine ⟨?_, ?_⟩
    · intro id opened
      cases holder <;> cases opened
    · intro d draft
      cases holder <;> cases draft
  | _ =>
    refine onward rfl (by simp [Stage.fail]) ?_ ?_
    · simp [Stage.open?, Stage.draft?, Stage.fail]
    · simp [Stage.draft?, Stage.isSized, Stage.fail]

end Run

end IndexingPipeline
