import IndexingPipeline.Proofs.Calls
import IndexingPipeline.Proofs.Chunks
import IndexingPipeline.Proofs.Points

/-!
# What is asked for a document, in order

A token if a new one is needed, the vector of each chunk, the collection, one batch of points and
one deletion: the calls of a run follow this plan up to where the run ends, and nothing is asked
after a call that came to nothing. The batch is written only when every chunk has a vector, all
of the length that the collection was asked for, and it has one point for each chunk and its
vector. A run that does not complete its job leaves the points of a store in memory as they were.
-/

namespace IndexingPipeline

namespace Run

theorem Move.document_stays {s : Setup} {r r' : Run} {w w' : World} (m : Move s r w r' w')
    {workspace id : String} (there : (w.db.documents.document? workspace id).isSome = true) :
    (w'.db.documents.document? workspace id).isSome = true := by
  have kept := m.documents_kept
  have found : ∀ ds : Documents, (ds.document? workspace id).isSome =
      (ds.standings.find? (Standing.isAt workspace id)).isSome := by
    intro ds
    rw [← Documents.document?_standing, Option.isSome_map]
  rw [found] at there ⊢
  cases m with
  | kept | mismatched | unembedded | unaccepted =>
    exact (w.embed_meanwhile s _ _ _).standings.stays there
  | switched =>
    simp only [Documents.standings_markUpToDate, Documents.standings_switch, find?_switched,
      Option.isSome_map]
    exact there
  | marked =>
    rw [World.onDocuments, Documents.standings_markError]
    exact there
  | vanished => exact there
  | _ =>
    rw [kept (by simp [Stage.writes])]
    exact there

end Run

def Outcome.isCompleted : Outcome → Bool
  | .completed _ _ _ _ => true
  | _ => false

namespace Stage

def isRead : Stage → Bool
  | .chunking _ => false
  | stage => stage.draft?.isSome

def isWritten : Stage → Bool
  | .accounting _ => true
  | .switching _ => true
  | .cleaning _ _ => true
  | .refreshing outcome => outcome.isCompleted
  | .releasing outcome => outcome.isCompleted
  | .finished outcome => outcome.isCompleted
  | _ => false

end Stage

namespace Run

/-- Before a run has written its points, all points are as it found them in `w₀`. -/
structure Untouched (w₀ : World) (r : Run) (w : World) : Prop where
  present : r.stage.isRead = true →
    (w.db.documents.document? r.job.workspaceId r.job.documentId).isSome = true
  same : r.stage.isWritten = false → ∀ name, w.store.all name = w₀.store.all name

theorem Untouched.start (job : Job) (w : World) : Untouched w (.start job) w where
  present := by
    intro isRead
    cases isRead
  same := fun _ _ => rfl

/-- A run that has written its points completes its job, since its document is still there. -/
theorem Untouched.move {s : Setup} {w₀ : World} {r r' : Run} {w w' : World}
    (h : Untouched w₀ r w) (m : Move s r w r' w') (memory : s.gateway = none) :
    Untouched w₀ r' w' where
  present := by
    intro isRead
    rw [m.same_job]
    have present := h.present
    have stays := @m.document_stays
    cases m with
    | chunked d doc set drawn found => simp [found]
    | @refreshed _ holder => cases holder <;> cases isRead
    | _ => first | exact stays (present rfl) | cases isRead
  same := by
    intro unwritten
    have before : r.stage.isWritten = false := by
      have present := h.present
      cases m with
      | vanished d absent =>
        have there := present rfl
        rw [absent] at there
        cases there
      | @refreshed _ holder => cases holder <;> exact unwritten
      | _ => first | rfl | exact unwritten
    rcases m.store_moves memory with
      same | ⟨d, _, _, next, _⟩ | ⟨d, previous, stage, _⟩
    · exact fun name => (same name).trans (h.same before name)
    · rw [next] at unwritten
      cases unwritten
    · rw [stage] at before
      cases before

end Run

namespace Draft

open Run (collection dims)

/-- A draft is drawn up from the policy and the provider that the configuration plans for the
job, and the chunks are those of the document as it is. -/
def Planned (s : Setup) (w : World) (job : Job) (d : Draft) : Prop :=
  (∃ settings, Run.plan s w.env job settings = .ok (d.policy, d.provider)) ∧
    ∃ doc supply next, w.db.documents.document? job.workspaceId job.documentId = some doc ∧
      ChunkSet.build job.documentId d.revisionId doc.body d.policy.window supply =
        (d.set, next)

theorem Planned.ordinals {s : Setup} {w : World} {job : Job} {d : Draft}
    (h : d.Planned s w job) :
    d.set.chunks.map (·.ordinal) = (List.range d.set.chunks.length).map Int.ofNat := by
  obtain ⟨_, doc, supply, next, _, built⟩ := h
  obtain ⟨chunks, _⟩ := ChunkSet.build_chunks built
  rw [chunks, Chunk.ordinals_ofSpans, Chunk.length_ofSpans, List.range_eq_range']

def embeddings (d : Draft) (chunks : List Chunk) : List Question :=
  chunks.map fun c => .embed d.provider.id c.text

def uploads (s : Setup) (job : Job) (d : Draft) : List Question :=
  [.ensure (collection s job), .upsert (collection s job),
    .cleanup (collection s job)
      (.superseded job.workspaceId job.documentId d.revisionId)]

/-- All that is to be asked for a draft, in order. -/
def questions (s : Setup) (w : World) (job : Job) (d : Draft) : List Question :=
  (if w.asksToken d.provider then [.token d.provider.id] else []) ++
    (d.embeddings d.set.chunks ++ d.uploads s job)

/-- A batch has one point for each chunk, with the vector that was answered for it, and all
vectors have the length that the collection was asked for. -/
def Covers (d : Draft) (log : List Call) (batch : List Point) : Prop :=
  ∃ name size, Call.ensure name size (.ok ()) ∈ log ∧
    (log.filterMap Call.vector?).length = d.set.chunks.length ∧
    (∀ v ∈ log.filterMap Call.vector?, v.length = size) ∧
    batch.map (·.id) = d.set.chunks.map (·.vectorId) ∧
    batch.map (·.vector) = log.filterMap Call.vector?

/-- Calls go along with a draft as far as they go. -/
structure InOrder (s : Setup) (w : World) (job : Job) (d : Draft) (log : List Call) : Prop where
  order : log.map (·.question) <+: d.questions s w job
  answered : ∀ c ∈ log.dropLast, c.succeeded = true
  written : ∀ batch ∈ log.filterMap Call.batch?, d.Covers log batch

/-- The calls for a draft have succeeded up to what is still to be asked. -/
structure Asked (s : Setup) (w : World) (job : Job) (d : Draft) (rest : List Question)
    (log : List Call) : Prop where
  planned : d.Planned s w job
  order : log.map (·.question) ++ rest = d.questions s w job
  answered : ∀ c ∈ log, c.succeeded = true
  vectors : log.filterMap Call.vector? = d.vectors
  even : ∀ v ∈ d.vectors, v.length = dims d

namespace Asked

variable {s : Setup} {w : World} {job : Job} {d : Draft} {rest : List Question}
  {log : List Call} {c : Call}

theorem stop (h : d.Asked s w job rest log)
    (written : ∀ batch ∈ log.filterMap Call.batch?, d.Covers log batch) :
    d.InOrder s w job log where
  order := ⟨rest, h.order⟩
  answered := fun c member => h.answered c ((List.dropLast_sublist log).subset member)
  written := written

/-- One more call is made, whatever its answer, and then no more. -/
theorem stop_at (h : d.Asked s w job (c.question :: rest) log)
    (written : ∀ batch ∈ (log ++ [c]).filterMap Call.batch?, d.Covers (log ++ [c]) batch) :
    d.InOrder s w job (log ++ [c]) where
  order := ⟨rest, by simpa using h.order⟩
  answered := by
    rw [List.dropLast_concat]
    exact h.answered
  written := written

theorem next (h : d.Asked s w job (c.question :: rest) log) (succeeded : c.succeeded = true)
    (none : c.vector? = none) : d.Asked s w job rest (log ++ [c]) where
  planned := h.planned
  order := by simpa using h.order
  answered := by
    intro call member
    rcases List.mem_append.mp member with old | new
    · exact h.answered call old
    · exact List.mem_singleton.mp new ▸ succeeded
  vectors := by simpa [none] using h.vectors
  even := h.even

/-- One more text has a vector, which is as long as those before it. -/
theorem embedded {text : String} {e : Embedding}
    (h : d.Asked s w job (.embed d.provider.id text :: rest) log)
    (same : ∀ v, d.vectors.head? = some v → e.vector.length = v.length) :
    Asked s w job
      { d with vectors := d.vectors ++ [e.vector], usages := d.usages ++ [e.usage] } rest
      (log ++ [.embed d.provider d.token text (.ok e)]) where
  planned := h.planned
  order := by
    rw [List.map_append, List.append_assoc]
    exact h.order
  answered := by
    intro call member
    rcases List.mem_append.mp member with old | new
    · exact h.answered call old
    · rw [List.mem_singleton.mp new]
      rfl
  vectors := by
    rw [List.filterMap_append, h.vectors]
    rfl
  even := by
    have even := h.even
    unfold dims at even ⊢
    intro v member
    cases first : d.vectors with
    | nil =>
      rw [first, List.nil_append, List.mem_singleton] at member
      rw [member]
      rfl
    | cons u others =>
      simp only [first, List.cons_append, List.head?_cons, Option.map_some,
        Option.getD_some] at member even same ⊢
      rcases List.mem_append.mp (List.cons_append ▸ member) with old | new
      · exact even v old
      · rw [List.mem_singleton.mp new]
        exact same u rfl

end Asked

theorem Covers.later {d : Draft} {log : List Call} {batch : List Point} {c : Call}
    (h : d.Covers log batch) (none : c.vector? = none) : d.Covers (log ++ [c]) batch := by
  obtain ⟨name, size, ensured, answers⟩ := h
  have same : (log ++ [c]).filterMap Call.vector? = log.filterMap Call.vector? := by
    simp [List.filterMap_append, none]
  refine ⟨name, size, List.mem_append_left _ ensured, ?_⟩
  rw [same]
  exact answers

theorem Asked.covered {s : Setup} {w : World} {job : Job} {d : Draft} {rest : List Question}
    {log : List Call} {batch : List Point} {name : String} (asked : d.Asked s w job rest log)
    (unwritten : log.filterMap Call.batch? = [])
    (count : d.vectors.length = d.set.chunks.length)
    (ensured : Call.ensure name (dims d) (.ok ()) ∈ log)
    (rendered : Run.points job d = .ok batch) (place : String)
    (answer : Except StoreError Unit) :
    ∀ sent ∈ (log ++ [Call.upsert place batch answer]).filterMap Call.batch?,
      d.Covers (log ++ [Call.upsert place batch answer]) sent := by
  intro sent member
  rw [List.filterMap_append, unwritten] at member
  obtain rfl := List.mem_singleton.mp member
  obtain ⟨ids, vectors, _⟩ := Run.points_spec count rendered
  have covers : d.Covers log sent := by
    refine ⟨name, dims d, ensured, ?_⟩
    rw [asked.vectors]
    exact ⟨count, asked.even, ids, vectors⟩
  exact covers.later rfl

theorem none_written {d : Draft} {log : List Call} {c : Call}
    (unwritten : log.filterMap Call.batch? = []) (other : c.batch? = none) :
    ∀ batch ∈ (log ++ [c]).filterMap Call.batch?, d.Covers (log ++ [c]) batch := by
  simp [List.filterMap_append, unwritten, other]

end Draft

/-- How far the calls of a run have come that found the world in `w₀`: as far as a draft goes,
and to its end if the job is completed. -/
def Settled (s : Setup) (job : Job) (w₀ : World) (log : List Call) (completed : Bool) : Prop :=
  (log = [] ∧ completed = false) ∨
    ∃ d : Draft, d.Planned s w₀ job ∧ d.InOrder s w₀ job log ∧
      (completed = true → log.map (·.question) = d.questions s w₀ job)

theorem Settled.partway {s : Setup} {job : Job} {w₀ : World} {log : List Call} {d : Draft}
    (planned : d.Planned s w₀ job) (inOrder : d.InOrder s w₀ job log) :
    Settled s job w₀ log false := by
  refine .inr ⟨d, planned, inOrder, ?_⟩
  intro completed
  cases completed

/-- Nothing has been asked, and nothing that a plan depends on has changed. -/
structure Unasked (w₀ w : World) (log : List Call) : Prop where
  log : log = []
  desk : w.desk = w₀.desk
  steady : w.steady = w₀.steady
  env : w.env = w₀.env
  documents : w.db.documents = w₀.db.documents

namespace Unasked

variable {w₀ w : World} {log : List Call} (h : Unasked w₀ w log)
include h

theorem asksToken (p : Provider) : w.asksToken p = w₀.asksToken p := by
  unfold World.asksToken
  rw [h.desk, h.steady, h.env]

theorem settled (s : Setup) (job : Job) : Settled s job w₀ log false := .inl ⟨h.log, rfl⟩

theorem asked {s : Setup} {job : Job} {d : Draft} (none : d.vectors = [])
    (planned : d.Planned s w₀ job) : d.Asked s w₀ job (d.questions s w₀ job) log where
  planned := planned
  order := by rw [h.log]; rfl
  answered := by simp [h.log]
  vectors := by rw [h.log, none]; rfl
  even := by simp [none]

/-- A token that was asked for in vain is all that was asked for. -/
theorem refused {s : Setup} {job : Job} {d : Draft} (none : d.vectors = [])
    (planned : d.Planned s w₀ job) (answer : TokenAnswer) :
    Settled s job w₀
      (log ++ (if w.asksToken d.provider then some (Call.token d.provider answer)
        else Option.none).toList) false := by
  have asked := h.asked none planned
  unfold Draft.questions at asked
  rw [← h.asksToken] at asked
  split <;> rename_i asks
  · rw [if_pos asks] at asked
    exact .partway planned (asked.stop_at (Draft.none_written (by rw [h.log]; rfl) rfl))
  · rw [Option.toList_none, List.append_nil]
    exact h.settled s job

/-- A token that was asked for and given leaves the vectors to be asked for. -/
theorem authorized {s : Setup} {job : Job} {d : Draft} (none : d.vectors = [])
    (planned : d.Planned s w₀ job) (token : Option String) :
    Draft.Asked s w₀ job { d with token } (d.embeddings d.set.chunks ++ d.uploads s job)
      (log ++ (if w.asksToken d.provider then some (Call.token d.provider (.given token))
        else Option.none).toList) := by
  have asked := h.asked none planned
  unfold Draft.questions at asked
  rw [← h.asksToken] at asked
  split <;> rename_i asks
  · rw [if_pos asks] at asked
    exact { asked.next (c := .token d.provider (.given token)) rfl rfl with }
  · rw [if_neg asks] at asked
    rw [Option.toList_none, List.append_nil]
    exact { asked with }

end Unasked

def Stage.Called (s : Setup) (job : Job) (w₀ w : World) (log : List Call) : Stage → Prop
  | .looking | .locking _ | .opening _ => Unasked w₀ w log
  | .chunking d => Unasked w₀ w log ∧ d.vectors = [] ∧
    ∃ settings, Run.plan s w₀.env job settings = .ok (d.policy, d.provider)
  | .sizing d | .admitting d | .authorizing d =>
    Unasked w₀ w log ∧ d.vectors = [] ∧ d.Planned s w₀ job
  | .embedding d left =>
    d.Asked s w₀ job (d.embeddings left ++ d.uploads s job) log ∧
      log.filterMap Call.batch? = [] ∧ d.vectors.length + left.length = d.set.chunks.length
  | .ensuring d =>
    d.Asked s w₀ job (d.uploads s job) log ∧ log.filterMap Call.batch? = [] ∧
      d.vectors.length = d.set.chunks.length
  | .writing d =>
    d.Asked s w₀ job (d.uploads s job).tail log ∧ log.filterMap Call.batch? = [] ∧
      d.vectors.length = d.set.chunks.length ∧
      .ensure (Run.collection s job) (Run.dims d) (.ok ()) ∈ log
  | .accounting d | .switching d | .cleaning d _ =>
    d.Asked s w₀ job (d.uploads s job).tail.tail log ∧
      ∀ batch ∈ log.filterMap Call.batch?, d.Covers log batch
  | .deferring outcome _ _ => log = [] ∧ outcome.isCompleted = false
  | .refreshing outcome | .releasing outcome | .finished outcome =>
    Settled s job w₀ log outcome.isCompleted
  | .failing _ _ | .settling _ | .marking _ | .noting _ | .crashed =>
    Settled s job w₀ log false

namespace Run

variable {s : Setup} {w₀ : World} {r r' : Run} {w w' : World} {log : List Call}

/-- Every move makes the calls that its stage says. -/
theorem Move.called (m : Move s r w r' w') (h : r.stage.Called s r.job w₀ w log) :
    r'.stage.Called s r'.job w₀ w' (log ++ (call? s r w).toList) := by
  have quiet : call? s r w = none → log ++ (call? s r w).toList = log := by
    intro none
    rw [none, Option.toList_none, List.append_nil]
  cases m with
  | free | watched | ended | locked =>
    rw [quiet rfl]
    exact { h with }
  | paused | busy =>
    rw [quiet rfl]
    exact ⟨h.log, rfl⟩
  | canceled | unplanned =>
    rw [quiet rfl]
    exact h.settled _ _
  | opened settings policy provider plan =>
    rw [quiet rfl]
    exact ⟨{ h with }, rfl, settings, h.env ▸ plan⟩
  | missing | blank | denied =>
    rw [quiet rfl]
    exact h.1.settled _ _
  | chunked d doc set drawn found built =>
    obtain ⟨unasked, none, plan⟩ := h
    rw [quiet rfl]
    exact ⟨{ unasked with }, none, plan, doc, _, drawn, unasked.documents ▸ found, built⟩
  | sized | admitted =>
    obtain ⟨unasked, none, planned⟩ := h
    rw [quiet rfl]
    exact ⟨{ unasked with }, none, planned⟩
  | authorized d token given =>
    obtain ⟨unasked, none, planned⟩ := h
    have asked := unasked.authorized none planned token
    simp only [call?, given]
    refine ⟨asked, ?_, ?_⟩
    · rw [unasked.log]
      split <;> rfl
    · rw [none, List.length_nil, Nat.zero_add]
  | refused d e answer | stopped d answer =>
    obtain ⟨unasked, none, planned⟩ := h
    exact unasked.refused none planned _
  | embeddedAll d =>
    obtain ⟨asked, unwritten, count⟩ := h
    rw [quiet rfl]
    exact ⟨asked, unwritten, count⟩
  | kept d c left e answer same =>
    obtain ⟨asked, unwritten, count⟩ := h
    simp only [call?, answer, Option.toList_some]
    refine ⟨asked.embedded same, ?_, ?_⟩
    · rw [List.filterMap_append, unwritten]
      rfl
    · simp only [List.length_append, List.length_cons, List.length_nil] at count ⊢
      omega
  | mismatched d c left | unembedded d c left | unaccepted d c left =>
    obtain ⟨asked, unwritten, _⟩ := h
    refine .partway asked.planned ?_
    exact asked.stop_at (c := .embed d.provider d.token c.text _) (Draft.none_written unwritten rfl)
  | @ensured job holder w d answer =>
    obtain ⟨asked, unwritten, count⟩ := h
    have made : call? s ⟨job, holder, .ensuring d⟩ w =
        some (.ensure (collection s job) (dims d) (.ok ())) :=
      congrArg (fun answer => some (Call.ensure (collection s job) (dims d) answer)) answer
    rw [made, Option.toList_some]
    refine ⟨asked.next rfl rfl, ?_, count, List.mem_append_right _ List.mem_cons_self⟩
    rw [List.filterMap_append, unwritten]
    rfl
  | unensured d =>
    obtain ⟨asked, unwritten, _⟩ := h
    refine .partway asked.planned ?_
    exact asked.stop_at (c := .ensure _ _ _) (Draft.none_written unwritten rfl)
  | unrendered d e rendered =>
    obtain ⟨asked, unwritten, _⟩ := h
    rw [quiet (by simp only [call?, rendered])]
    exact .partway asked.planned (asked.stop (by simp [unwritten]))
  | written d batch rendered answer =>
    obtain ⟨asked, unwritten, count, ensured⟩ := h
    simp only [call?, rendered, answer, Option.toList_some]
    exact ⟨asked.next rfl rfl, asked.covered unwritten count ensured rendered _ _⟩
  | unwritten d batch e rendered =>
    obtain ⟨asked, unwritten, count, ensured⟩ := h
    simp only [call?, rendered, Option.toList_some]
    refine .partway asked.planned ?_
    exact asked.stop_at (c := .upsert _ batch _)
      (asked.covered unwritten count ensured rendered _ _)
  | unaccounted | accounted | switched =>
    rw [quiet rfl]
    exact h
  | vanished d =>
    obtain ⟨asked, covered⟩ := h
    rw [quiet rfl]
    exact .partway asked.planned (asked.stop covered)
  | cleaned d previous =>
    obtain ⟨asked, covered⟩ := h
    refine .inr ⟨d, asked.planned, asked.stop_at (c := .cleanup _ _ _) ?_, fun _ => ?_⟩
    · intro batch member
      rw [List.filterMap_append] at member
      exact (covered batch (by simpa [Call.batch?] using member)).later rfl
    · rw [List.map_append]
      exact asked.order
  | deferred =>
    obtain ⟨none, incomplete⟩ := h
    rw [quiet rfl]
    exact .inl ⟨none, incomplete⟩
  | @refreshed _ holder =>
    rw [quiet rfl]
    cases holder <;> exact h
  | _ =>
    rw [quiet rfl]
    exact h

theorem calls_settled (s : Setup) (w : World) (job : Job) :
    Settled s job w (calls s (.start job) w)
      ((w.process s job).1.any Outcome.isCompleted) := by
  have holds := calls_keep (s := s)
    (I := fun r v log => r.job = job ∧ r.stage.Called s job w v log)
    (by
      rintro r v r' v' log ⟨rfl, called⟩ m
      have same := m.same_job
      exact ⟨same, same ▸ m.called called⟩)
    (.start job) w [] ⟨rfl, rfl, rfl, rfl, rfl, rfl⟩
  have called := holds.2
  rcases w.process_cases s job with ⟨outcome, ran, stage⟩ | ⟨ran, stage⟩
  · rw [stage] at called
    rw [ran]
    exact called
  · rw [stage] at called
    rw [ran]
    exact called

end Run

/-- Whatever services answer and others do meanwhile, the calls of a job's run are those that are
planned for its document, in order and up to where the run ends; all but the last of them have
come to what was asked for, and a batch is written only for all chunks with all their vectors.
All of them are made when the job is completed. When it is not, the points of a store in memory
are what they were. The calls are those of the steps in which the run goes to its end, and no step
does anything to the services but by its call. -/
theorem process_calls (s : Setup) (w : World) (job : Job) :
    let calls := Run.calls s (.start job) w
    let completed := (w.process s job).1.any Outcome.isCompleted
    let reached := fun k => Run.steps s k (.start job) w
    ((calls = [] ∧ completed = false) ∨
      ∃ d : Draft, d.Planned s w job ∧ d.InOrder s w job calls ∧
        d.set.chunks.map (·.ordinal) = (List.range d.set.chunks.length).map Int.ofNat ∧
        (completed = true → calls.map (·.question) = d.questions s w job)) ∧
    (s.gateway = none → completed = false →
      ∀ name, (w.process s job).2.store.all name = w.store.all name) ∧
    (∃ n, Run.complete s (.start job) w = reached n ∧ calls =
      (List.range n).flatMap fun k => ((reached k).1.call? s (reached k).2).toList) ∧
    ∀ (r : Run) (v : World), (v.afterCall s (r.call? s v)).SameOutside (r.step s v).2 := by
  intro calls completed reached
  refine ⟨?_, ?_, Run.calls_eq_steps s _ w, Run.step_outside s⟩
  · rcases Run.calls_settled s w job with none | ⟨d, planned, inOrder, all⟩
    · exact .inl none
    · exact .inr ⟨d, planned, inOrder, planned.ordinals, all⟩
  · intro memory incomplete name
    have untouched := Run.complete_keeps (s := s) (I := Run.Untouched w)
      (fun r v r' v' h m => h.move m memory) (.start job) w (.start job w)
    rw [World.process_world]
    refine untouched.same ?_ name
    rcases w.process_cases s job with ⟨outcome, ran, stage⟩ | ⟨_, stage⟩
    · simp only [completed, ran] at incomplete
      rw [stage]
      exact incomplete
    · rw [stage]
      rfl

end IndexingPipeline
