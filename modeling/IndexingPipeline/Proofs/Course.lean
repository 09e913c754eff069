import IndexingPipeline.Proofs.Docket
import IndexingPipeline.Proofs.Ledger

/-!
# The course of a document

All that can happen to the docket of one document, step by step: it is written, its jobs are
recovered, one of them is claimed, and the run of that job goes through a few phases to one of
its ends. Whatever is done to the world, its dockets take such steps and no others. What is to be
said of a document at rest is therefore proved of these steps alone.
-/

namespace IndexingPipeline

/-- How far the run of a job of a document has come. -/
inductive Phase where
  /-- There is no such run, or it has nothing more to do to the document and its jobs. -/
  | idle
  /-- The run has not tried to take the document's lock, or not got it. -/
  | outside (job : Job)
  /-- The run is at work, and has read what it says. -/
  | working (job : Job) (read : Option Edition)
  /-- The job is failed; the document does not say so yet. -/
  | failed
  | stopped (job : Job)

def Phase.job? : Phase → Option Job
  | .outside job => some job
  | .working job _ => some job
  | .stopped job => some job
  | _ => none

/-- Whether a run is where nothing can be done to its document meanwhile. -/
def Phase.isOutside : Phase → Bool
  | .outside _ => true
  | _ => false

structure Terms where
  settings : WorkerSettings
  /-- What is known of editions. -/
  made : Edition → Prop
  /-- Whether the document may be written while a job of it is under way. -/
  disturbed : Prop
  stops : Prop

def Queue.IsCalm (q : Queue) : Prop := ∀ j ∈ q, j.status ≠ .processing

instance (q : Queue) : Decidable q.IsCalm := inferInstanceAs (Decidable (∀ j ∈ q, _))

namespace Docket

/-- One step of the course of a document. -/
inductive Step (t : Terms) : Phase → Docket → Phase → Docket → Prop
  | written {p a b} : p.isOutside = false → t.disturbed ∨ a.jobs.IsCalm → a.Submitted b →
      Step t p a p b
  | recovered {a} (now : Int) :
      Step t .idle a .idle ⟨a.document, (a.jobs.recover t.settings now).2⟩
  | claimed {a jobs} (j j' : Job) : j.status = .pending → j'.status = .processing →
      j'.versionId = j.versionId → j'.attempts = j.attempts → a.jobs.Changed j j' jobs →
      Step t .idle a (.outside j') ⟨a.document, jobs⟩
  | entered {a job} : Step t (.outside job) a (.working job none) a
  | deferred {a jobs job} (j' : Job) : j'.status = .pending → j'.versionId = job.versionId →
      j'.attempts = job.attempts → a.jobs.Changed job j' jobs →
      Step t (.outside job) a .idle ⟨a.document, jobs⟩
  | read {a job d} (e : Edition) : a.document = some d → t.made e →
      e.versionId = job.versionId → e.body = d.body →
      Step t (.working job none) a (.working job (some e)) a
  | retried {a jobs job read} (j' : Job) : j'.status = .pending →
      j'.versionId = job.versionId → j'.attempts = wrapU32 (job.attempts + 1) →
      j'.attempts < t.settings.maxAttempts → a.jobs.Changed job j' jobs →
      Step t (.working job read) a .idle ⟨a.document, jobs⟩
  | failed {a jobs job read} (j' : Job) : j'.status = .failed →
      j'.attempts = job.attempts ∨ j'.attempts = wrapU32 (job.attempts + 1) →
      a.jobs.Changed job j' jobs → Step t (.working job read) a .failed ⟨a.document, jobs⟩
  | marked {a} (now : Int) (reason : String) :
      Step t .failed a .idle
        ⟨a.document.map fun d =>
          { d with indexStatus := .error, indexError := some reason, updatedAt := now }, a.jobs⟩
  | switched {a jobs job d} (now : Int) (e : Edition) (j' : Job) : a.document = some d →
      j'.status = .completed → j'.attempts = job.attempts → a.jobs.Changed job j' jobs →
      Step t (.working job (some e)) a .idle
        ⟨some { d with
          currentRevisionId := some e.revisionId, currentChunkSetId := some e.chunkSetId
          indexedVersionId := some job.versionId, indexStatus := .ready, indexError := none
          updatedAt := now }, jobs⟩
  | stopped {a job read} : Step t (.working job read) a (.stopped job) a
  | left {a job} : t.stops → Step t (.stopped job) a .idle a

inductive Course (t : Terms) : Phase → Docket → Phase → Docket → Prop
  | refl (p : Phase) (a : Docket) : Course t p a p a
  | later {p a p' b p'' c} : Course t p a p' b → Step t p' b p'' c → Course t p a p'' c

namespace Course

variable {t : Terms} {p p' p'' : Phase} {a b c : Docket}

theorem one (step : Step t p a p' b) : Course t p a p' b := .later (.refl p a) step

theorem last (step : Step t p a p' b) (same : c = b) : Course t p a p' c := same ▸ one step

theorem trans (first : Course t p a p' b) (second : Course t p' b p'' c) :
    Course t p a p'' c := by
  induction second with
  | refl => exact first
  | later _ last ih => exact .later ih last

theorem keeps {I : Phase → Docket → Prop} (course : Course t p a p' b)
    (keep : ∀ {p a p' b}, I p a → Step t p a p' b → I p' b) (start : I p a) : I p' b := by
  induction course with
  | refl => exact start
  | later _ last ih => exact keep ih last

theorem mono (course : Course t p a p' b) {made : Edition → Prop}
    (more : ∀ e, t.made e → made e) : Course { t with made } p a p' b := by
  induction course with
  | refl => exact .refl _ _
  | later _ last ih =>
    refine .later ih ?_
    cases last with
    | written quiet calm submitted => exact .written quiet calm submitted
    | recovered now => exact .recovered now
    | claimed j j' waits taken version attempts changed =>
      exact .claimed j j' waits taken version attempts changed
    | entered => exact .entered
    | deferred j' waits version attempts changed =>
      exact .deferred j' waits version attempts changed
    | read e there known version body => exact .read e there (more e known) version body
    | retried j' waits version attempts few changed =>
      exact .retried j' waits version attempts few changed
    | failed j' ended attempts changed => exact .failed j' ended attempts changed
    | marked now reason => exact .marked now reason
    | switched now e j' there ended attempts changed =>
      exact .switched now e j' there ended attempts changed
    | stopped => exact .stopped
    | left stops => exact .left stops

end Course

theorem Submitted.calm {a b : Docket} (submitted : a.Submitted b) (calm : a.jobs.IsCalm) :
    b.jobs.IsCalm := by
  obtain ⟨_, _, _, _, _, asked⟩ := submitted
  intro x member
  cases asked with
  | pointed j j' _ waits _ _ changed =>
    rcases (changed.mem x).mp member with rfl | ⟨old, _⟩
    · simp [waits]
    · exact calm x old
  | added j' _ waits _ _ mem =>
    rcases (mem x).mp member with rfl | old
    · simp [waits]
    · exact calm x old

namespace Grown

variable {t : Terms} {p : Phase} {a b : Docket} (grown : a.Grown b)
include grown

theorem calm (calm : a.jobs.IsCalm) : b.jobs.IsCalm := by
  induction grown with
  | refl => exact calm
  | later _ last ih => exact last.calm ih

theorem course (quiet : p.isOutside = false) (free : t.disturbed ∨ a.jobs.IsCalm) :
    Course t p a p b := by
  induction grown with
  | refl => exact .refl _ _
  | later first last ih => exact .later ih (.written quiet (free.imp_right first.calm) last)

end Grown

end Docket

/-- The phase in which a run is for its own document, by its stage. -/
def Stage.IsIn (job : Job) (p : Phase) : Stage → Prop
  | .looking | .deferring _ _ _ | .locking _ => p = .outside job
  | .opening _ | .chunking _ => p = .working job none
  | .sizing d | .admitting d | .authorizing d | .embedding d _ | .ensuring d | .writing d
  | .accounting d | .switching d =>
    ∃ body, p = .working job (some ⟨d.revisionId, d.set.id, job.versionId, body, d.policy⟩)
  | .failing _ _ | .settling _ => ∃ read, p = .working job read
  | .marking _ => p = .failed
  | .crashed => p = .stopped job
  | _ => p = .idle

def Run.IsIn (workspace id : String) (r : Run) (p : Phase) : Prop :=
  if r.job.isOf workspace id then r.stage.IsIn r.job p else p = .idle

/-- Whether what a stage does concerns the run's document and its job. -/
def Stage.concludes : Stage → Bool
  | .deferring _ _ _ => true
  | .settling _ => true
  | .switching _ => true
  | .marking _ => true
  | _ => false

namespace World

variable {w w' : World} {workspace id : String}

theorem docket_congr (jobs : w'.db.jobs = w.db.jobs)
    (documents : w'.db.documents = w.db.documents) :
    w'.docket workspace id = w.docket workspace id := by
  rw [docket, docket, jobs, documents]

theorem docket_eq {document : Option Document} {jobs : Queue}
    (found : w.db.documents.document? workspace id = document)
    (own : w.db.jobs.ofDocument workspace id = jobs) :
    w.docket workspace id = ⟨document, jobs⟩ := by
  rw [docket, found, own]

/-- A change of a job and of a document does nothing to the docket of another document. -/
theorem docket_other {job : Job} {f : Job → Job} (sound : w.Sound)
    (row : w.db.jobs.job? job.id = some job) (other : job.isOf workspace id = false)
    (jobs : w'.db.jobs = w.db.jobs.update job.id f)
    (keeps : ∀ j, (f j).isOf workspace id = j.isOf workspace id)
    (document : w'.db.documents.document? workspace id =
      w.db.documents.document? workspace id) :
    w'.docket workspace id = w.docket workspace id := by
  rw [docket, docket, document, jobs,
    Queue.ofDocument_update_other sound.jobs_once row other keeps]

/-- A provider that is played plays its turns in order, and nothing else touches them. -/
theorem awaitsWrite_embed (s : Setup) (w : World) (p : Provider) (token : Option String)
    (text : String) (unwritten : w.awaitsWrite workspace id = false) :
    (w.embed s p token text).2.awaitsWrite workspace id = false := by
  refine embed_preserves (I := fun v => v.awaitsWrite workspace id = false) s w p token text
    (fun _ => unwritten) ?_ ?_
  · simp only [awaitsWrite, Bool.or_eq_false_iff, List.any_eq_false] at unwritten ⊢
    exact ⟨unwritten.1, fun turn member => unwritten.2 turn (List.mem_of_mem_drop member)⟩
  · intro v i _ still
    cases i <;> exact still

end World

namespace Run

variable {s : Setup} {job : Job} {w₀ : World} {r r' : Run} {w w' : World}
  {workspace id : String}

theorem Move.awaitsWrite (m : Move s r w r' w')
    (unwritten : w.awaitsWrite workspace id = false) :
    w'.awaitsWrite workspace id = false := by
  have outside : ∀ v, w.SameInside v → v.awaitsWrite workspace id = false := by
    intro v same
    rw [← unwritten, World.awaitsWrite, World.awaitsWrite, same.usualTurn, same.turns]
  cases m with
  | kept | mismatched | unembedded | unaccepted =>
    exact World.awaitsWrite_embed s w _ _ _ unwritten
  | ensured | unensured => exact outside _ (w.ensureCollection_inside s _ _)
  | written | unwritten => exact outside _ (w.writePoints_inside s _ _)
  | cleaned => exact outside _ (w.deletePoints_inside s _ _)
  | _ => exact unwritten

/-- Unless it concludes a job of the document, a move changes its docket only by what others
write meanwhile. -/
theorem Move.docket_grown (m : Move s r w r' w') (h : Abreast s job w₀ r w)
    (apart : job.isOf workspace id = false ∨ r.stage.concludes = false) :
    (w.docket workspace id).Grown (w'.docket workspace id) ∧
      (w.awaitsWrite workspace id = false →
        w'.docket workspace id = w.docket workspace id) := by
  have same : w'.docket workspace id = w.docket workspace id →
      (w.docket workspace id).Grown (w'.docket workspace id) ∧
        (w.awaitsWrite workspace id = false →
          w'.docket workspace id = w.docket workspace id) :=
    fun same => ⟨same ▸ .refl _, fun _ => same⟩
  have jobs := m.jobs_kept
  have documents := m.documents_kept
  have row := h.row
  have once := h.sound.jobs_once
  have mine := h.same_job
  cases m with
  | kept | mismatched | unembedded => exact World.docket_embed h.sound workspace id s _ _ _
  | unaccepted => exact World.docket_embed h.sound workspace id s _ _ _
  | deferred | final =>
    subst mine
    have other := apart.resolve_right (by simp [Stage.concludes])
    exact same (World.docket_other h.sound (row rfl) other rfl (fun _ => rfl) rfl)
  | retried e attempts moment jobs retryable retry =>
    subst mine
    have other := apart.resolve_right (by simp [Stage.concludes])
    exact same (World.docket_other h.sound (row rfl) other (Queue.update_of_rescheduled retry).2.2
      (fun _ => rfl) rfl)
  | exhausted e attempts jobs retryable retry =>
    subst mine
    have other := apart.resolve_right (by simp [Stage.concludes])
    exact same (World.docket_other h.sound (row rfl) other (Queue.update_of_exhausted retry).2
      (fun _ => rfl) rfl)
  | switched =>
    subst mine
    have other := apart.resolve_right (by simp [Stage.concludes])
    have elsewhere := Job.isOf_eq_false.mp other
    refine same (World.docket_other h.sound (row rfl) other rfl (fun _ => rfl) ?_)
    simp only [Documents.markUpToDate, Documents.switch]
    rw [Documents.document?_update_other elsewhere (by intro d; rfl),
      Documents.document?_update_other elsewhere (by intro d; rfl)]
  | marked =>
    subst mine
    have other := apart.resolve_right (by simp [Stage.concludes])
    have elsewhere := Job.isOf_eq_false.mp other
    refine same ?_
    rw [World.docket, World.docket]
    congr 1
    exact Documents.document?_update_other elsewhere fun _ => rfl
  | vanished => exact same rfl
  | _ =>
    exact same (World.docket_congr (jobs (by simp [Stage.writes]))
      (documents (by simp [Stage.writes])))

theorem Move.course_own (m : Move s r w r' w') (h : Abreast s job w₀ r w) {t : Terms}
    (settings : t.settings = s.config.worker)
    (made : ∀ e, w'.Made s e → r.WorksAt e.revisionId e.policy → t.made e)
    (opened : ∀ d, r.stage.draft? = some d → r.Opened s w d) (shelved : w.Shelved)
    (free : t.disturbed ∨ w.awaitsWrite workspace id = false ∨
      (w.docket workspace id).jobs.IsCalm)
    (own : job.isOf workspace id = true) {p : Phase} (here : r.stage.IsIn job p) :
    ∃ p', r'.stage.IsIn job p' ∧
      Docket.Course t p (w.docket workspace id) p' (w'.docket workspace id) := by
  -- what others write meanwhile, in a phase that is not outside
  have grown : r.stage.concludes = false → p.isOutside = false →
      Docket.Course t p (w.docket workspace id) p (w'.docket workspace id) := by
    intro onward quiet
    obtain ⟨grown, same⟩ := m.docket_grown h (.inr onward)
    rcases free with disturbed | unwritten | calm
    · exact grown.course quiet (.inl disturbed)
    · rw [same unwritten]
      exact .refl _ _
    · exact grown.course quiet (.inr calm)
  have row := h.row
  have once := h.sound.jobs_once
  have mine := h.same_job
  cases m with
  | @deferred _ _ w outcome moment reason =>
    obtain rfl : _ = job := mine
    obtain rfl : p = _ := here
    refine ⟨.idle, rfl, .one (.deferred { ‹Job› with
      status := .pending, scheduledAt := moment, claimedAt := none
      lastError := some reason, updatedAt := w.now } rfl rfl rfl ?_)⟩
    exact Queue.ofDocument_changed once (row rfl) own (fun _ => rfl) rfl
  | @retried job _ w e attempts moment jobs retryable retry =>
    subst mine
    obtain ⟨read, rfl⟩ := here
    obtain ⟨counted, few, rfl⟩ := Queue.update_of_rescheduled retry
    refine ⟨.idle, rfl, .one (.retried { job with
      status := .pending, attempts, scheduledAt := moment, claimedAt := none
      lastError := some e.message, updatedAt := w.now } rfl rfl counted (settings ▸ few) ?_)⟩
    exact Queue.ofDocument_changed once (row rfl) own (fun _ => rfl) rfl
  | @exhausted job _ w e attempts jobs retryable retry =>
    subst mine
    obtain ⟨read, rfl⟩ := here
    obtain ⟨counted, rfl⟩ := Queue.update_of_exhausted retry
    refine ⟨.failed, rfl, .one (.failed { job with
      status := .failed, attempts, lastError := some (givingUp attempts e.message)
      finishedAt := some w.now, updatedAt := w.now } rfl (.inr counted) ?_)⟩
    exact Queue.ofDocument_changed once (row rfl) own (fun _ => rfl) rfl
  | @final job _ w e =>
    subst mine
    obtain ⟨read, rfl⟩ := here
    refine ⟨.failed, rfl, .one (.failed { job with
      status := .failed, lastError := some e.message, finishedAt := some w.now
      updatedAt := w.now } rfl (.inl rfl) ?_)⟩
    exact Queue.ofDocument_changed once (row rfl) own (fun _ => rfl) rfl
  | @switched job _ w d doc found =>
    subst mine
    obtain ⟨body, rfl⟩ := here
    obtain ⟨rfl, rfl⟩ := Job.isOf_iff.mp own
    have document := Documents.document?_switched found w.now d.revisionId d.set.id job.versionId
    refine ⟨.idle, rfl, .last (.switched w.now _ { job with
      status := .completed, lastError := none, finishedAt := some w.now
      updatedAt := w.now } found rfl rfl ?_) (World.docket_eq document rfl)⟩
    exact Queue.ofDocument_changed once (row rfl) own (fun _ => rfl) rfl
  | @marked job _ w reason =>
    subst mine
    obtain rfl : p = _ := here
    obtain ⟨rfl, rfl⟩ := Job.isOf_iff.mp own
    exact ⟨.idle, rfl, .last (.marked w.now reason)
      (World.docket_eq (Documents.document?_update (by intro d; rfl)) rfl)⟩
  | @chunked job _ w d doc set drawn found built =>
    subst mine
    obtain rfl : p = _ := here
    obtain ⟨rfl, rfl⟩ := Job.isOf_iff.mp own
    have edition := made _ (made_of_chunked shelved (opened d rfl) built) (.of_draft rfl)
    exact ⟨_, ⟨doc.body, rfl⟩, .one (.read _ found edition rfl rfl)⟩
  | paused | free | watched | ended =>
    subst mine
    obtain rfl : p = _ := here
    exact ⟨_, rfl, .refl _ _⟩
  | busy =>
    subst mine
    obtain rfl : p = _ := here
    exact ⟨_, rfl, .refl _ _⟩
  | canceled =>
    subst mine
    obtain rfl : p = _ := here
    exact ⟨_, ⟨none, rfl⟩, .one .entered⟩
  | locked =>
    subst mine
    obtain rfl : p = _ := here
    exact ⟨_, rfl, .one .entered⟩
  | stopped =>
    subst mine
    obtain ⟨body, rfl⟩ := here
    exact ⟨_, rfl, .one .stopped⟩
  | @refreshed _ holder =>
    obtain rfl : p = _ := here
    refine ⟨.idle, ?_, grown rfl rfl⟩
    cases holder <;> rfl
  | cleaned | unnoted | noted | released | unlocked =>
    obtain rfl : p = _ := here
    exact ⟨.idle, rfl, grown rfl rfl⟩
  | unplanned | missing =>
    obtain rfl : p = _ := here
    exact ⟨_, ⟨none, rfl⟩, grown rfl rfl⟩
  | opened =>
    obtain rfl : p = _ := here
    exact ⟨_, rfl, grown rfl rfl⟩
  | unopened | failed =>
    obtain ⟨read, rfl⟩ := here
    exact ⟨_, ⟨read, rfl⟩, grown rfl rfl⟩
  | vanished =>
    obtain ⟨body, rfl⟩ := here
    exact ⟨_, ⟨_, rfl⟩, .refl _ _⟩
  | blank | denied | refused | mismatched | unembedded | unaccepted | unensured | unrendered
  | unwritten =>
    obtain ⟨body, rfl⟩ := here
    exact ⟨_, ⟨_, rfl⟩, grown rfl rfl⟩
  | sized | admitted | authorized | embeddedAll | kept | ensured | written | unaccounted
  | accounted =>
    obtain ⟨body, rfl⟩ := here
    exact ⟨_, ⟨body, rfl⟩, grown rfl rfl⟩

theorem Move.course (m : Move s r w r' w') (h : Abreast s job w₀ r w) {t : Terms}
    (settings : t.settings = s.config.worker)
    (made : ∀ e, w'.Made s e → r.WorksAt e.revisionId e.policy → t.made e)
    (opened : ∀ d, r.stage.draft? = some d → r.Opened s w d) (shelved : w.Shelved)
    (free : t.disturbed ∨ w.awaitsWrite workspace id = false ∨
      (w.docket workspace id).jobs.IsCalm) {p : Phase} (here : r.IsIn workspace id p) :
    ∃ p', r'.IsIn workspace id p' ∧
      Docket.Course t p (w.docket workspace id) p' (w'.docket workspace id) := by
  unfold IsIn at here ⊢
  rw [m.same_job]
  cases own : r.job.isOf workspace id with
  | true =>
    rw [own, if_pos rfl] at here
    rw [h.same_job] at own here ⊢
    exact m.course_own h settings made opened shelved free own here
  | false =>
    rw [own, if_neg Bool.false_ne_true] at here
    subst here
    refine ⟨.idle, rfl, ?_⟩
    obtain ⟨grown, same⟩ := m.docket_grown h (.inl (h.same_job ▸ own))
    rcases free with disturbed | unwritten | calm
    · exact grown.course rfl (.inl disturbed)
    · rw [same unwritten]
      exact .refl _ _
    · exact grown.course rfl (.inr calm)

/-- That a document is left alone while a job of it is under way stays so, move by move. -/
theorem Move.undisturbed (m : Move s r w r' w') (h : Abreast s job w₀ r w)
    (free : w.awaitsWrite workspace id = false ∨
      job.isOf workspace id = false ∧ (w.docket workspace id).jobs.IsCalm) :
    w'.awaitsWrite workspace id = false ∨
      job.isOf workspace id = false ∧ (w'.docket workspace id).jobs.IsCalm := by
  rcases free with unwritten | ⟨other, calm⟩
  · exact .inl (m.awaitsWrite unwritten)
  · exact .inr ⟨other, (m.docket_grown h (.inl other)).1.calm calm⟩

end Run

end IndexingPipeline
