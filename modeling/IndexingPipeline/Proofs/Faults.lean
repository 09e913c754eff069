import IndexingPipeline.Proofs.Failures
import IndexingPipeline.Proofs.Settling

/-!
# Faults of a run

What can stand against a run is told by the answer it gets: of the database, of the checks of its
policy, or of a service. The first fault decides what becomes of the job. Only one on the way to the
token endpoint or to the provider is worth another attempt, and one while cleaning up decides
nothing; any other fails the job and counts no attempt.
-/

namespace IndexingPipeline

/-- What can go wrong in a run. -/
inductive Fault where
  | canceled (action : String)
  | policy (e : PolicyError)
  | unready (e : Unready)
  | noProvider (id : String)
  | noDocument (id : String)
  | noChunks
  | denied (code message : String)
  | token (e : TokenError)
  | embedding (e : EmbeddingError) (index total : Nat)
  | length (index total found expected : Nat)
  | collection (e : StoreError)
  | template (e : PayloadError)
  | upsert (e : StoreError)
  | vanished (workspace id : String)
  | cleanup (e : StoreError)
  deriving DecidableEq, Repr

namespace Fault

/-- Whether the way to the token endpoint or to the provider failed. -/
def isTransport : Fault → Bool
  | .token (.transport _) => true
  | .embedding (.transport _) _ _ => true
  | _ => false

/-- Whether the points of other revisions could not be deleted. -/
def isCleanup : Fault → Bool
  | .cleanup _ => true
  | _ => false

theorem isCleanup_of_transport {f : Fault} (transport : f.isTransport = true) :
    f.isCleanup = false := by
  cases f <;> first | rfl | cases transport

def reason : Fault → String
  | .canceled action => "canceled: " ++ ("action " ++ action ++ " was canceled")
  | .policy e => e.message
  | .unready e => "embedding provider unavailable: " ++ e.message
  | .noProvider id => "provider '" ++ id ++ "' not found"
  | .noDocument id => "document " ++ id ++ " not found"
  | .noChunks => "document produced no chunks"
  | .denied code message => "usage limit reached (" ++ code ++ "): " ++ message
  | .token e => "access token unavailable: " ++ e.message
  | .embedding e index total =>
    "embedding failed for chunk " ++ toString index ++ " of " ++ toString total ++ ": " ++ e.message
  | .length index total found expected => Run.lengthMismatch index total found expected
  | .collection e => "ensure collection failed: " ++ e.message
  | .template e => e.message
  | .upsert e => "upsert failed: " ++ e.message
  | .vanished workspace id => "document " ++ workspace ++ "/" ++ id ++ " not found"
  | .cleanup e => e.message

/-- An error tells a fault: what is said of it, and whether it is worth another attempt. -/
structure ToldBy (f : Fault) (e : JobError) : Prop where
  retryable : e.isRetryable = f.isTransport
  message : e.message = f.reason

theorem ToldBy.token (e : TokenError) : (Fault.token e).ToldBy (.ofToken e) := by
  cases e <;> exact ⟨rfl, rfl⟩

theorem ToldBy.embedding (e : EmbeddingError) (index total : Nat) :
    (Fault.embedding e index total).ToldBy (.ofEmbedding e index total) := by
  cases e <;> exact ⟨rfl, rfl⟩

end Fault

def Outcome.isFlawless : Outcome → Bool
  | .completed _ _ _ cleaned => cleaned.isSome
  | .lockBusy _ => true
  | .paused _ => true
  | .retrying _ _ => false
  | .failed _ => false

def Stage.isFlawless : Stage → Bool
  | .failing _ _ => false
  | .settling _ => false
  | .marking _ => false
  | .noting _ => false
  | .deferring outcome _ _ => outcome.isFlawless
  | .refreshing outcome => outcome.isFlawless
  | .releasing outcome => outcome.isFlawless
  | .finished outcome => outcome.isFlawless
  | _ => true

namespace Run

def planFault? (s : Setup) (env : Environment) (job : Job) (settings : RunSettings) :
    Option Fault :=
  match Policy.effective s.config job.baseId settings with
  | .error e => some (.policy e)
  | .ok policy =>
    match s.config.readiness env policy.providerId with
    | .error e => some (.unready e)
    | .ok () =>
      match s.config.providerFor? policy.providerId policy.model with
      | none => some (.noProvider policy.providerId)
      | some _ => none

/-- What stands against the next step of a run. -/
def fault? (s : Setup) (r : Run) (w : World) : Option Fault :=
  match r.stage with
  | .looking =>
    ((w.db.actions.latest? r.job.workspaceId r.job.baseId).filter (·.status = .canceled)).map
      fun a => .canceled a.id
  | .opening settings => planFault? s w.env r.job settings
  | .chunking _ =>
    match w.db.documents.document? r.job.workspaceId r.job.documentId with
    | none => some (.noDocument r.job.documentId)
    | some _ => none
  | .sizing d => if d.set.chunks = [] then some .noChunks else none
  | .admitting d =>
    match s.config.usage.decide r.job.documentId d.set.chunks.length with
    | .allowed => none
    | .denied code message => some (.denied code message)
  | .authorizing d =>
    match (w.accessToken d.provider).1 with
    | .refused e => some (.token e)
    | .given _ => none
    | .beyondClock => none
  | .embedding d (c :: _) =>
    let index := d.vectors.length + 1
    let total := d.set.chunks.length
    match (w.embed s d.provider d.token c.text).1 with
    | .error e => some (.embedding e index total)
    | .ok e => (d.vectors.head?.filter (·.length ≠ e.vector.length)).map
        fun v => .length index total e.vector.length v.length
  | .ensuring d =>
    match (w.ensureCollection s (collection s r.job)
      ((d.vectors.head?.map List.length).getD 0)).1 with
    | .error e => some (.collection e)
    | .ok () => none
  | .writing d =>
    match points r.job d with
    | .error e => some (.template e)
    | .ok batch =>
      match (w.writePoints s (collection s r.job) batch).1 with
      | .error e => some (.upsert e)
      | .ok () => none
  | .switching _ =>
    match w.db.documents.document? r.job.workspaceId r.job.documentId with
    | none => some (.vanished r.job.workspaceId r.job.documentId)
    | some _ => none
  | .cleaning d _ =>
    match (w.deletePoints s (collection s r.job)
      (.superseded r.job.workspaceId r.job.documentId d.revisionId)).1 with
    | .error e => some (.cleanup e)
    | .ok _ => none
  | _ => none

/-- The fault that a run comes upon before any other. -/
inductive FirstFault (s : Setup) : Run → World → Fault → Prop
  | now {r w f} : fault? s r w = some f → FirstFault s r w f
  | later {r w f} : fault? s r w = none → FirstFault s (step s r w).1 (step s r w).2 f →
      FirstFault s r w f

variable {s : Setup} {job : Job} {w₀ w w' : World} {r r' : Run} {f g : Fault}

theorem FirstFault.unique (hf : FirstFault s r w f) (hg : FirstFault s r w g) : f = g := by
  induction hf with
  | now here =>
    cases hg with
    | now there => exact Option.some.inj (here.symm.trans there)
    | later none => rw [none] at here; cases here
  | later none _ ih =>
    cases hg with
    | now there => rw [none] at there; cases there
    | later _ later => exact ih later

/-- A fault after so many steps, and none before, is the first. -/
theorem FirstFault.of_steps {n : Nat}
    (before : ∀ m < n, fault? s (steps s m r w).1 (steps s m r w).2 = none)
    (here : fault? s (steps s n r w).1 (steps s n r w).2 = some f) : FirstFault s r w f := by
  induction n generalizing r w with
  | zero => exact .now here
  | succ n ih =>
    refine .later (before 0 (Nat.succ_pos n)) (ih ?_ here)
    exact fun m few => before (m + 1) (Nat.succ_lt_succ few)

theorem fault?_of_isOver (ended : r.stage.isOver = true) : fault? s r w = none := by
  obtain ⟨_, _, stage⟩ := r
  cases stage with
  | finished | crashed => rfl
  | _ => cases ended

theorem not_firstFault (ended : r.stage.isOver = true) : ¬ FirstFault s r w f := by
  intro first
  induction first with
  | @now r w f here =>
    rw [fault?_of_isOver ended] at here
    cases here
  | @later r w f _ _ ih =>
    rw [step_over s r w ended] at ih
    exact ih ended

/-- The reason that a plan is refused for is what is said of a fault. -/
theorem planFault?_of_error {env : Environment} {settings : RunSettings} {reason : String}
    (unplanned : plan s env job settings = .error reason) :
    ∃ f, planFault? s env job settings = some f ∧ f.isCleanup = false ∧
      f.ToldBy (.fatal reason) := by
  unfold plan at unplanned
  unfold planFault?
  cases policy : Policy.effective s.config job.baseId settings with
  | error e =>
    rw [policy] at unplanned
    exact ⟨.policy e, rfl, rfl, rfl, (Except.error.inj unplanned).symm⟩
  | ok policy' =>
    simp only [policy] at unplanned ⊢
    cases ready : s.config.readiness env policy'.providerId with
    | error e =>
      rw [ready] at unplanned
      exact ⟨.unready e, rfl, rfl, rfl, (Except.error.inj unplanned).symm⟩
    | ok =>
      simp only [ready] at unplanned ⊢
      cases provider : s.config.providerFor? policy'.providerId policy'.model with
      | none =>
        rw [provider] at unplanned
        exact ⟨.noProvider policy'.providerId, rfl, rfl, rfl, (Except.error.inj unplanned).symm⟩
      | some p =>
        rw [provider] at unplanned
        cases unplanned

theorem planFault?_of_ok {env : Environment} {settings : RunSettings} {p : Policy × Provider}
    (planned : plan s env job settings = .ok p) : planFault? s env job settings = none := by
  unfold plan at planned
  unfold planFault?
  cases policy : Policy.effective s.config job.baseId settings with
  | error => rw [policy] at planned; cases planned
  | ok policy' =>
    simp only [policy] at planned ⊢
    cases ready : s.config.readiness env policy'.providerId with
    | error => rw [ready] at planned; cases planned
    | ok =>
      simp only [ready] at planned ⊢
      cases provider : s.config.providerFor? policy'.providerId policy'.model with
      | none => rw [provider] at planned; cases planned
      | some => rfl

/-- What a move makes of the fault that stands against it, if there is one: the run has an error to
settle that tells it, or is completed without having cleaned up. -/
inductive Heeds (stage stage' : Stage) : Option Fault → Prop
  | onward : (stage.isFlawless = true → stage'.isFlawless = true) → Heeds stage stage' none
  | failing {f : Fault} {e : JobError} : f.isCleanup = false → stage'.error? = some e →
      f.ToldBy e → Heeds stage stage' (some f)
  | uncleaned {f : Fault} {revision : String} {previous : Option String} {chunks : Nat} :
      f.isCleanup = true → stage'.outcome? = some (.completed revision previous chunks none) →
      Heeds stage stage' (some f)

namespace Heeds

variable {stage stage' : Stage} {fault : Option Fault}

theorem of_none (nothing : fault = none)
    (flawless : stage.isFlawless = true → stage'.isFlawless = true) :
    Heeds stage stage' fault := nothing ▸ .onward flawless

theorem of_some (f : Fault) {e : JobError} (stands : fault = some f) (own : f.isCleanup = false)
    (error : stage'.error? = some e) (told : f.ToldBy e) : Heeds stage stage' fault :=
  stands ▸ .failing own error told

end Heeds

theorem Move.heeds (m : Move s r w r' w') : Heeds r.stage r'.stage (fault? s r w) := by
  cases m with
  | free none => exact .of_none (by simp [fault?, none]) fun _ => rfl
  | watched a latest status => exact .of_none (by simp [fault?, latest, status]) fun _ => rfl
  | ended a latest status =>
    refine .of_none ?_ fun _ => rfl
    rcases status with status | status <;> simp [fault?, latest, status]
  | paused a latest status => exact .of_none (by simp [fault?, latest, status]) fun _ => rfl
  | canceled a latest status =>
    exact .of_some (.canceled a.id) (by simp [fault?, latest, status]) rfl rfl ⟨rfl, rfl⟩
  | unplanned settings reason unplanned =>
    obtain ⟨f, stands, own, told⟩ := planFault?_of_error unplanned
    exact .of_some f stands own rfl told
  | opened settings policy provider planned =>
    exact .of_none (planFault?_of_ok planned) fun _ => rfl
  | @missing job _ _ d absent =>
    exact .of_some (.noDocument job.documentId) (by simp [fault?, absent]) rfl rfl ⟨rfl, rfl⟩
  | chunked d doc set drawn found => exact .of_none (by simp [fault?, found]) fun _ => rfl
  | blank d none => exact .of_some .noChunks (by simp [fault?, none]) rfl rfl ⟨rfl, rfl⟩
  | sized d some => exact .of_none (by simp [fault?, some]) fun _ => rfl
  | admitted d allowed => exact .of_none (by simp [fault?, allowed]) fun _ => rfl
  | denied d code message denied =>
    exact .of_some (.denied code message) (by simp [fault?, denied]) rfl rfl ⟨rfl, rfl⟩
  | authorized d token given => exact .of_none (by simp [fault?, given]) fun _ => rfl
  | refused d e refused =>
    exact .of_some (.token e) (by simp [fault?, refused]) rfl rfl (.token e)
  | stopped d stopped => exact .of_none (by simp [fault?, stopped]) fun _ => rfl
  | kept d c left e ok same =>
    refine .of_none ?_ fun _ => rfl
    cases first : d.vectors.head? with
    | none => simp [fault?, ok, first]
    | some v => simp [fault?, ok, first, same v first]
  | mismatched d c left e v ok first ne =>
    exact .of_some (.length (d.vectors.length + 1) d.set.chunks.length e.vector.length v.length)
      (by simp [fault?, ok, first, ne.symm]) rfl rfl ⟨rfl, rfl⟩
  | unembedded d c left e error =>
    exact .of_some (.embedding e (d.vectors.length + 1) d.set.chunks.length)
      (by simp [fault?, error]) rfl rfl (.embedding e _ _)
  | unaccepted d c left body error =>
    exact .of_some (.embedding (.api 401 body) (d.vectors.length + 1) d.set.chunks.length)
      (by simp [fault?, error]) rfl rfl (.embedding _ _ _)
  | ensured d ok => exact .of_none (by simp [fault?, ok]) fun _ => rfl
  | unensured d e error =>
    exact .of_some (.collection e) (by simp [fault?, error]) rfl rfl ⟨rfl, rfl⟩
  | unrendered d e error =>
    exact .of_some (.template e) (by simp [fault?, error]) rfl rfl ⟨rfl, rfl⟩
  | written d batch built ok => exact .of_none (by simp [fault?, built, ok]) fun _ => rfl
  | unwritten d batch e built error =>
    exact .of_some (.upsert e) (by simp [fault?, built, error]) rfl rfl ⟨rfl, rfl⟩
  | @vanished job _ _ d absent =>
    exact .of_some (.vanished job.workspaceId job.documentId) (by simp [fault?, absent]) rfl rfl
      ⟨rfl, rfl⟩
  | switched d doc found => exact .of_none (by simp [fault?, found]) fun _ => rfl
  | @cleaned job own w d previous =>
    cases answer : (w.deletePoints s (collection s job)
        (.superseded job.workspaceId job.documentId d.revisionId)).1 with
    | ok n => exact .of_none (by simp [fault?, answer]) fun _ => rfl
    | error e =>
      have stands : fault? s ⟨job, own, .cleaning d previous⟩ w = some (.cleanup e) := by
        simp [fault?, answer]
      rw [stands]
      exact .uncleaned rfl rfl
  | @refreshed _ holder => cases holder <;> exact .onward id
  | unopened | failed | retried | exhausted | final | marked | unnoted | noted =>
    exact .onward fun flawless => by cases flawless
  | locked | busy | embeddedAll => exact .onward fun _ => rfl
  | deferred | unaccounted | accounted | released | unlocked => exact .onward id

def EndsBy (s : Setup) (job : Job) (r : Run) (w : World) (f : Fault) : Prop :=
  if f.isCleanup then
    ∃ revision previous chunks,
      (complete s r w).1.stage = .finished (.completed revision previous chunks none)
  else
    ∃ e : JobError, f.ToldBy e ∧
      (complete s r w).1.stage =
        .finished (e.outcome s.config.worker (complete s r w).2.now job) ∧
      (complete s r w).2.db.jobs.job? job.id =
        some (e.verdict.row s.config.worker (complete s r w).2.now job job)

/-- A run that has met no fault yet ends as its first fault demands, or flawless. -/
theorem complete_ends (h : Abreast s job w₀ r w) (claimed : job.status ≠ .pending)
    (flawless : r.stage.isFlawless = true) :
    (∃ f, FirstFault s r w f ∧ EndsBy s job r w f) ∨
      (∀ f, ¬ FirstFault s r w f) ∧ (complete s r w).1.stage.isFlawless = true := by
  induction r, w using complete.induct s with
  | case1 r w ended =>
    rw [complete, dif_pos ended]
    exact .inr ⟨fun f => not_firstFault ended, flawless⟩
  | case2 r w going ih =>
    have m := step_move s r w (by simpa using going)
    have onward : complete s r w = complete s (step s r w).1 (step s r w).2 := by
      rw [complete, dif_neg going]
    have heeds := m.heeds
    cases stands : fault? s r w with
    | none =>
      rw [stands] at heeds
      cases heeds with
      | onward keeps =>
        rcases ih (h.move m claimed) (keeps flawless) with ⟨f, first, ends⟩ | ⟨never, last⟩
        · refine .inl ⟨f, .later stands first, ?_⟩
          unfold EndsBy at ends ⊢
          rw [onward]
          exact ends
        · refine .inr ⟨fun f first => ?_, onward ▸ last⟩
          cases first with
          | now here => rw [stands] at here; cases here
          | later _ later => exact never f later
    | some f =>
      rw [stands] at heeds
      refine .inl ⟨f, .now stands, ?_⟩
      unfold EndsBy
      rw [onward]
      cases heeds with
      | failing own error told =>
        rw [if_neg (Bool.eq_false_iff.mp own)]
        exact ⟨_, told, ((h.move m claimed).settles error).complete⟩
      | uncleaned cleanup leads =>
        rw [if_pos cleanup]
        exact ⟨_, _, _, complete_outcome? leads⟩

/-- Only a run that says so has put its job back with another attempt counted. -/
theorem Owns.rescheduled (h : Owns s job w₀ r w) (ended : r.stage.isOver = true)
    (taken : job.status = .processing)
    (row : JobRow w job fun j => j.status = .pending ∧ j.attempts = wrapU32 (job.attempts + 1)) :
    ∃ moment, r.stage = .finished (.retrying (wrapU32 (job.attempts + 1)) moment) := by
  obtain ⟨j, found, waits, counted⟩ := row
  have crashed := h.crashed
  have recorded := h.abreast.recorded
  generalize r.stage = stage at *
  have status : ∀ {p : Job → Prop}, JobRow w job p → p j := by
    rintro p ⟨k, there, holds⟩
    exact Option.some.inj (found.symm.trans there) ▸ holds
  cases stage with
  | crashed =>
    obtain rfl := Option.some.inj (found.symm.trans (crashed rfl))
    rw [taken] at waits
    cases waits
  | finished outcome =>
    cases outcome with
    | completed =>
      have completed := (status recorded.1).1
      rw [waits] at completed
      cases completed
    | failed =>
      have failed := (status recorded.1).1
      rw [waits] at failed
      cases failed
    | lockBusy | paused =>
      -- what is put off counts no attempt
      have same := (status recorded.1).2.2
      have more : wrapU32 (job.attempts + 1) ≠ job.attempts := by
        have size : Number.twoTo 32 = 4294967296 := rfl
        rw [wrapU32, size]
        omega
      exact absurd (counted.symm.trans same) more
    | retrying attempts moment => exact ⟨moment, recorded.2.1 ▸ rfl⟩
  | _ => cases ended

end Run

namespace Fault

variable {f : Fault} {e : JobError}

/-- A fault on the way to a service puts the job back below the ceiling. -/
theorem ToldBy.retried (told : f.ToldBy e) (transport : f.isTransport = true)
    {settings : WorkerSettings} {job : Job} {now : Int}
    (left : wrapU32 (job.attempts + 1) < settings.maxAttempts) :
    e.outcome settings now job = .retrying (wrapU32 (job.attempts + 1))
        (after now (settings.backoff (wrapU32 (job.attempts + 1)))) ∧
      e.verdict.row settings now job job =
        { job with
          status := .pending, attempts := wrapU32 (job.attempts + 1)
          scheduledAt := after now (settings.backoff (wrapU32 (job.attempts + 1)))
          claimedAt := none, lastError := some f.reason, updatedAt := now } := by
  have few : ¬ settings.maxAttempts ≤ wrapU32 (job.attempts + 1) := Nat.not_le_of_lt left
  have retryable := told.retryable.trans transport
  constructor
  · simp only [JobError.outcome, retryable, if_true, if_neg few]
  · simp only [JobError.verdict, Verdict.row, retryable, if_true, if_neg few, told.message]

/-- What puts a job back was told by a fault on the way to a service, below the ceiling. -/
theorem ToldBy.transport_of_retrying (told : f.ToldBy e) {settings : WorkerSettings} {job : Job}
    {now moment : Int} {attempts : Nat}
    (retrying : e.outcome settings now job = .retrying attempts moment) :
    f.isTransport = true ∧ attempts < settings.maxAttempts := by
  rw [← told.retryable]
  unfold JobError.outcome at retrying
  simp only at retrying
  split at retrying
  · rename_i retryable
    split at retrying
    · cases retrying
    · rename_i left
      cases retrying
      exact ⟨retryable, Nat.lt_of_not_le left⟩
  · cases retrying

/-- A fault on the way to a service fails the job for good at the ceiling. -/
theorem ToldBy.exhausted (told : f.ToldBy e) (transport : f.isTransport = true)
    {settings : WorkerSettings} {job : Job} {now : Int}
    (last : settings.maxAttempts ≤ wrapU32 (job.attempts + 1)) :
    e.outcome settings now job = .failed (givingUp (wrapU32 (job.attempts + 1)) f.reason) ∧
      e.verdict.row settings now job job =
        { job with
          status := .failed, attempts := wrapU32 (job.attempts + 1)
          lastError := some (givingUp (wrapU32 (job.attempts + 1)) f.reason)
          finishedAt := some now, updatedAt := now } := by
  have retryable := told.retryable.trans transport
  constructor
  · simp only [JobError.outcome, retryable, if_true, if_pos last, told.message]
  · simp only [JobError.verdict, Verdict.row, retryable, if_true, if_pos last, told.message]

/-- A fault elsewhere fails the job at once, and counts no attempt. -/
theorem ToldBy.failed (told : f.ToldBy e) (other : f.isTransport = false)
    (settings : WorkerSettings) (job : Job) (now : Int) :
    e.outcome settings now job = .failed f.reason ∧
      e.verdict.row settings now job job =
        { job with
          status := .failed, lastError := some f.reason, finishedAt := some now
          updatedAt := now } := by
  have unretryable : ¬ e.isRetryable = true := by
    rw [told.retryable, other]
    exact Bool.false_ne_true
  constructor
  · simp only [JobError.outcome, if_neg unretryable, told.message]
  · simp only [JobError.verdict, Verdict.row, if_neg unretryable, told.message]

end Fault

/-- A grant is refused for a failure of the way exactly when the request was not sent. -/
theorem grantOf_transport {answer : Except ExchangeError Response} {reason : String} :
    grantOf answer = .error (.transport reason) ↔ answer = .error (.unsent reason) := by
  unfold grantOf
  split
  · simp
  · simp
  · split
    · simp
    · split
      · simp
      · split <;> simp

theorem TokenDesk.fetch_transport {desk : TokenDesk} {wall steady : Int} {provider : String}
    {request : Request} {reason : String} :
    (desk.fetch wall steady provider request).1 = .refused (.transport reason) ↔
      (desk.peer.send request).1 = .error (.unsent reason) := by
  rw [← grantOf_transport]
  unfold fetch
  simp only
  split
  · simp [*]
  · split <;> simp [*]

/-- A token is refused for a failure of the way exactly when its endpoint was to be asked, and the
request was not sent. -/
theorem TokenDesk.access_transport {desk : TokenDesk} {env : Environment}
    {wall steady : Int} {requestId : String} {p : Provider} {reason : String} :
    (desk.access env wall steady requestId p).1 = .refused (.transport reason) ↔
      ∃ url name scope credentials, p.auth = .token url name scope ∧
        desk.cache.get? steady p.id = none ∧ env.credentials p.id name = .ok credentials ∧
        (desk.peer.send (tokenRequest url credentials scope requestId)).1 =
          .error (.unsent reason) := by
  unfold access
  cases p.auth with
  | none => simp
  | key name => cases known : env.credentials p.id name <;> simp [known]
  | token url name scope =>
    cases desk.cache.get? steady p.id with
    | some token => simp
    | none =>
      cases known : env.credentials p.id name with
      | error m => simp [known]
      | ok credentials =>
        simp only [known]
        rw [fetch_transport]
        simp [known]

namespace Embedding

theorem components_transport (vs : List Json.Value) (reason : String) :
    components vs ≠ .error (.transport reason) := by
  induction vs with
  | nil => simp [components]
  | cons v rest ih =>
    unfold components
    split
    · simp
    · cases read : components rest with
      | error e =>
        rw [read] at ih
        exact ih
      | ok => simp [Except.map]

theorem vectorOf_transport (v : Option Json.Value) (reason : String) :
    vectorOf v ≠ .error (.transport reason) := by
  unfold vectorOf
  split
  · simp
  · rename_i items _
    have read := components_transport items reason
    split <;> simp_all

end Embedding

/-- What a provider answers is never a failure of the way to it. -/
theorem ProviderKind.embeddingOf_transport (kind : ProviderKind) (body : Json.Value)
    (reason : String) : kind.embeddingOf body ≠ .error (.transport reason) := by
  have spelled : ∀ (v : Option Json.Value) (rest : Vector32 → Embedding),
      (Embedding.vectorOf v >>= fun vector => pure (rest vector)) ≠
        Except.error (EmbeddingError.transport reason) := by
    intro v rest
    have read := Embedding.vectorOf_transport v reason
    cases vector : Embedding.vectorOf v with
    | error e =>
      rw [vector] at read
      simpa [bind, Except.bind] using read
    | ok => simp [bind, Except.bind, pure, Except.pure]
  unfold embeddingOf
  split <;> split <;> first | exact spelled _ _ | simp

/-- A provider has no vector for a failure of the way exactly when the request was not sent. -/
theorem Provider.embed_transport {p : Provider} {peer : Peer} {token : Option String}
    {text reason : String} :
    (p.embed peer token text).1 = .error (.transport reason) ↔
      (peer.send (p.embeddingRequest token text)).1 = .error (.unsent reason) := by
  unfold embed
  change p.embeddingOf (peer.send (p.embeddingRequest token text)).1 = _ ↔ _
  unfold embeddingOf
  split <;> rename_i answer
  · simp [answer]
  · simp [answer]
  · rw [answer]
    split
    · simp
    · split
      · rename_i v _
        simpa using p.kind.embeddingOf_transport v reason
      · simp

namespace World

theorem process_of_finished {s : Setup} {w : World} {job : Job} {outcome : Outcome}
    (stage : (Run.complete s (.start job) w).1.stage = .finished outcome) :
    (w.process s job).1 = some outcome := by
  rcases w.process_cases s job with ⟨_, ran, ended⟩ | ⟨_, ended⟩
  · rw [ended] at stage
    cases stage
    exact ran
  · rw [ended] at stage
    cases stage

section Claimed

variable {s : Setup} {w : World} {job : Job} {f : Fault} (sound : w.Sound)
  (claimed : w.db.jobs.job? job.id = some job) (taken : job.status = .processing)
include sound claimed taken

/-- The run of a claimed job ends as its first fault demands. -/
theorem process_endsBy (first : Run.FirstFault s (.start job) w f) :
    Run.EndsBy s job (.start job) w f := by
  rcases Run.complete_ends (.start s sound claimed) (by simp [taken]) rfl with
    ⟨g, other, ends⟩ | ⟨never, _⟩
  · rwa [first.unique other]
  · exact absurd first (never f)

/-- Without a fault it neither fails its job nor puts it back for a failure. -/
theorem process_flawless (never : ∀ f, ¬ Run.FirstFault s (.start job) w f) :
    (w.process s job).1.all Outcome.isFlawless = true := by
  rcases Run.complete_ends (.start s sound claimed) (by simp [taken]) rfl with
    ⟨f, first, _⟩ | ⟨_, flawless⟩
  · exact absurd first (never f)
  · rcases w.process_cases s job with ⟨outcome, ran, stage⟩ | ⟨crashed, _⟩
    · rw [ran]
      rw [stage] at flawless
      exact flawless
    · rw [crashed]
      rfl

/-- A fault other than one while cleaning up is told by an error, and the run settles that. -/
theorem process_told (first : Run.FirstFault s (.start job) w f) (own : f.isCleanup = false) :
    ∃ e : JobError, f.ToldBy e ∧
      (w.process s job).1 = some (e.outcome s.config.worker (w.process s job).2.now job) ∧
      (w.process s job).2.db.jobs.job? job.id =
        some (e.verdict.row s.config.worker (w.process s job).2.now job job) := by
  have ends := process_endsBy sound claimed taken first
  rw [Run.EndsBy, if_neg (Bool.eq_false_iff.mp own), ← process_world] at ends
  obtain ⟨e, told, stage, row⟩ := ends
  exact ⟨e, told, process_of_finished stage, row⟩

theorem process_retried (first : Run.FirstFault s (.start job) w f)
    (transport : f.isTransport = true)
    (left : wrapU32 (job.attempts + 1) < s.config.worker.maxAttempts) :
    ∃ moment, (w.process s job).1 = some (.retrying (wrapU32 (job.attempts + 1)) moment) ∧
      JobRow (w.process s job).2 job (fun j => j.status = .pending ∧
        j.attempts = wrapU32 (job.attempts + 1) ∧ j.scheduledAt = moment ∧
        j.lastError = some f.reason) := by
  obtain ⟨e, told, ran, row⟩ :=
    process_told sound claimed taken first (Fault.isCleanup_of_transport transport)
  obtain ⟨result, report⟩ := told.retried transport left
  exact ⟨_, ran.trans (congrArg some result), _, row.trans (congrArg some report), rfl, rfl, rfl,
    rfl⟩

theorem process_exhausted (first : Run.FirstFault s (.start job) w f)
    (transport : f.isTransport = true)
    (last : s.config.worker.maxAttempts ≤ wrapU32 (job.attempts + 1)) :
    (w.process s job).1 = some (.failed (givingUp (wrapU32 (job.attempts + 1)) f.reason)) ∧
      JobRow (w.process s job).2 job (fun j => j.status = .failed ∧
        j.attempts = wrapU32 (job.attempts + 1) ∧
        j.lastError = some (givingUp (wrapU32 (job.attempts + 1)) f.reason)) := by
  obtain ⟨e, told, ran, row⟩ :=
    process_told sound claimed taken first (Fault.isCleanup_of_transport transport)
  obtain ⟨result, report⟩ := told.exhausted transport last
  exact ⟨ran.trans (congrArg some result), _, row.trans (congrArg some report), rfl, rfl, rfl⟩

theorem process_failed (first : Run.FirstFault s (.start job) w f) (other : f.isTransport = false)
    (own : f.isCleanup = false) :
    (w.process s job).1 = some (.failed f.reason) ∧
      JobRow (w.process s job).2 job (fun j => j.status = .failed ∧ j.attempts = job.attempts ∧
        j.lastError = some f.reason) := by
  obtain ⟨e, told, ran, row⟩ := process_told sound claimed taken first own
  obtain ⟨result, report⟩ := told.failed other s.config.worker job (w.process s job).2.now
  exact ⟨ran.trans (congrArg some result), _, row.trans (congrArg some report), rfl, rfl, rfl⟩

theorem process_uncleaned (first : Run.FirstFault s (.start job) w f)
    (cleanup : f.isCleanup = true) :
    ∃ revision previous chunks,
      (w.process s job).1 = some (.completed revision previous chunks none) ∧
        Recorded s job w (w.process s job).2 (.completed revision previous chunks none) := by
  have ends := process_endsBy sound claimed taken first
  rw [Run.EndsBy, if_pos cleanup] at ends
  obtain ⟨revision, previous, chunks, stage⟩ := ends
  have recorded := (Run.abreast_complete s sound claimed taken).recorded
  rw [stage, ← process_world] at recorded
  exact ⟨revision, previous, chunks, process_of_finished stage, recorded⟩

/-- A job is put back with another attempt counted only for a fault on the way to a service. -/
theorem transport_of_rescheduled
    (row : JobRow (w.process s job).2 job fun j =>
      j.status = .pending ∧ j.attempts = wrapU32 (job.attempts + 1)) :
    ∃ f, Run.FirstFault s (.start job) w f ∧ f.isTransport = true ∧
      wrapU32 (job.attempts + 1) < s.config.worker.maxAttempts := by
  have owns := Run.complete_keeps (fun _ _ _ _ h m => Run.Owns.move h (by simp [taken]) m) _ _
    (Run.Owns.start (s := s) sound claimed)
  rw [process_world] at row
  obtain ⟨moment, stage⟩ := owns.rescheduled (Run.complete_isOver s _ w) taken row
  have retrying := process_of_finished stage
  rcases Run.complete_ends (.start s sound claimed) (by simp [taken]) rfl with
    ⟨f, first, ends⟩ | ⟨_, flawless⟩
  · cases own : f.isCleanup with
    | true =>
      rw [Run.EndsBy, if_pos own, stage] at ends
      obtain ⟨_, _, _, completed⟩ := ends
      cases completed
    | false =>
      obtain ⟨e, told, ran, _⟩ := process_told sound claimed taken first own
      exact ⟨f, first, told.transport_of_retrying (Option.some.inj (ran.symm.trans retrying))⟩
  · rw [stage] at flawless
    cases flawless

end Claimed

end World

/-- The first fault decides what becomes of a claimed job, whatever services answer and others do
meanwhile. The job is put back with another attempt counted exactly when that fault is one on the
way to the token endpoint or to the provider and the attempt is below the ceiling; at the ceiling it
is failed with the attempt counted. Any other first fault fails it for the reason that is said of
the fault, and leaves its attempts as they were claimed, except that one while cleaning up leaves
the job completed. A run without a fault neither fails its job nor puts it back for a failure. A
fault is one on the way to a service exactly when a request to it was not sent. -/
theorem failure_classified (s : Setup) (w : World) (job : Job) (sound : w.Sound)
    (claimed : w.db.jobs.job? job.id = some job) (taken : job.status = .processing) :
    let u := (w.process s job).2
    let outcome := (w.process s job).1
    let counted := wrapU32 (job.attempts + 1)
    let limit := s.config.worker.maxAttempts
    (JobRow u job (fun j => j.status = .pending ∧ j.attempts = counted) ↔
      ∃ f, Run.FirstFault s (.start job) w f ∧ f.isTransport = true ∧ counted < limit) ∧
    (∀ f, Run.FirstFault s (.start job) w f →
      (f.isTransport = true → counted < limit →
        ∃ moment, outcome = some (.retrying counted moment) ∧
          JobRow u job (fun j => j.status = .pending ∧ j.attempts = counted ∧
            j.scheduledAt = moment ∧ j.lastError = some f.reason)) ∧
      (f.isTransport = true → limit ≤ counted →
        outcome = some (.failed (givingUp counted f.reason)) ∧
          JobRow u job (fun j => j.status = .failed ∧ j.attempts = counted ∧
            j.lastError = some (givingUp counted f.reason))) ∧
      (f.isTransport = false → f.isCleanup = false →
        outcome = some (.failed f.reason) ∧
          JobRow u job (fun j => j.status = .failed ∧ j.attempts = job.attempts ∧
            j.lastError = some f.reason)) ∧
      (f.isCleanup = true → ∃ revision previous chunks,
        outcome = some (.completed revision previous chunks none) ∧
          Recorded s job w u (.completed revision previous chunks none))) ∧
    ((∀ f, ¬ Run.FirstFault s (.start job) w f) → outcome.all Outcome.isFlawless = true) ∧
    (job.attempts + 1 < Number.twoTo 32 → counted = job.attempts + 1) ∧
    (∀ (v : World) p reason, (v.accessToken p).1 = .refused (.transport reason) ↔
      ∃ url name scope credentials, p.auth = .token url name scope ∧
        v.desk.cache.get? v.steady p.id = none ∧ v.env.credentials p.id name = .ok credentials ∧
        (v.desk.peer.send (tokenRequest url credentials scope (Identifier.ofNat v.drawn))).1 =
          .error (.unsent reason)) ∧
    (s.remoteEmbedder = true → ∀ (v : World) p token text reason,
      (v.embed s p token text).1 = .error (.transport reason) ↔
        (v.desk.peer.send (p.embeddingRequest token text)).1 = .error (.unsent reason)) := by
  intro u outcome counted limit
  refine ⟨⟨World.transport_of_rescheduled sound claimed taken, ?_⟩, fun f first => ?_,
    World.process_flawless sound claimed taken, wrapU32_of_lt,
    fun v p reason => TokenDesk.access_transport, ?_⟩
  · rintro ⟨f, first, transport, left⟩
    obtain ⟨_, _, j, found, waits, count, _⟩ :=
      World.process_retried sound claimed taken first transport left
    exact ⟨j, found, waits, count⟩
  · exact ⟨World.process_retried sound claimed taken first,
      World.process_exhausted sound claimed taken first,
      World.process_failed sound claimed taken first,
      World.process_uncleaned sound claimed taken first⟩
  · intro remote v p token text reason
    rw [← Provider.embed_transport, World.embed, if_pos remote]

namespace Sample

/-- A document waits to be indexed by a provider and with a store like these. -/
def faced (turn : EmbedderTurn) (store : MemoryStore) : World :=
  ({ World.initial 1000 [] {} with usualTurn := turn, store }.submit "w" "b" "d" "v1"
    "hello world").2

theorem faced_sound (turn : EmbedderTurn) (store : MemoryStore) : (faced turn store).Sound := by
  have empty : World.Sound { World.initial 1000 [] {} with usualTurn := turn, store } :=
    (World.initial_sound 1000 [] {}).of_tables (Nat.le_refl _) rfl rfl rfl rfl
  exact (World.submit_meanwhile _ _ _ _ _ _).sound empty

end Sample

/-- A provider that cannot be reached, a store that writes nothing, and one that deletes nothing. -/
theorem failure_classified_sample :
    let cut := (Sample.faced Sample.unreachable {}).claim.2
    let full := (Sample.faced Sample.turn { failWrites := true }).claim.2
    let stuck := (Sample.faced Sample.turn { failDeletes := true }).claim.2
    (∃ moment, (cut.process Sample.setup Sample.job).1 = some (.retrying 1 moment)) ∧
    (full.process Sample.setup Sample.job).1 =
      some (.failed "upsert failed: vector store error 500: injected upsert failure") ∧
    ∃ revision previous chunks,
      (stuck.process Sample.setup Sample.job).1 =
        some (.completed revision previous chunks none) := by
  intro cut full stuck
  have ready : ∀ turn store, (Sample.faced turn store).claim.1 = some Sample.job →
      (Sample.faced turn store).claim.2.Sound ∧
      (Sample.faced turn store).claim.2.db.jobs.job? Sample.job.id = some Sample.job ∧
      Sample.job.status = .processing := by
    intro turn store claims
    have sound := Sample.faced_sound turn store
    exact ⟨(World.claim_around _).sound sound, World.claim_claimed _ sound claims⟩
  refine ⟨?_, ?_, ?_⟩
  · obtain ⟨sound, claimed, taken⟩ := ready Sample.unreachable {} (by decide +kernel)
    have fault : Run.FirstFault Sample.setup (.start Sample.job) cut
        (.embedding (.transport "connection refused") 1 1) :=
      .of_steps (n := 7) (by decide +kernel) (by decide +kernel)
    obtain ⟨moment, ran, _⟩ := ((failure_classified Sample.setup cut Sample.job sound claimed
      taken).2.1 _ fault).1 rfl (by decide +kernel)
    exact ⟨moment, ran⟩
  · obtain ⟨sound, claimed, taken⟩ := ready Sample.turn { failWrites := true } (by decide +kernel)
    have fault : Run.FirstFault Sample.setup (.start Sample.job) full
        (.upsert (.api 500 "injected upsert failure")) :=
      .of_steps (n := 10) (by decide +kernel) (by decide +kernel)
    exact (((failure_classified Sample.setup full Sample.job sound claimed taken).2.1 _
      fault).2.2.1 rfl rfl).1
  · obtain ⟨sound, claimed, taken⟩ := ready Sample.turn { failDeletes := true } (by decide +kernel)
    have fault : Run.FirstFault Sample.setup (.start Sample.job) stuck
        (.cleanup (.transport "injected delete failure")) :=
      .of_steps (n := 13) (by decide +kernel) (by decide +kernel)
    obtain ⟨revision, previous, chunks, ran, _⟩ := ((failure_classified Sample.setup stuck
      Sample.job sound claimed taken).2.1 _ fault).2.2.2 rfl
    exact ⟨revision, previous, chunks, ran⟩

end IndexingPipeline
