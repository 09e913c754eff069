import IndexingPipeline.Run.Step

/-!
# The moves of a run

All that one step of a run can do, each way of it with what it depends on and what it leaves
behind. What a whole run keeps is proved move by move.
-/

namespace IndexingPipeline

namespace Run

/-- One step of a run from a world to the next. -/
inductive Move (s : Setup) : Run → World → Run → World → Prop
  | free {job h w} : w.db.actions.latest? job.workspaceId job.baseId = none →
      Move s ⟨job, h, .looking⟩ w ⟨job, h, .locking {}⟩ w
  | watched {job h w} (a : Action) :
      w.db.actions.latest? job.workspaceId job.baseId = some a → a.status = .processing →
      Move s ⟨job, h, .looking⟩ w ⟨job, h, .locking a.report.settings⟩ w
  | ended {job h w} (a : Action) :
      w.db.actions.latest? job.workspaceId job.baseId = some a →
      a.status = .done ∨ a.status = .error →
      Move s ⟨job, h, .looking⟩ w ⟨job, h, .locking {}⟩ w
  | paused {job h w} (a : Action) :
      w.db.actions.latest? job.workspaceId job.baseId = some a → a.status = .paused →
      Move s ⟨job, h, .looking⟩ w
        ⟨job, h, .deferring (.paused (after w.now s.config.worker.pauseRecheckMs))
          (after w.now s.config.worker.pauseRecheckMs) "action paused"⟩ w
  | canceled {job h w} (a : Action) :
      w.db.actions.latest? job.workspaceId job.baseId = some a → a.status = .canceled →
      Move s ⟨job, h, .looking⟩ w
        ⟨job, h, .failing none (.canceled ("action " ++ a.id ++ " was canceled"))⟩ w
  | deferred {job h w} (outcome : Outcome) (moment : Int) (reason : String) :
      Move s ⟨job, h, .deferring outcome moment reason⟩ w ⟨job, h, .finished outcome⟩
        (w.onJobs (·.reschedule w.now job.id moment reason))
  | locked {job h w} (settings : RunSettings) (holder : String) :
      (w.acquire (World.lockLifetime s.config) job.workspaceId job.documentId).1 =
        some holder →
      Move s ⟨job, h, .locking settings⟩ w ⟨job, some holder, .opening settings⟩
        (w.acquire (World.lockLifetime s.config) job.workspaceId job.documentId).2
  | busy {job h w} (settings : RunSettings) :
      (w.acquire (World.lockLifetime s.config) job.workspaceId job.documentId).1 = none →
      Move s ⟨job, h, .locking settings⟩ w
        ⟨job, none, .deferring (.lockBusy (after w.now s.config.worker.lockRetryDelayMs))
          (after w.now s.config.worker.lockRetryDelayMs)
          "document is being indexed by another job"⟩
        (w.acquire (World.lockLifetime s.config) job.workspaceId job.documentId).2
  | unplanned {job h w} (settings : RunSettings) (reason : String) :
      plan s w.env job settings = .error reason →
      Move s ⟨job, h, .opening settings⟩ w ⟨job, h, .fail none reason⟩ w
  | opened {job h w} (settings : RunSettings) (policy : Policy) (provider : Provider) :
      plan s w.env job settings = .ok (policy, provider) →
      Move s ⟨job, h, .opening settings⟩ w
        ⟨job, h, .chunking
          { policy, provider, revisionId := Identifier.ofNat w.drawn
            set := ⟨"", Identifier.ofNat w.drawn, job.documentId, []⟩
            token := none, vectors := [], usages := [] }⟩
        (w.openRevision job.workspaceId job.documentId job.versionId policy.digest).2
  | missing {job h w} (d : Draft) :
      w.db.documents.document? job.workspaceId job.documentId = none →
      Move s ⟨job, h, .chunking d⟩ w
        ⟨job, h, .fail (some d.revisionId) ("document " ++ job.documentId ++ " not found")⟩ w
  | chunked {job h w} (d : Draft) (doc : Document) (set : ChunkSet) (drawn : Nat) :
      w.db.documents.document? job.workspaceId job.documentId = some doc →
      ChunkSet.build job.documentId d.revisionId doc.body d.policy.window w.drawn =
        (set, drawn) →
      Move s ⟨job, h, .chunking d⟩ w ⟨job, h, .sizing { d with set }⟩
        { w with drawn, db := { w.db with chunkSets := w.db.chunkSets ++ [⟨set, w.now⟩] } }
  | blank {job h w} (d : Draft) : d.set.chunks = [] →
      Move s ⟨job, h, .sizing d⟩ w
        ⟨job, h, .fail (some d.revisionId) "document produced no chunks"⟩ w
  | sized {job h w} (d : Draft) : d.set.chunks ≠ [] →
      Move s ⟨job, h, .sizing d⟩ w ⟨job, h, .admitting d⟩
        (w.onRevisions (·.update d.revisionId {
          chunkSetId := some d.set.id
          chunkCount := some d.set.chunks.length
          totalTokens := some d.set.totalTokens
          totalChars := some d.set.totalChars }))
  | admitted {job h w} (d : Draft) :
      s.config.usage.decide job.documentId d.set.chunks.length = .allowed →
      Move s ⟨job, h, .admitting d⟩ w ⟨job, h, .authorizing d⟩ w
  | denied {job h w} (d : Draft) (code message : String) :
      s.config.usage.decide job.documentId d.set.chunks.length = .denied code message →
      Move s ⟨job, h, .admitting d⟩ w
        ⟨job, h, .fail (some d.revisionId)
          ("usage limit reached (" ++ code ++ "): " ++ message)⟩ w
  | authorized {job h w} (d : Draft) (token : Option String) :
      (w.accessToken d.provider).1 = .given token →
      Move s ⟨job, h, .authorizing d⟩ w ⟨job, h, .embedding { d with token } d.set.chunks⟩
        (w.accessToken d.provider).2
  | refused {job h w} (d : Draft) (e : TokenError) :
      (w.accessToken d.provider).1 = .refused e →
      Move s ⟨job, h, .authorizing d⟩ w ⟨job, h, .failing (some d.revisionId) (.ofToken e)⟩
        (w.accessToken d.provider).2
  | stopped {job h w} (d : Draft) : (w.accessToken d.provider).1 = .beyondClock →
      Move s ⟨job, h, .authorizing d⟩ w ⟨job, h, .crashed⟩ (w.accessToken d.provider).2
  | embeddedAll {job h w} (d : Draft) :
      Move s ⟨job, h, .embedding d []⟩ w ⟨job, h, .ensuring d⟩ w
  | kept {job h w} (d : Draft) (c : Chunk) (left : List Chunk) (e : Embedding) :
      (w.embed s d.provider d.token c.text).1 = .ok e →
      (∀ v, d.vectors.head? = some v → e.vector.length = v.length) →
      Move s ⟨job, h, .embedding d (c :: left)⟩ w
        ⟨job, h, .embedding
          { d with vectors := d.vectors ++ [e.vector], usages := d.usages ++ [e.usage] } left⟩
        (w.embed s d.provider d.token c.text).2
  | mismatched {job h w} (d : Draft) (c : Chunk) (left : List Chunk) (e : Embedding)
      (v : Vector32) :
      (w.embed s d.provider d.token c.text).1 = .ok e →
      d.vectors.head? = some v → e.vector.length ≠ v.length →
      Move s ⟨job, h, .embedding d (c :: left)⟩ w
        ⟨job, h, .fail (some d.revisionId) (lengthMismatch (d.vectors.length + 1)
          d.set.chunks.length e.vector.length v.length)⟩
        (w.embed s d.provider d.token c.text).2
  | unembedded {job h w} (d : Draft) (c : Chunk) (left : List Chunk) (e : EmbeddingError) :
      (w.embed s d.provider d.token c.text).1 = .error e → (∀ body, e ≠ .api 401 body) →
      Move s ⟨job, h, .embedding d (c :: left)⟩ w
        ⟨job, h, .failing (some d.revisionId)
          (.ofEmbedding e (d.vectors.length + 1) d.set.chunks.length)⟩
        (w.embed s d.provider d.token c.text).2
  | unaccepted {job h w} (d : Draft) (c : Chunk) (left : List Chunk) (body : String) :
      (w.embed s d.provider d.token c.text).1 = .error (.api 401 body) →
      Move s ⟨job, h, .embedding d (c :: left)⟩ w
        ⟨job, h, .failing (some d.revisionId)
          (.ofEmbedding (.api 401 body) (d.vectors.length + 1) d.set.chunks.length)⟩
        { (w.embed s d.provider d.token c.text).2 with
          desk := (w.embed s d.provider d.token c.text).2.desk.invalidate d.provider.id }
  | ensured {job h w} (d : Draft) :
      (w.ensureCollection s (collection s job)
        ((d.vectors.head?.map List.length).getD 0)).1 = .ok () →
      Move s ⟨job, h, .ensuring d⟩ w ⟨job, h, .writing d⟩
        (w.ensureCollection s (collection s job)
          ((d.vectors.head?.map List.length).getD 0)).2
  | unensured {job h w} (d : Draft) (e : StoreError) :
      (w.ensureCollection s (collection s job)
        ((d.vectors.head?.map List.length).getD 0)).1 = .error e →
      Move s ⟨job, h, .ensuring d⟩ w
        ⟨job, h, .fail (some d.revisionId) ("ensure collection failed: " ++ e.message)⟩
        (w.ensureCollection s (collection s job)
          ((d.vectors.head?.map List.length).getD 0)).2
  | unrendered {job h w} (d : Draft) (e : PayloadError) : points job d = .error e →
      Move s ⟨job, h, .writing d⟩ w ⟨job, h, .fail (some d.revisionId) e.message⟩ w
  | written {job h w} (d : Draft) (batch : List Point) : points job d = .ok batch →
      (w.writePoints s (collection s job) batch).1 = .ok () →
      Move s ⟨job, h, .writing d⟩ w ⟨job, h, .accounting d⟩
        (w.writePoints s (collection s job) batch).2
  | unwritten {job h w} (d : Draft) (batch : List Point) (e : StoreError) :
      points job d = .ok batch →
      (w.writePoints s (collection s job) batch).1 = .error e →
      Move s ⟨job, h, .writing d⟩ w
        ⟨job, h, .fail (some d.revisionId) ("upsert failed: " ++ e.message)⟩
        (w.writePoints s (collection s job) batch).2
  | unaccounted {job h w} (d : Draft) : totalUsage d.usages = none →
      Move s ⟨job, h, .accounting d⟩ w ⟨job, h, .switching d⟩ w
  | accounted {job h w} (d : Draft) (total : Nat) : totalUsage d.usages = some total →
      Move s ⟨job, h, .accounting d⟩ w ⟨job, h, .switching d⟩
        (w.onRevisions (·.update d.revisionId { totalTokens := some (wrap64 total) }))
  | vanished {job h w} (d : Draft) :
      w.db.documents.document? job.workspaceId job.documentId = none →
      Move s ⟨job, h, .switching d⟩ w
        ⟨job, h, .fail (some d.revisionId)
          ("document " ++ job.workspaceId ++ "/" ++ job.documentId ++ " not found")⟩ w
  | switched {job h w} (d : Draft) (doc : Document) :
      w.db.documents.document? job.workspaceId job.documentId = some doc →
      Move s ⟨job, h, .switching d⟩ w ⟨job, h, .cleaning d doc.currentRevisionId⟩
        { w with db := { w.db with
          jobs := w.db.jobs.complete w.now job.id
          documents := (w.db.documents.switch w.now job.workspaceId job.documentId d.revisionId
            d.set.id).markUpToDate w.now job.workspaceId job.documentId job.versionId
          revisions := w.db.revisions.markReady w.now d.revisionId } }
  | cleaned {job h w} (d : Draft) (previous : Option String) :
      Move s ⟨job, h, .cleaning d previous⟩ w
        ⟨job, h, .refreshing (.completed d.revisionId previous d.set.chunks.length
          (w.deletePoints s (collection s job)
            (.superseded job.workspaceId job.documentId d.revisionId)).1.toOption)⟩
        (w.deletePoints s (collection s job)
          (.superseded job.workspaceId job.documentId d.revisionId)).2
  | unopened {job h w} (e : JobError) :
      Move s ⟨job, h, .failing none e⟩ w ⟨job, h, .settling e⟩ w
  | failed {job h w} (id : String) (e : JobError) :
      Move s ⟨job, h, .failing (some id) e⟩ w ⟨job, h, .settling e⟩
        (w.onRevisions fun rs => (rs.markFailed w.db.documents w.now id e.message).2)
  | retried {job h w} (e : JobError) (attempts : Nat) (moment : Int) (jobs : Queue) :
      e.isRetryable = true →
      w.db.jobs.retry s.config.worker w.now job e.message = (.rescheduled attempts moment, jobs) →
      Move s ⟨job, h, .settling e⟩ w ⟨job, h, .refreshing (.retrying attempts moment)⟩
        (w.onJobs fun _ => jobs)
  | exhausted {job h w} (e : JobError) (attempts : Nat) (jobs : Queue) :
      e.isRetryable = true →
      w.db.jobs.retry s.config.worker w.now job e.message = (.failed attempts, jobs) →
      Move s ⟨job, h, .settling e⟩ w ⟨job, h, .marking (givingUp attempts e.message)⟩
        (w.onJobs fun _ => jobs)
  | final {job h w} (e : JobError) : e.isRetryable = false →
      Move s ⟨job, h, .settling e⟩ w ⟨job, h, .marking e.message⟩
        (w.onJobs (·.fail w.now job.id e.message))
  | marked {job h w} (reason : String) :
      Move s ⟨job, h, .marking reason⟩ w ⟨job, h, .noting reason⟩
        (w.onDocuments (·.markError w.now job.workspaceId job.documentId reason))
  | unnoted {job h w} (reason : String) :
      w.db.actions.latest? job.workspaceId job.baseId = none →
      Move s ⟨job, h, .noting reason⟩ w ⟨job, h, .refreshing (.failed reason)⟩ w
  | noted {job h w} (reason : String) (a : Action) :
      w.db.actions.latest? job.workspaceId job.baseId = some a →
      Move s ⟨job, h, .noting reason⟩ w ⟨job, h, .refreshing (.failed reason)⟩
        (w.onActions (·.append s.config.actions a.id
          ⟨w.now, "error", reason, some job.documentId⟩))
  | refreshed {job h w} (outcome : Outcome) :
      Move s ⟨job, h, .refreshing outcome⟩ w
        ⟨job, h, if h.isSome then .releasing outcome else .finished outcome⟩
        (w.refreshAction s.config job.workspaceId job.baseId).2
  | released {job w} (holder : String) (outcome : Outcome) :
      Move s ⟨job, some holder, .releasing outcome⟩ w ⟨job, some holder, .finished outcome⟩
        (w.onLocks (·.release job.workspaceId job.documentId holder))
  | unlocked {job w} (outcome : Outcome) :
      Move s ⟨job, none, .releasing outcome⟩ w ⟨job, none, .finished outcome⟩ w

theorem embedNext_move (s : Setup) (job : Job) (h : Option String) (d : Draft) (c : Chunk)
    (left : List Chunk) (w : World) :
    Move s ⟨job, h, .embedding d (c :: left)⟩ w
      ⟨job, h, (embedNext s d c left w).1⟩ (embedNext s d c left w).2 := by
  unfold embedNext
  split <;> rename_i answer
  · rename_i e w'
    have ok : (w.embed s d.provider d.token c.text).1 = .ok e := congrArg Prod.fst answer
    have same : w' = (w.embed s d.provider d.token c.text).2 := (congrArg Prod.snd answer).symm
    subst same
    unfold keepVector
    cases first : d.vectors.head? with
    | none =>
      simp only [Option.map_none, Option.getD_none, if_true]
      exact .kept d c left e ok (by simp [first])
    | some v =>
      simp only [Option.map_some, Option.getD_some]
      split <;> rename_i length
      · exact .kept d c left e ok (by simpa [first] using length)
      · exact .mismatched d c left e v ok first length
  · rename_i e w'
    have error : (w.embed s d.provider d.token c.text).1 = .error e := congrArg Prod.fst answer
    have same : w' = (w.embed s d.provider d.token c.text).2 := (congrArg Prod.snd answer).symm
    subst same
    simp only
    split
    · exact .unaccepted d c left _ error
    · exact .unembedded d c left e error (by simpa using ‹_›)

/-- Every step of a run is one of its moves. -/
theorem step_move (s : Setup) (r : Run) (w : World) (going : r.stage.isOver = false) :
    Move s r w (step s r w).1 (step s r w).2 := by
  obtain ⟨job, h, stage⟩ := r
  cases stage with
  | looking =>
    simp only [step, act, look]
    split
    · exact .free ‹_›
    · split
      · exact .paused _ ‹_› ‹_›
      · exact .canceled _ ‹_› ‹_›
      · exact .watched _ ‹_› ‹_›
      · exact .ended _ ‹_› (.inl ‹_›)
      · exact .ended _ ‹_› (.inr ‹_›)
  | deferring outcome moment reason => exact .deferred outcome moment reason
  | locking settings =>
    simp only [step, act, takeLock]
    split <;> rename_i got
    · have move : Move s ⟨job, h, .locking settings⟩ w _ _ :=
        .locked settings _ (congrArg Prod.fst got)
      rwa [got] at move
    · rename_i w'
      have now : w'.now = w.now := (congrArg (fun answer => answer.2.now) got).symm
      have move : Move s ⟨job, h, .locking settings⟩ w _ _ :=
        .busy settings (congrArg Prod.fst got)
      rwa [got, ← now] at move
  | opening settings =>
    simp only [step, act, openRevision]
    split
    · exact .unplanned settings _ ‹_›
    · exact .opened settings _ _ ‹_›
  | chunking d =>
    cases found : w.db.documents.document? job.workspaceId job.documentId with
    | none =>
      simp only [step, act, chunk, World.chunkDocument?, found]
      exact .missing d found
    | some doc =>
      simp only [step, act, chunk, World.chunkDocument?, found]
      exact .chunked d doc _ _ found rfl
  | sizing d =>
    simp only [step, act, size]
    split <;> rename_i empty <;> rw [List.isEmpty_iff] at empty
    · exact .blank d empty
    · exact .sized d empty
  | admitting d =>
    simp only [step, act, askGate]
    split
    · exact .admitted d ‹_›
    · exact .denied d _ _ ‹_›
  | authorizing d =>
    simp only [step, act, authorize]
    split <;> rename_i answer
    · have move : Move s ⟨job, h, .authorizing d⟩ w _ _ :=
        .authorized d _ (congrArg Prod.fst answer)
      rwa [answer] at move
    · have move : Move s ⟨job, h, .authorizing d⟩ w _ _ :=
        .refused d _ (congrArg Prod.fst answer)
      rwa [answer] at move
    · have move : Move s ⟨job, h, .authorizing d⟩ w _ _ :=
        .stopped d (congrArg Prod.fst answer)
      rwa [answer] at move
  | embedding d left =>
    cases left with
    | nil => exact .embeddedAll d
    | cons c left => exact embedNext_move s job h d c left w
  | ensuring d =>
    simp only [step, act, ensure]
    split <;> rename_i answer
    · have move : Move s ⟨job, h, .ensuring d⟩ w _ _ :=
        .ensured d (congrArg Prod.fst answer)
      rwa [answer] at move
    · have move : Move s ⟨job, h, .ensuring d⟩ w _ _ :=
        .unensured d _ (congrArg Prod.fst answer)
      rwa [answer] at move
  | writing d =>
    simp only [step, act, write]
    split <;> rename_i rendered
    · exact .unrendered d _ rendered
    · split <;> rename_i answer
      · have move : Move s ⟨job, h, .writing d⟩ w _ _ :=
          .written d _ rendered (congrArg Prod.fst answer)
        rwa [answer] at move
      · have move : Move s ⟨job, h, .writing d⟩ w _ _ :=
          .unwritten d _ _ rendered (congrArg Prod.fst answer)
        rwa [answer] at move
  | accounting d =>
    simp only [step, act, account]
    split
    · exact .unaccounted d ‹_›
    · exact .accounted d _ ‹_›
  | switching d =>
    cases found : w.db.documents.document? job.workspaceId job.documentId with
    | none =>
      simp only [step, act, switch, Database.switchIn?, Database.switch?, found, Option.map_none]
      exact .vanished d found
    | some doc =>
      simp only [step, act, switch, Database.switchIn?, Database.switch?, found, Option.map_some]
      exact .switched d doc found
  | cleaning d previous => exact .cleaned d previous
  | failing revision e =>
    cases revision with
    | none => exact .unopened e
    | some id => exact .failed id e
  | settling e =>
    simp only [step, act, settle]
    split <;> rename_i retryable
    · split <;> rename_i answer
      · exact .retried e _ _ _ retryable answer
      · exact .exhausted e _ _ retryable answer
    · exact .final e (by simpa using retryable)
  | marking reason => exact .marked reason
  | noting reason =>
    simp only [step, act, note]
    split
    · exact .unnoted reason ‹_›
    · exact .noted reason _ ‹_›
  | refreshing outcome =>
    have move : Move s ⟨job, h, .refreshing outcome⟩ w _ _ :=
      .refreshed outcome
    cases h <;> exact move
  | releasing outcome =>
    cases h with
    | none => exact .unlocked outcome
    | some holder => exact .released holder outcome
  | finished outcome => cases going
  | crashed => cases going

end Run

end IndexingPipeline
