import IndexingPipeline.Database

/-!
# Rows of the tables

What the operations on jobs, documents, revisions and locks do to the row of a key. A change
that keeps the key of every row is seen by looking up the key before or after it. Of a document
the index cares only for where it points: its standing, which nothing but a switch moves.
-/

namespace IndexingPipeline

/-- What is picked from a list, one member after another, is one of its members. -/
theorem mem_of_picked {α : Type} {pick : Option α → α → Option α}
    (picks : ∀ best a, pick best a = some a ∨ pick best a = best) (xs : List α)
    {best : Option α} {x : α} (h : xs.foldl pick best = some x) : best = some x ∨ x ∈ xs := by
  induction xs generalizing best with
  | nil => exact .inl h
  | cons a rest ih =>
    rcases ih h with here | later
    · rcases picks best a with new | old
      · rw [new] at here
        exact .inr (Option.some.inj here ▸ List.mem_cons_self)
      · exact .inl (old ▸ here)
    · exact .inr (List.mem_cons_of_mem a later)

/-- What is picked among rows that have become others, when these are preferred in the same way. -/
theorem picked_map {α : Type} {pick : Option α → α → Option α} {f : α → α} {P : α → Prop}
    (picks : ∀ best a, pick best a = some a ∨ pick best a = best)
    (same : ∀ best a, (∀ b, best = some b → P b) → P a →
      pick (best.map f) (f a) = (pick best a).map f)
    (rows : List α) (among : ∀ a ∈ rows, P a) (best : Option α) (known : ∀ b, best = some b → P b) :
    (rows.map f).foldl pick (best.map f) = (rows.foldl pick best).map f := by
  induction rows generalizing best with
  | nil => rfl
  | cons a rest ih =>
    have member := among a List.mem_cons_self
    have others : ∀ b ∈ rest, P b := fun b later => among b (List.mem_cons_of_mem a later)
    rw [List.map_cons, List.foldl_cons, List.foldl_cons, same best a known member]
    refine ih others (pick best a) ?_
    rcases picks best a with first | kept
    · rw [first]
      rintro _ ⟨⟩
      exact member
    · rwa [kept]

namespace Job

def pointedAt (version : String) (now : Int) (j : Job) : Job :=
  { j with versionId := version, updatedAt := now }

@[simp]
theorem pointedAt_id (version : String) (now : Int) (j : Job) :
    (j.pointedAt version now).id = j.id := rfl

def asked (now : Int) (newId workspace base document version : String) : Job :=
  { id := newId, workspaceId := workspace, baseId := base, documentId := document
    versionId := version, status := .pending, attempts := 0, lastError := none
    scheduledAt := now, claimedAt := none, createdAt := now, updatedAt := now
    finishedAt := none }

def taken (now : Int) (j : Job) : Job :=
  { j with status := .processing, claimedAt := some now, updatedAt := now }

@[simp]
theorem taken_id (now : Int) (j : Job) : (j.taken now).id = j.id := rfl

/-- Two rows of one job: it stays that of its document and base, and was added when it was. -/
structure SameRequest (j k : Job) : Prop where
  id : k.id = j.id
  workspace : k.workspaceId = j.workspaceId
  base : k.baseId = j.baseId
  document : k.documentId = j.documentId
  created : k.createdAt = j.createdAt

namespace SameRequest

theorem refl (j : Job) : j.SameRequest j := ⟨rfl, rfl, rfl, rfl, rfl⟩

theorem trans {i j k : Job} (ij : i.SameRequest j) (jk : j.SameRequest k) : i.SameRequest k where
  id := jk.id.trans ij.id
  workspace := jk.workspace.trans ij.workspace
  base := jk.base.trans ij.base
  document := jk.document.trans ij.document
  created := jk.created.trans ij.created

theorem includes {j k : Job} (same : j.SameRequest k) (scope : JobScope) :
    scope.includes k = scope.includes j := by
  rw [JobScope.includes, JobScope.includes, same.workspace, same.base, same.created]

theorem choose {f : Job → Job} (same : ∀ j : Job, j.SameRequest (f j)) (c : Prop) [Decidable c]
    (j : Job) : j.SameRequest (if c then f j else j) := by
  split
  · exact same j
  · exact .refl j

theorem pointedAt (version : String) (now : Int) (j : Job) :
    j.SameRequest (j.pointedAt version now) := ⟨rfl, rfl, rfl, rfl, rfl⟩

theorem taken (now : Int) (j : Job) : j.SameRequest (j.taken now) := ⟨rfl, rfl, rfl, rfl, rfl⟩

end SameRequest

end Job

namespace Queue

theorem job?_map {q : Queue} {f : Job → Job} (keeps : ∀ j, (f j).id = j.id) (id : String) :
    job? (q.map f) id = (q.job? id).map f := by
  have same : (fun j : Job => decide (j.id = id)) ∘ f = fun j => decide (j.id = id) := by
    funext j
    simp [keeps]
  rw [job?, List.find?_map, same]
  rfl

theorem job?_update {q : Queue} {f : Job → Job} {id : String}
    (keeps : ∀ j, (f j).id = j.id) : (q.update id f).job? id = (q.job? id).map f := by
  have keeps' : ∀ j : Job, (if j.id = id then f j else j).id = j.id := by
    intro j
    split
    · exact keeps j
    · rfl
  rw [update, job?_map keeps']
  cases found : q.job? id with
  | none => rfl
  | some j =>
    have key : j.id = id := by simpa using List.find?_some found
    simp [key]

theorem job?_update_ne {q : Queue} {f : Job → Job} {id other : String}
    (keeps : ∀ j, (f j).id = j.id) (ne : other ≠ id) :
    (q.update id f).job? other = q.job? other := by
  have keeps' : ∀ j : Job, (if j.id = id then f j else j).id = j.id := by
    intro j
    split
    · exact keeps j
    · rfl
  rw [update, job?_map keeps']
  cases found : q.job? other with
  | none => rfl
  | some j =>
    have key : j.id = other := by simpa using List.find?_some found
    simp [key, ne]

def ids (q : Queue) : List String := q.map (·.id)

theorem ids_update {q : Queue} {f : Job → Job} {id : String} (keeps : ∀ j, (f j).id = j.id) :
    (q.update id f).ids = q.ids := by
  unfold ids update
  rw [List.map_map]
  apply List.map_congr_left
  intro j _
  by_cases key : j.id = id <;> simp [key, keeps]

theorem update_update (q : Queue) {f g : Job → Job} (id : String)
    (keeps : ∀ j, (f j).id = j.id) : (q.update id f).update id g = q.update id (g ∘ f) := by
  unfold update
  rw [List.map_map]
  apply List.map_congr_left
  intro j _
  by_cases here : j.id = id <;> simp [here, keeps]

section Retry

variable {q jobs : Queue} {settings : WorkerSettings} {now moment : Int} {claimed : Job}
  {reason : String} {attempts : Nat}

/-- What a failed execution does to the row of a job that is put back. -/
theorem update_of_rescheduled
    (h : q.retry settings now claimed reason = (.rescheduled attempts moment, jobs)) :
    attempts = wrapU32 (claimed.attempts + 1) ∧ attempts < settings.maxAttempts ∧
      jobs = q.update claimed.id fun j =>
        { j with
          status := .pending, attempts, scheduledAt := moment, claimedAt := none
          lastError := some reason, updatedAt := now } := by
  unfold retry at h
  simp only at h
  split at h
  · cases h
  · rename_i left
    cases h
    exact ⟨rfl, by omega, rfl⟩

/-- What a failed execution does to the row of a job whose attempts are used up. -/
theorem update_of_exhausted
    (h : q.retry settings now claimed reason = (.failed attempts, jobs)) :
    attempts = wrapU32 (claimed.attempts + 1) ∧
      jobs = q.update claimed.id fun j =>
        { j with
          status := .failed, attempts, lastError := some (givingUp attempts reason)
          finishedAt := some now, updatedAt := now } := by
  unfold retry at h
  simp only at h
  split at h
  · cases h
    refine ⟨rfl, ?_⟩
    rw [fail, update_update _ _ (by intro j; rfl)]
    rfl
  · cases h

theorem ids_retry {outcome : RetryOutcome}
    (h : q.retry settings now claimed reason = (outcome, jobs)) : jobs.ids = q.ids := by
  cases outcome with
  | rescheduled attempts moment =>
    obtain ⟨_, _, rfl⟩ := update_of_rescheduled h
    exact ids_update (by intro j; rfl)
  | failed attempts =>
    obtain ⟨_, rfl⟩ := update_of_exhausted h
    exact ids_update (by intro j; rfl)

variable {j : Job}

/-- A job put back after a failed execution waits with the failure counted. -/
theorem job?_rescheduled
    (h : q.retry settings now claimed reason = (.rescheduled attempts moment, jobs))
    (found : q.job? claimed.id = some j) :
    attempts = wrapU32 (claimed.attempts + 1) ∧ attempts < settings.maxAttempts ∧
      ∃ j', jobs.job? claimed.id = some j' ∧ j'.status = .pending ∧ j'.attempts = attempts ∧
        j'.scheduledAt = moment := by
  obtain ⟨counted, left, rfl⟩ := update_of_rescheduled h
  refine ⟨counted, left, ?_⟩
  rw [job?_update (by intro j; rfl), found]
  exact ⟨_, rfl, rfl, rfl, rfl⟩

theorem job?_exhausted (h : q.retry settings now claimed reason = (.failed attempts, jobs))
    (found : q.job? claimed.id = some j) :
    ∃ j', jobs.job? claimed.id = some j' ∧ j'.status = .failed ∧
      j'.lastError = some (givingUp attempts reason) := by
  obtain ⟨_, rfl⟩ := update_of_exhausted h
  rw [job?_update (by intro j; rfl), found]
  exact ⟨_, rfl, rfl, rfl⟩

end Retry

theorem mem_of_newest? {q : Queue} {j : Job} (h : q.newest? = some j) : j ∈ q := by
  refine (mem_of_picked ?_ q h).resolve_left (by simp)
  intro best a
  grind

theorem mem_of_soonest? {q : Queue} {j : Job} (h : q.soonest? = some j) : j ∈ q := by
  refine (mem_of_picked ?_ q h).resolve_left (by simp)
  intro best a
  grind

theorem waiting?_spec {q : Queue} {workspace document : String} {j : Job}
    (h : q.waiting? workspace document = some j) :
    j ∈ q ∧ j.workspaceId = workspace ∧ j.documentId = document ∧ j.status = .pending := by
  simpa [and_assoc] using mem_of_newest? h

/-- With one row for each identifier a row that is there is found. -/
theorem job?_of_mem {q : Queue} {j : Job} (once : q.ids.Nodup) (h : j ∈ q) :
    q.job? j.id = some j := by
  induction q with
  | nil => cases h
  | cons k rest ih =>
    simp only [ids, List.map_cons, List.nodup_cons] at once
    by_cases key : k.id = j.id
    · rcases List.mem_cons.mp h with rfl | later
      · simp [job?]
      · exact absurd (List.mem_map_of_mem later) (key ▸ once.1)
    · have later : j ∈ rest := by
        rcases List.mem_cons.mp h with rfl | later
        · exact absurd rfl key
        · exact later
      have found : job? rest j.id = some j := ih once.2 later
      simpa [job?, key] using found

theorem job?_added (q : Queue) (j : Job) (id : String) :
    job? (q ++ [j]) id = (q.job? id).or (if j.id = id then some j else none) := by
  rw [job?, List.find?_append, List.find?_singleton, job?]
  simp only [decide_eq_true_eq]

/-- What asking for a version comes to: the job that waits is pointed at it, or one is added. -/
theorem enqueue_cases (q : Queue) (now : Int) (newId workspace base document version : String) :
    (∃ j, q.waiting? workspace document = some j ∧
      q.enqueue now newId workspace base document version =
        (j.pointedAt version now, q.update j.id (Job.pointedAt version now))) ∨
    q.waiting? workspace document = none ∧
      q.enqueue now newId workspace base document version =
        (Job.asked now newId workspace base document version,
          q ++ [Job.asked now newId workspace base document version]) := by
  unfold enqueue
  cases waits : q.waiting? workspace document with
  | some j => exact .inl ⟨j, rfl, rfl⟩
  | none => exact .inr ⟨rfl, rfl⟩

/-- What a claim comes to: nothing is due, or the job that is due first is taken. -/
theorem claim_cases (q : Queue) (now : Int) :
    q.claim now = (none, q) ∨ ∃ j ∈ q, j.status = .pending ∧ j.scheduledAt ≤ now ∧
      q.claim now = (some (j.taken now), q.update j.id (Job.taken now)) := by
  unfold claim
  cases first : soonest? (q.due now) with
  | none => exact .inl rfl
  | some j =>
    obtain ⟨member, due⟩ := List.mem_filter.mp (mem_of_soonest? first)
    simp only [Bool.and_eq_true, decide_eq_true_eq] at due
    exact .inr ⟨j, member, due.1, due.2, rfl⟩

theorem processing_of_isStale {settings : WorkerSettings} {now : Int} {j : Job}
    (stale : isStale settings now j = true) : j.status = .processing :=
  of_decide_eq_true (Bool.and_eq_true_iff.mp stale).1

/-- What becomes of a stale job: it is ended when its attempts are used up, else it is put back. -/
theorem recovered_cases (settings : WorkerSettings) (now : Int) (j : Job) :
    settings.maxAttempts ≤ j.attempts + 1 ∧ recovered settings now j =
      { j with
        status := .failed, attempts := j.attempts + 1, finishedAt := some now, updatedAt := now
        lastError := some "worker stopped while processing; attempts exhausted" } ∨
    j.attempts + 1 < settings.maxAttempts ∧ recovered settings now j =
      { j with
        status := .pending, attempts := j.attempts + 1, scheduledAt := now, claimedAt := none
        updatedAt := now, lastError := some "reclaimed stale job" } := by
  unfold recovered
  by_cases spent : settings.maxAttempts ≤ j.attempts + 1
  · exact .inl ⟨spent, if_pos spent⟩
  · exact .inr ⟨Nat.lt_of_not_le spent, if_neg spent⟩

/-- What looking after dead workers makes of a job. -/
def tended (settings : WorkerSettings) (now : Int) (j : Job) : Job :=
  if isStale settings now j then recovered settings now j else j

end Queue

namespace Job.SameRequest

theorem recovered (settings : WorkerSettings) (now : Int) (j : Job) :
    j.SameRequest (Queue.recovered settings now j) := by
  rcases Queue.recovered_cases settings now j with ⟨_, made⟩ | ⟨_, made⟩ <;> rw [made] <;>
    exact ⟨rfl, rfl, rfl, rfl, rfl⟩

theorem tended (settings : WorkerSettings) (now : Int) (j : Job) :
    j.SameRequest (Queue.tended settings now j) := choose (recovered settings now) _ j

end Job.SameRequest

namespace Queue

theorem tended_id (settings : WorkerSettings) (now : Int) (j : Job) :
    (tended settings now j).id = j.id := (Job.SameRequest.tended settings now j).id

/-- A job that waits or is under way after dead workers were looked after did so before, and has
attempts left if it had some. -/
theorem open_of_tended {settings : WorkerSettings} {now : Int} {j : Job}
    (waits : (tended settings now j).status = .pending ∨
      (tended settings now j).status = .processing) :
    (j.status = .pending ∨ j.status = .processing) ∧
      (j.attempts < max 1 settings.maxAttempts →
        (tended settings now j).attempts < max 1 settings.maxAttempts) := by
  rw [tended] at waits ⊢
  split at waits
  · rename_i stale
    rw [if_pos stale]
    refine ⟨.inr (processing_of_isStale stale), fun _ => ?_⟩
    rcases recovered_cases settings now j with ⟨_, made⟩ | ⟨left, made⟩
    · rw [made] at waits
      rcases waits with status | status <;> cases status
    · rw [made]
      exact Nat.lt_of_lt_of_le left (Nat.le_max_right 1 _)
  · rename_i fresh
    rw [if_neg fresh]
    exact ⟨waits, id⟩

theorem job?_claim {q : Queue} {now : Int} {job : Job} (once : q.ids.Nodup)
    (h : (q.claim now).1 = some job) :
    (q.claim now).2.job? job.id = some job ∧ job.status = .processing := by
  rcases q.claim_cases now with nothing | ⟨j, member, _, _, taken⟩
  · rw [nothing] at h
    cases h
  · rw [taken] at h ⊢
    obtain rfl := Option.some.inj h
    constructor
    · rw [Job.taken_id, job?_update (Job.taken_id now), job?_of_mem once member, Option.map_some]
    · rfl

theorem ids_claim (q : Queue) (now : Int) : (q.claim now).2.ids = q.ids := by
  rcases q.claim_cases now with nothing | ⟨j, _, _, _, taken⟩
  · rw [nothing]
  · rw [taken]
    exact ids_update (Job.taken_id now)

theorem ids_recover (q : Queue) (settings : WorkerSettings) (now : Int) :
    (q.recover settings now).2.ids = q.ids := by
  rw [recover, ids, List.map_map]
  apply List.map_congr_left
  intro j _
  exact tended_id settings now j

/-- Asking for a document leaves alone every job that waits for none. -/
theorem job?_enqueue {q : Queue} {j : Job} (once : q.ids.Nodup) (found : q.job? j.id = some j)
    (busy : j.status ≠ .pending) (now : Int) (newId workspace base document version : String) :
    (q.enqueue now newId workspace base document version).2.job? j.id = some j := by
  rcases q.enqueue_cases now newId workspace base document version with
    ⟨k, waits, pointed⟩ | ⟨_, added⟩
  · obtain ⟨member, _, _, pending⟩ := waiting?_spec waits
    have ne : j.id ≠ k.id := by
      intro same
      have both := job?_of_mem once member
      rw [← same, found] at both
      cases both
      exact busy pending
    rw [pointed, job?_update_ne (Job.pointedAt_id version now) ne, found]
  · rw [added, job?_added, found, Option.some_or]

theorem ids_enqueue (q : Queue) (now : Int) (newId workspace base document version : String) :
    (q.enqueue now newId workspace base document version).2.ids = q.ids ∨
    (q.enqueue now newId workspace base document version).2.ids = q.ids ++ [newId] := by
  rcases q.enqueue_cases now newId workspace base document version with
    ⟨j, _, pointed⟩ | ⟨_, added⟩
  · rw [pointed]
    exact .inl (ids_update (Job.pointedAt_id version now))
  · rw [added]
    exact .inr List.map_append

end Queue

namespace Document

/-- A document with another body, under a version that is yet to be indexed. -/
def rewritten (now : Int) (version body : String) (d : Document) : Document :=
  { d with
    body, versionId := version, indexStatus := .pending, indexError := none, updatedAt := now }

def added (now : Int) (workspace base id version body : String) : Document :=
  { id, workspaceId := workspace, baseId := base, body, versionId := version
    currentRevisionId := none, currentChunkSetId := none, indexedVersionId := none
    indexStatus := .pending, indexError := none, updatedAt := now }

end Document

/-- What a document says of its place in the index: its key, and the revision and the chunk set
it points at. -/
structure Standing where
  workspaceId : String
  documentId : String
  revision : Option String
  chunkSet : Option String
  deriving DecidableEq, Repr

namespace Standing

def isAt (workspace id : String) (x : Standing) : Bool :=
  x.workspaceId = workspace && x.documentId = id

def IsNew (x : Standing) : Prop := x.revision = none ∧ x.chunkSet = none

/-- The standing after a document was pointed at another revision. -/
def switched (workspace id revision chunkSet : String) (x : Standing) : Standing :=
  if x.isAt workspace id then
    { x with revision := some revision, chunkSet := some chunkSet }
  else x

end Standing

def Document.standing (d : Document) : Standing :=
  ⟨d.workspaceId, d.id, d.currentRevisionId, d.currentChunkSetId⟩

/-- Where the document of a key points, if there is one. -/
def pointer? (xs : List Standing) (workspace id : String) : Option String :=
  (xs.find? (Standing.isAt workspace id)).bind (·.revision)

/-- No two documents have one key. -/
def Alone (xs : List Standing) : Prop :=
  ∀ x ∈ xs, ∀ y ∈ xs, x.workspaceId = y.workspaceId → x.documentId = y.documentId → x = y

/-- Nothing happened to the documents but that some were added which point nowhere. -/
structure Grown (xs ys : List Standing) : Prop where
  added : ∃ new, ys = xs ++ new ∧ ∀ x ∈ new, x.IsNew
  alone : Alone xs → Alone ys

namespace Grown

theorem refl (xs : List Standing) : Grown xs xs := ⟨⟨[], by simp, by simp⟩, fun alone => alone⟩

theorem trans {xs ys zs : List Standing} (first : Grown xs ys) (second : Grown ys zs) :
    Grown xs zs := by
  obtain ⟨new, rfl, isNew⟩ := first.added
  obtain ⟨newer, rfl, isNewer⟩ := second.added
  refine ⟨⟨new ++ newer, List.append_assoc xs new newer, ?_⟩,
    fun alone => second.alone (first.alone alone)⟩
  intro x member
  rcases List.mem_append.mp member with h | h
  · exact isNew x h
  · exact isNewer x h

/-- A document that points somewhere points there still, and no other came to point there. -/
theorem mem_iff {xs ys : List Standing} (h : Grown xs ys) {x : Standing}
    (points : x.revision ≠ none) : x ∈ ys ↔ x ∈ xs := by
  obtain ⟨new, rfl, isNew⟩ := h.added
  rw [List.mem_append]
  constructor
  · rintro (old | fresh)
    · exact old
    · exact absurd (isNew x fresh).1 points
  · exact .inl

theorem pointer?_eq {xs ys : List Standing} (h : Grown xs ys) (workspace id : String) :
    pointer? ys workspace id = pointer? xs workspace id := by
  obtain ⟨new, rfl, isNew⟩ := h.added
  unfold pointer?
  rw [List.find?_append]
  cases xs.find? (Standing.isAt workspace id) with
  | some x => rfl
  | none =>
    cases found : new.find? (Standing.isAt workspace id) with
    | none => simp
    | some x => simpa using (isNew x (List.mem_of_find?_eq_some found)).1

theorem stays {xs ys : List Standing} (h : Grown xs ys) {workspace id : String}
    (there : (xs.find? (Standing.isAt workspace id)).isSome = true) :
    (ys.find? (Standing.isAt workspace id)).isSome = true := by
  obtain ⟨new, rfl, _⟩ := h.added
  rw [List.find?_append, Option.isSome_or, there, Bool.true_or]

/-- A document that points nowhere is added under a key that no other has. -/
theorem snoc {xs : List Standing} {x : Standing} (isNew : x.IsNew)
    (absent : ∀ y ∈ xs, ¬ (y.workspaceId = x.workspaceId ∧ y.documentId = x.documentId)) :
    Grown xs (xs ++ [x]) := by
  refine ⟨⟨[x], rfl, ?_⟩, ?_⟩
  · intro y member
    exact List.mem_singleton.mp member ▸ isNew
  · intro alone a hx b hy sameWorkspace sameDocument
    rcases List.mem_append.mp hx with oldA | newA
    · rcases List.mem_append.mp hy with oldB | newB
      · exact alone a oldA b oldB sameWorkspace sameDocument
      · rw [List.mem_singleton.mp newB] at sameWorkspace sameDocument
        exact absurd ⟨sameWorkspace, sameDocument⟩ (absent a oldA)
    · rcases List.mem_append.mp hy with oldB | newB
      · rw [List.mem_singleton.mp newA] at sameWorkspace sameDocument
        exact absurd ⟨sameWorkspace.symm, sameDocument.symm⟩ (absent b oldB)
      · rw [List.mem_singleton.mp newA, List.mem_singleton.mp newB]

end Grown

theorem Alone.switched {xs : List Standing} (alone : Alone xs)
    (workspace id revision chunkSet : String) :
    Alone (xs.map (Standing.switched workspace id revision chunkSet)) := by
  have key : ∀ x : Standing,
      (x.switched workspace id revision chunkSet).workspaceId = x.workspaceId ∧
        (x.switched workspace id revision chunkSet).documentId = x.documentId := by
    intro x
    unfold Standing.switched
    split <;> exact ⟨rfl, rfl⟩
  intro x hx y hy sameWorkspace sameDocument
  obtain ⟨a, memberA, rfl⟩ := List.mem_map.mp hx
  obtain ⟨b, memberB, rfl⟩ := List.mem_map.mp hy
  rw [(key a).1, (key b).1] at sameWorkspace
  rw [(key a).2, (key b).2] at sameDocument
  rw [alone a memberA b memberB sameWorkspace sameDocument]

theorem find?_switched (xs : List Standing)
    (workspace id revision chunkSet workspace' id' : String) :
    (xs.map (Standing.switched workspace id revision chunkSet)).find?
        (Standing.isAt workspace' id') =
      (xs.find? (Standing.isAt workspace' id')).map
        (Standing.switched workspace id revision chunkSet) := by
  have keeps : Standing.isAt workspace' id' ∘ Standing.switched workspace id revision chunkSet =
      Standing.isAt workspace' id' := by
    funext x
    unfold Standing.switched
    simp only [Function.comp]
    split <;> rfl
  rw [List.find?_map, keeps]

/-- A switch moves the pointer of the document of its key, if there is one. -/
theorem pointer?_switched {xs : List Standing} {workspace id revision chunkSet : String}
    {x : Standing} (there : xs.find? (Standing.isAt workspace id) = some x) :
    pointer? (xs.map (Standing.switched workspace id revision chunkSet)) workspace id =
      some revision := by
  have here : x.isAt workspace id = true := List.find?_some there
  rw [pointer?, find?_switched, there]
  simp [Standing.switched, here]

theorem pointer?_switched_ne {xs : List Standing}
    {workspace id revision chunkSet workspace' id' : String}
    (ne : ¬ (workspace' = workspace ∧ id' = id)) :
    pointer? (xs.map (Standing.switched workspace id revision chunkSet)) workspace' id' =
      pointer? xs workspace' id' := by
  unfold pointer?
  rw [find?_switched]
  cases found : xs.find? (Standing.isAt workspace' id') with
  | none => rfl
  | some x =>
    have at' := List.find?_some found
    simp only [Standing.isAt, Bool.and_eq_true, decide_eq_true_eq] at at'
    have elsewhere : x.isAt workspace id = false := by
      simp only [Standing.isAt, Bool.and_eq_false_iff, decide_eq_false_iff_not]
      rw [at'.1, at'.2]
      by_cases same : workspace' = workspace
      · exact .inr fun same' => ne ⟨same, same'⟩
      · exact .inl same
    simp [Standing.switched, elsewhere]

namespace Documents

def standings (ds : Documents) : List Standing := ds.map Document.standing

theorem isAt_standing (workspace id : String) (d : Document) :
    d.standing.isAt workspace id = isAt workspace id d := rfl

theorem document?_standing (ds : Documents) (workspace id : String) :
    (ds.document? workspace id).map Document.standing =
      ds.standings.find? (Standing.isAt workspace id) := by
  unfold standings
  rw [List.find?_map]
  rfl

theorem pointer?_standings (ds : Documents) (workspace id : String) :
    pointer? ds.standings workspace id =
      (ds.document? workspace id).bind (·.currentRevisionId) := by
  rw [pointer?, ← document?_standing, Option.bind_map]
  rfl

theorem isCurrent_iff (ds : Documents) (revision : String) :
    ds.isCurrent revision = true ↔ ∃ x ∈ ds.standings, x.revision = some revision := by
  simp only [isCurrent, standings, List.any_eq_true, List.mem_map]
  constructor
  · rintro ⟨d, member, points⟩
    exact ⟨d.standing, ⟨d, member, rfl⟩, of_decide_eq_true points⟩
  · rintro ⟨_, ⟨d, member, rfl⟩, points⟩
    exact ⟨d, member, decide_eq_true points⟩

theorem isAt_iff {workspace id : String} {d : Document} :
    isAt workspace id d = true ↔ d.workspaceId = workspace ∧ d.id = id := by
  simp [isAt]

/-- What writing a document comes to: the row that is there is rewritten, or one is added. -/
theorem put_cases (ds : Documents) (now : Int) (workspace base id version body : String) :
    (∃ d, ds.document? workspace id = some d ∧
      ds.put now workspace base id version body =
        ds.update workspace id (Document.rewritten now version body)) ∨
    ds.document? workspace id = none ∧
      ds.put now workspace base id version body =
        ds ++ [Document.added now workspace base id version body] := by
  unfold put
  cases found : ds.document? workspace id with
  | some d => exact .inl ⟨d, rfl, rfl⟩
  | none => exact .inr ⟨rfl, rfl⟩

theorem document?_added (ds : Documents) (d : Document) (workspace id : String) :
    document? (ds ++ [d]) workspace id =
      (ds.document? workspace id).or (if isAt workspace id d then some d else none) := by
  rw [document?, List.find?_append, List.find?_singleton, document?]

theorem document?_update {ds : Documents} {workspace id : String} {f : Document → Document}
    (keeps : ∀ d, isAt workspace id (f d) = isAt workspace id d) :
    (ds.update workspace id f).document? workspace id =
      (ds.document? workspace id).map f := by
  have same : isAt workspace id ∘ (fun d => if isAt workspace id d then f d else d) =
      isAt workspace id := by
    funext d
    by_cases here : isAt workspace id d <;> simp [here, keeps]
  rw [document?, update, List.find?_map, same]
  cases found : ds.find? (isAt workspace id) with
  | none => simp [document?, found]
  | some d =>
    have here : isAt workspace id d := List.find?_some found
    simp [document?, found, here]

theorem document?_switched {ds : Documents} {workspace id : String} {d : Document}
    (found : ds.document? workspace id = some d) (now : Int)
    (revision chunkSet version : String) :
    ((ds.switch now workspace id revision chunkSet).markUpToDate now workspace id
        version).document? workspace id =
      some { d with
        currentRevisionId := some revision, currentChunkSetId := some chunkSet
        indexedVersionId := some version, indexStatus := .ready, indexError := none
        updatedAt := now } := by
  rw [markUpToDate, document?_update (by intro d; rfl), switch,
    document?_update (by intro d; rfl), found]
  rfl

/-- The document of a key, if there is one, says why it could not be indexed. -/
theorem document?_markError {ds : Documents} {now : Int} {workspace id reason : String}
    {d : Document}
    (found : (ds.markError now workspace id reason).document? workspace id = some d) :
    d.indexStatus = .error ∧ d.indexError = some reason := by
  rw [markError, document?_update (by intro d; rfl)] at found
  obtain ⟨before, _, rfl⟩ := Option.map_eq_some_iff.mp found
  exact ⟨rfl, rfl⟩

theorem standings_update {ds : Documents} {workspace id : String} {f : Document → Document}
    (keeps : ∀ d, (f d).standing = d.standing) :
    (ds.update workspace id f).standings = ds.standings := by
  unfold standings update
  rw [List.map_map]
  apply List.map_congr_left
  intro d _
  by_cases here : isAt workspace id d <;> simp [here, keeps]

theorem standings_markUpToDate (ds : Documents) (now : Int) (workspace id version : String) :
    (ds.markUpToDate now workspace id version).standings = ds.standings :=
  standings_update (by intro d; rfl)

theorem standings_markError (ds : Documents) (now : Int) (workspace id reason : String) :
    (ds.markError now workspace id reason).standings = ds.standings :=
  standings_update (by intro d; rfl)

theorem standings_switch (ds : Documents) (now : Int)
    (workspace id revision chunkSet : String) :
    (ds.switch now workspace id revision chunkSet).standings =
      ds.standings.map (Standing.switched workspace id revision chunkSet) := by
  unfold standings switch update
  rw [List.map_map, List.map_map]
  apply List.map_congr_left
  intro d _
  by_cases here : isAt workspace id d
  · simp only [Function.comp, Standing.switched, isAt_standing, here, if_true]
    rfl
  · simp only [Function.comp, Standing.switched, isAt_standing, here, if_false,
      Bool.false_eq_true]

/-- Writing a document moves no pointer: a document that was not there points nowhere. -/
theorem grown_put (ds : Documents) (now : Int) (workspace base id version body : String) :
    Grown ds.standings (ds.put now workspace base id version body).standings := by
  rcases ds.put_cases now workspace base id version body with
    ⟨_, _, rewritten⟩ | ⟨missing, added⟩
  · rw [rewritten, standings_update (by intro d; rfl)]
    exact Grown.refl _
  · have absent : ∀ x ∈ ds.standings, ¬ (x.workspaceId = workspace ∧ x.documentId = id) := by
      intro x member key
      have nothing := ds.document?_standing workspace id
      rw [missing, Option.map_none, eq_comm, List.find?_eq_none] at nothing
      exact nothing x member (by simp [Standing.isAt, key])
    rw [added, standings, standings, List.map_append]
    exact Grown.snoc ⟨rfl, rfl⟩ absent

end Documents

/-- What may become of a revision once its run has written down how large it is: it ends, and a
revision that is ready stays ready. -/
structure Revision.EndsAs (a b : Revision) : Prop where
  id : b.id = a.id
  workspaceId : b.workspaceId = a.workspaceId
  documentId : b.documentId = a.documentId
  chunkSetId : b.chunkSetId = a.chunkSetId
  chunkCount : b.chunkCount = a.chunkCount
  ready : a.status = .ready → b.status = .ready

namespace Revision

theorem EndsAs.refl (r : Revision) : r.EndsAs r := ⟨rfl, rfl, rfl, rfl, rfl, fun h => h⟩

theorem EndsAs.trans {a b c : Revision} (ab : a.EndsAs b) (bc : b.EndsAs c) : a.EndsAs c where
  id := bc.id.trans ab.id
  workspaceId := bc.workspaceId.trans ab.workspaceId
  documentId := bc.documentId.trans ab.documentId
  chunkSetId := bc.chunkSetId.trans ab.chunkSetId
  chunkCount := bc.chunkCount.trans ab.chunkCount
  ready := fun h => bc.ready (ab.ready h)

theorem endsAs_failed {r : Revision} (h : r.status = .processing) (now : Int)
    (reason : String) : r.EndsAs (r.failed now reason) :=
  ⟨rfl, rfl, rfl, rfl, rfl, by simp [h]⟩

end Revision

namespace Revisions

theorem revision?_map {rs : Revisions} {f : Revision → Revision} (keeps : ∀ r, (f r).id = r.id)
    (id : String) : revision? (rs.map f) id = (rs.revision? id).map f := by
  have same : (fun r : Revision => decide (r.id = id)) ∘ f = fun r => decide (r.id = id) := by
    funext r
    simp [keeps]
  rw [revision?, List.find?_map, same]
  rfl

/-- What becomes of every row becomes of the row that is found. -/
theorem endsAs_map {rs : Revisions} {f : Revision → Revision}
    (ends : ∀ r : Revision, r.EndsAs (f r))
    {id : String} {a : Revision} (found : rs.revision? id = some a) :
    ∃ b, revision? (rs.map f) id = some b ∧ a.EndsAs b := by
  refine ⟨f a, ?_, ends a⟩
  rw [revision?_map fun r => (ends r).id, found]
  rfl

/-- A change that names neither chunks nor a status but ready does no more than end a revision. -/
theorem endsAs_change {c : RevisionChange} (set : c.chunkSetId = none)
    (count : c.chunkCount = none) (status : c.status.getD .ready = .ready) (id : String)
    (r : Revision) : r.EndsAs (if r.id = id then r.change c else r) := by
  split
  · refine ⟨rfl, rfl, rfl, by simp [Revision.change, set], by simp [Revision.change, count], ?_⟩
    intro ready
    cases named : c.status <;> simp_all [Revision.change]
  · exact .refl r

/-- A revision that no document points at is under way no more once it was failed. -/
theorem status_failed {ds : Documents} {now : Int} {id reason : String} {a : Revision}
    {rs : Revisions} (member : a ∈ (rs.markFailed ds now id reason).2)
    (processing : a.status = .processing) :
    a ∈ rs ∧ (ds.isCurrent id = false → a.id ≠ id) := by
  obtain ⟨b, old, rfl⟩ := List.mem_map.mp member
  by_cases hit : (b.id = id && isOpen ds b) = true
  · simp only [hit, if_true] at processing
    cases processing
  · simp only [hit, if_false, Bool.false_eq_true] at processing ⊢
    refine ⟨old, ?_⟩
    rintro unpointed rfl
    exact hit (by simp [isOpen, processing, unpointed])

theorem id_of_revision? {rs : Revisions} {id : String} {r : Revision}
    (h : rs.revision? id = some r) : r.id = id := by
  simpa using List.find?_some h

theorem id_updated (id : String) (c : RevisionChange) (r : Revision) :
    (if r.id = id then r.change c else r).id = r.id := by
  split <;> rfl

theorem status_updated {c : RevisionChange} (keeps : c.status = none) (id : String)
    (r : Revision) : (if r.id = id then r.change c else r).status = r.status := by
  split
  · simp [Revision.change, keeps]
  · rfl

theorem revision?_update {rs : Revisions} {id : String} {r : Revision}
    (found : rs.revision? id = some r) (c : RevisionChange) :
    (rs.update id c).revision? id = some (r.change c) := by
  rw [update, revision?_map (id_updated id c), found]
  simp [id_of_revision? found]

theorem revision?_update_ne {rs : Revisions} {id other : String} (ne : other ≠ id)
    (c : RevisionChange) : (rs.update id c).revision? other = rs.revision? other := by
  rw [update, revision?_map (id_updated id c)]
  cases found : rs.revision? other with
  | none => rfl
  | some r => simp [id_of_revision? found, ne]

theorem revision?_append_of_some {rs new : Revisions} {id : String} {r : Revision}
    (h : rs.revision? id = some r) : revision? (rs ++ new) id = some r := by
  unfold revision? at h ⊢
  rw [List.find?_append, h]
  rfl

theorem revision?_append_new {rs : Revisions} {r : Revision} (new : ∀ x ∈ rs, x.id ≠ r.id) :
    revision? (rs ++ [r]) r.id = some r := by
  have none_before : rs.find? (fun x => x.id = r.id) = none := by
    simpa using new
  rw [revision?, List.find?_append, none_before]
  simp

end Revisions

namespace Locks

/-- What taking a lock comes to: one is added where there is none, it takes the place of one that
has expired, or it is refused on account of one that has not. -/
theorem acquire_cases (ls : Locks) (now lifetime : Int) (workspace document holder : String) :
    let mine : Lock := ⟨workspace, document, holder, wrap64 (now + lifetime)⟩
    ls.lock? workspace document = none ∧
      ls.acquire now lifetime workspace document holder = (true, ls ++ [mine]) ∨
    (∃ l, ls.lock? workspace document = some l ∧ l.expiresAt ≤ now ∧
      ls.acquire now lifetime workspace document holder =
        (true, ls.map fun l => if isFor workspace document l then mine else l)) ∨
    ∃ l, ls.lock? workspace document = some l ∧ now < l.expiresAt ∧
      ls.acquire now lifetime workspace document holder = (false, ls) := by
  intro mine
  unfold acquire
  cases found : ls.lock? workspace document with
  | none => exact .inl ⟨rfl, rfl⟩
  | some l =>
    by_cases expired : l.expiresAt ≤ now
    · exact .inr (.inl ⟨l, rfl, expired, if_pos expired⟩)
    · exact .inr (.inr ⟨l, rfl, Int.lt_of_not_ge expired, if_neg expired⟩)

theorem mem_acquire {ls : Locks} {now lifetime : Int} {workspace document holder : String}
    {l : Lock} (h : l ∈ (ls.acquire now lifetime workspace document holder).2) :
    l ∈ ls ∨ l = ⟨workspace, document, holder, wrap64 (now + lifetime)⟩ := by
  rcases ls.acquire_cases now lifetime workspace document holder with
    ⟨_, added⟩ | ⟨_, _, _, replaced⟩ | ⟨_, _, _, refused⟩
  · rw [added] at h
    exact (List.mem_append.mp h).imp_right List.mem_singleton.mp
  · rw [replaced] at h
    obtain ⟨k, member, rfl⟩ := List.mem_map.mp h
    split
    · exact .inr rfl
    · exact .inl member
  · rw [refused] at h
    exact .inl h

theorem acquire_refused {ls : Locks} {now lifetime : Int} {workspace document holder : String}
    (h : (ls.acquire now lifetime workspace document holder).1 = false) :
    (ls.acquire now lifetime workspace document holder).2 = ls := by
  rcases ls.acquire_cases now lifetime workspace document holder with
    ⟨_, added⟩ | ⟨_, _, _, replaced⟩ | ⟨_, _, _, refused⟩
  · rw [added] at h
    cases h
  · rw [replaced] at h
    cases h
  · rw [refused]

theorem mem_release {ls : Locks} {workspace document holder : String} {l : Lock} :
    l ∈ ls.release workspace document holder ↔
      l ∈ ls ∧ ¬ (isFor workspace document l = true ∧ l.holder = holder) := by
  rw [release, List.mem_filter]
  simp only [Bool.not_eq_true', Bool.and_eq_false_iff, decide_eq_false_iff_not, not_and,
    and_congr_right_iff]
  intro _
  cases isFor workspace document l <;> simp

theorem isFor_iff {l : Lock} {workspace document : String} :
    isFor workspace document l = true ↔ l.workspaceId = workspace ∧ l.documentId = document := by
  simp [isFor]

theorem isFor_ne {l : Lock} {workspace document workspace' document' : String}
    (here : isFor workspace document l = true)
    (ne : ¬ (workspace' = workspace ∧ document' = document)) :
    isFor workspace' document' l = false := by
  obtain ⟨rfl, rfl⟩ := isFor_iff.mp here
  rw [← Bool.not_eq_true, isFor_iff]
  exact fun other => ne ⟨other.1.symm, other.2.symm⟩

/-- A lock that takes the place of those of its document is for the same document. -/
theorem isFor_replaced (mine : Lock) (workspace document : String) :
    isFor workspace document ∘
      (fun l => if isFor mine.workspaceId mine.documentId l then mine else l) =
        isFor workspace document := by
  funext l
  simp only [Function.comp]
  split
  · obtain ⟨here, there⟩ := isFor_iff.mp ‹_›
    simp [isFor, here, there]
  · rfl

/-- A lock that takes the place of those of its document is found where they were. -/
theorem lock?_replaced (ls : Locks) (mine : Lock) (workspace document : String) :
    lock? (ls.map fun l => if isFor mine.workspaceId mine.documentId l then mine else l)
        workspace document =
      (ls.lock? workspace document).map fun l =>
        if isFor mine.workspaceId mine.documentId l then mine else l := by
  rw [lock?, List.find?_map, isFor_replaced]
  rfl

/-- Taking the lock of one document leaves alone the lock of every other. -/
theorem lock?_acquire_ne {ls : Locks} {workspace document : String} {l : Lock}
    (found : ls.lock? workspace document = some l) {workspace' document' : String}
    (ne : ¬ (workspace' = workspace ∧ document' = document)) (now lifetime : Int)
    (holder : String) :
    (ls.acquire now lifetime workspace' document' holder).2.lock? workspace document =
      some l := by
  have other : isFor workspace' document' l = false := isFor_ne (List.find?_some found) ne
  rcases ls.acquire_cases now lifetime workspace' document' holder with
    ⟨_, added⟩ | ⟨_, _, _, replaced⟩ | ⟨_, _, _, refused⟩
  · rw [added, lock?, List.find?_append, ← lock?, found, Option.some_or]
  · have kept := ls.lock?_replaced ⟨workspace', document', holder, wrap64 (now + lifetime)⟩
      workspace document
    rw [found, Option.map_some, other] at kept
    rw [replaced]
    exact kept
  · rw [refused, found]

theorem acquire_of_unexpired {ls : Locks} {workspace document : String} {l : Lock}
    (found : ls.lock? workspace document = some l) {now : Int} (unexpired : now < l.expiresAt)
    (lifetime : Int) (holder : String) :
    (ls.acquire now lifetime workspace document holder).1 = false := by
  rcases ls.acquire_cases now lifetime workspace document holder with
    ⟨free, _⟩ | ⟨k, found', expired, _⟩ | ⟨_, _, _, refused⟩
  · rw [found] at free
    cases free
  · rw [found] at found'
    obtain rfl := Option.some.inj found'
    omega
  · rw [refused]

/-- Taking a lock leaves alone every lock that has not expired. -/
theorem lock?_acquire_unexpired {ls : Locks} {workspace document : String} {l : Lock}
    (found : ls.lock? workspace document = some l) {now : Int} (unexpired : now < l.expiresAt)
    (lifetime : Int) (workspace' document' holder : String) :
    (ls.acquire now lifetime workspace' document' holder).2.lock? workspace document =
      some l := by
  by_cases same : workspace' = workspace ∧ document' = document
  · obtain ⟨rfl, rfl⟩ := same
    rw [acquire_refused (acquire_of_unexpired found unexpired lifetime holder)]
    exact found
  · exact lock?_acquire_ne found same now lifetime holder

theorem lock?_acquired {ls : Locks} {now lifetime : Int} {workspace document holder : String}
    (taken : (ls.acquire now lifetime workspace document holder).1 = true) :
    (ls.acquire now lifetime workspace document holder).2.lock? workspace document =
      some ⟨workspace, document, holder, wrap64 (now + lifetime)⟩ := by
  rcases ls.acquire_cases now lifetime workspace document holder with
    ⟨free, added⟩ | ⟨l, found, _, replaced⟩ | ⟨_, _, _, refused⟩
  · rw [added, lock?, List.find?_append, ← lock?, free]
    simp [isFor]
  · have here : isFor workspace document l = true := List.find?_some found
    have mine := ls.lock?_replaced ⟨workspace, document, holder, wrap64 (now + lifetime)⟩
      workspace document
    rw [found, Option.map_some, here] at mine
    rw [replaced]
    exact mine
  · rw [refused] at taken
    cases taken

/-- Giving a lock back leaves alone every lock of another holder. -/
theorem lock?_release {ls : Locks} {workspace document : String} {l : Lock}
    (found : ls.lock? workspace document = some l) {holder : String} (other : l.holder ≠ holder)
    (workspace' document' : String) :
    (ls.release workspace' document' holder).lock? workspace document = some l := by
  unfold release lock? at *
  rw [List.find?_filter]
  induction ls with
  | nil => cases found
  | cons k rest ih =>
    rw [List.find?_cons] at found ⊢
    cases here : isFor workspace document k with
    | true =>
      rw [here] at found
      obtain rfl := Option.some.inj found
      simp [other]
    | false =>
      rw [here] at found
      simpa [here] using ih found

end Locks

end IndexingPipeline
