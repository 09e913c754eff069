import Mathlib.Data.List.Nodup
import IndexingPipeline.Proofs.Reindex
import IndexingPipeline.Proofs.Rows

/-!
# Where a document is put

A document is written to a workspace and a base, and its version asked for there. Both look for a
row of the document in the workspace, whatever its base: a document that is there already is changed
in the base where it is, and a job that waits for it is pointed at the version in the base that it
was asked for in. So a document is put where it was addressed unless it, or a job that waits for it,
belongs to another base. Nothing is written but the row of the document and that of its job.
-/

namespace IndexingPipeline

namespace Documents

variable {ds : Documents} {workspace base id version body : String} {now : Int} {d : Document}

/-- A document is stored in a base: its row is the only one of its key, says what was written, and
points where it pointed before; and no other row was written. -/
structure Stored (before after : Documents) (workspace id version body home : String) : Prop where
  row : ∃ d, after.document? workspace id = some d ∧ d.baseId = home ∧
    Written version body (before.document? workspace id) d ∧
    d.currentChunkSetId = (before.document? workspace id).bind (·.currentChunkSetId)
  once : after.Once
  listed : ∀ base, (∃ d ∈ after.list workspace base, d.id = id) ↔ base = home
  others : ∀ workspace' id', ¬ (workspace' = workspace ∧ id' = id) →
    after.document? workspace' id' = before.document? workspace' id'

namespace Once

/-- With one row for each document a row that is there is found. -/
theorem document? (once : ds.Once) (member : d ∈ ds) :
    ds.document? d.workspaceId d.id = some d := by
  cases found : ds.document? d.workspaceId d.id with
  | none =>
    have absent := List.find?_eq_none.mp found d member
    exact absurd (isAt_iff.mpr ⟨rfl, rfl⟩) absent
  | some e =>
    have key := isAt_iff.mp (List.find?_some found)
    have same := List.inj_on_of_nodup_map once (List.mem_of_find?_eq_some found) member
      (Prod.ext key.1 key.2)
    rw [same]

theorem update (once : ds.Once) {f : Document → Document}
    (keeps : ∀ d, ((f d).workspaceId, (f d).id) = (d.workspaceId, d.id)) :
    (ds.update workspace id f).Once := by
  have keys : (ds.update workspace id f).map (fun d => (d.workspaceId, d.id)) =
      ds.map fun d => (d.workspaceId, d.id) := by
    rw [Documents.update, List.map_map]
    refine List.map_congr_left fun d _ => ?_
    simp only [Function.comp]
    split
    · exact keeps d
    · rfl
  rw [Once, keys]
  exact once

theorem append (once : ds.Once) (absent : ds.document? d.workspaceId d.id = none) :
    Once (ds ++ [d]) := by
  have apart : ∀ key ∈ ds.map (fun d => (d.workspaceId, d.id)), key ≠ (d.workspaceId, d.id) := by
    rintro key there rfl
    obtain ⟨e, member, same⟩ := List.mem_map.mp there
    obtain ⟨here, own⟩ := Prod.mk.inj same
    exact List.find?_eq_none.mp absent e member (isAt_iff.mpr ⟨here, own⟩)
  rw [Once, List.map_append]
  refine List.nodup_append.mpr ⟨once, List.nodup_singleton _, fun key there other new => ?_⟩
  rw [List.mem_singleton.mp new]
  exact apart key there

theorem put (once : ds.Once) (now : Int) (workspace base id version body : String) :
    (ds.put now workspace base id version body).Once := by
  rcases ds.put_cases now workspace base id version body with
    ⟨_, _, rewritten⟩ | ⟨missing, added⟩
  · rw [rewritten]
    exact once.update fun _ => rfl
  · rw [added]
    exact once.append missing

theorem mem_list : d ∈ ds.list workspace base ↔
    d ∈ ds ∧ d.workspaceId = workspace ∧ d.baseId = base := by
  simp [Documents.list, List.mem_mergeSort]

/-- A document is listed under its base and under no other. -/
theorem listed_iff (once : ds.Once) (found : ds.document? workspace id = some d) :
    (∃ e ∈ ds.list workspace base, e.id = id) ↔ base = d.baseId := by
  constructor
  · rintro ⟨e, listed, rfl⟩
    obtain ⟨member, rfl, rfl⟩ := mem_list.mp listed
    rw [once.document? member] at found
    rw [Option.some.inj found]
  · rintro rfl
    have key := isAt_iff.mp (List.find?_some found)
    exact ⟨d, mem_list.mpr ⟨List.mem_of_find?_eq_some found, key.1, rfl⟩, key.2⟩

end Once

/-- A document that was there stays in its base, and its index at its chunk set. -/
theorem put_place (found : (ds.put now workspace base id version body).document? workspace id =
      some d) :
    d.baseId = ((ds.document? workspace id).map (·.baseId)).getD base ∧
      d.currentChunkSetId = (ds.document? workspace id).bind (·.currentChunkSetId) := by
  rcases ds.put_cases now workspace base id version body with
    ⟨e, before, rewritten⟩ | ⟨missing, added⟩
  · rw [rewritten, document?_update (by intro d; rfl), before] at found
    obtain rfl := Option.some.inj found
    rw [before]
    exact ⟨rfl, rfl⟩
  · rw [added, document?_added, missing, Option.none_or] at found
    obtain ⟨_, new⟩ := Option.ite_none_right_eq_some.mp found
    obtain rfl := Option.some.inj new
    rw [missing]
    exact ⟨rfl, rfl⟩

/-- Where a document is stored: in its base if it was there, else in the one given. -/
theorem put_stored (once : ds.Once) (now : Int) (workspace base id version body : String) :
    Stored ds (ds.put now workspace base id version body) workspace id version body
      (((ds.document? workspace id).map (·.baseId)).getD base) := by
  obtain ⟨d, found, written⟩ := ds.document?_put now workspace base id version body
  obtain ⟨home, chunkSet⟩ := put_place found
  have once' := once.put now workspace base id version body
  refine ⟨⟨d, found, home, written, chunkSet⟩, once', fun other => ?_, fun _ _ other => ?_⟩
  · exact home ▸ once'.listed_iff found
  · have apart : ¬ (workspace = _ ∧ id = _) := fun same => other (same.imp Eq.symm Eq.symm)
    exact ds.document?_put_other apart now base version body

end Documents

namespace Queue

variable {q : Queue} {workspace base id version newId : String}

/-- A job awaits a version of a document and belongs to a base: it is the one that waited before, or
a new one when none did; and no other row was written. -/
structure Awaits (before after : Queue) (job : Job) (workspace id version errand : String) :
    Prop where
  queued : after.job? job.id = some job
  pending : job.status = .pending
  inWorkspace : job.workspaceId = workspace
  ofBase : job.baseId = errand
  ofDocument : job.documentId = id
  asksFor : job.versionId = version
  reused : (∃ j ∈ before, j.isOf workspace id = true ∧ j.status = .pending) →
    after.ids = before.ids ∧
      ∃ j ∈ before, j.isOf workspace id = true ∧ j.status = .pending ∧ job.id = j.id ∧
        job.attempts = j.attempts ∧ job.scheduledAt = j.scheduledAt ∧ job.createdAt = j.createdAt
  added : (∀ j ∈ before, j.isOf workspace id = true → j.status ≠ .pending) →
    after = before ++ [job]
  others : ∀ other, other ≠ job.id → after.job? other = before.job? other

/-- The job that comes of asking for a version belongs to the base of the one that waited, if one
did, else to the one given. -/
theorem enqueue_awaits (once : q.ids.Nodup) (fresh : newId ∉ q.ids) (now : Int)
    (workspace base id version : String) :
    Awaits q (q.enqueue now newId workspace base id version).2
      (q.enqueue now newId workspace base id version).1 workspace id version
      (((q.waiting? workspace id).map (·.baseId)).getD base) := by
  rcases q.enqueue_cases now newId workspace base id version with
    ⟨j, waits, pointed⟩ | ⟨free, added⟩
  · obtain ⟨member, here, there, pending⟩ := waiting?_spec waits
    have own : j.isOf workspace id = true := Job.isOf_iff.mpr ⟨here, there⟩
    have keeps := Job.pointedAt_id version now
    rw [pointed, waits]
    constructor
    case queued =>
      rw [keeps, job?_update keeps, job?_of_mem once member, Option.map_some]
    case pending => exact pending
    case inWorkspace => exact here
    case ofBase => rfl
    case ofDocument => exact there
    case asksFor => rfl
    case reused => exact fun _ => ⟨ids_update keeps, j, member, own, pending, rfl, rfl, rfl, rfl⟩
    case added => exact fun nothing => absurd pending (nothing j member own)
    case others => exact fun other ne => job?_update_ne keeps ne
  · rw [added, free]
    constructor
    case queued =>
      have absent : q.job? newId = none := by
        refine List.find?_eq_none.mpr fun j member same => fresh ?_
        exact List.mem_map.mpr ⟨j, member, of_decide_eq_true same⟩
      have new : (Job.asked now newId workspace base id version).id = newId := rfl
      rw [new, job?_added, absent, Option.none_or, if_pos new]
    case pending | inWorkspace | ofBase | ofDocument | asksFor => rfl
    case reused =>
      rintro ⟨j, member, own, pending⟩
      exact absurd pending (waiting?_eq_none.mp free j (mem_ofDocument.mpr ⟨member, own⟩))
    case added => exact fun _ => rfl
    case others =>
      intro other ne
      rw [job?_added, if_neg (Ne.symm ne), Option.or_none]

end Queue

namespace Database

/-- Write a document, and ask for its version at some later moment with the same words. -/
def put (db : Database) (now later : Int) (newId workspace base id version body : String) :
    Job × Database :=
  let asked := db.jobs.enqueue later newId workspace base id version
  (asked.1, { db with
    documents := db.documents.put now workspace base id version body, jobs := asked.2 })

/-- A document was put: it is stored in one base, a job that belongs to one awaits its version, and
nothing else was written. -/
structure Addressed (db after : Database) (job : Job) (workspace id version body : String)
    (home errand : String) : Prop where
  stored : db.documents.Stored after.documents workspace id version body home
  awaits : db.jobs.Awaits after.jobs job workspace id version errand
  tables : after = { db with documents := after.documents, jobs := after.jobs }

end Database

/-- In any database with one row for each document and job: a document that is put is stored in the
base where it was before, if it was there, and the job that awaits its version belongs to the base
of the one that had waited, if one had; else both are as addressed. So the put takes effect in the
base that it was addressed to just when neither the document nor the job that waits belongs to
another. -/
theorem put_addressed (db : Database) (documents : db.documents.Once) (jobs : db.jobs.ids.Nodup)
    (newId : String) (fresh : newId ∉ db.jobs.ids) (now later : Int)
    (workspace base id version body : String) :
    let done := db.put now later newId workspace base id version body
    let before := db.documents.document? workspace id
    let waits := db.jobs.waiting? workspace id
    db.Addressed done.2 done.1 workspace id version body
      ((before.map (·.baseId)).getD base) ((waits.map (·.baseId)).getD base) ∧
    (db.Addressed done.2 done.1 workspace id version body base base ↔
      (∀ d, before = some d → d.baseId = base) ∧ ∀ j, waits = some j → j.baseId = base) := by
  intro done before waits
  have stored := Documents.put_stored documents now workspace base id version body
  have awaits := Queue.enqueue_awaits jobs fresh later workspace base id version
  have addressed : db.Addressed done.2 done.1 workspace id version body
      ((before.map (·.baseId)).getD base) ((waits.map (·.baseId)).getD base) :=
    ⟨stored, awaits, rfl⟩
  refine ⟨addressed, fun effect => ?_, fun home => ?_⟩
  · obtain ⟨d, found, first, _⟩ := stored.row
    obtain ⟨e, found', second, _⟩ := effect.stored.row
    obtain rfl := Option.some.inj (found.symm.trans found')
    constructor
    · intro d there
      rw [second, show db.documents.document? workspace id = some d from there] at first
      exact first.symm
    · intro j there
      have errand := awaits.ofBase
      rw [show db.jobs.waiting? workspace id = some j from there] at errand
      exact errand.symm.trans effect.awaits.ofBase
  · have atHome : (before.map (·.baseId)).getD base = base := by
      cases there : before with
      | none => rfl
      | some d => exact home.1 d there
    have onErrand : (waits.map (·.baseId)).getD base = base := by
      cases there : waits with
      | none => rfl
      | some j => exact home.2 j there
    rw [atHome, onErrand] at addressed
    exact addressed

namespace Sample

def shelved : Database := (({} : Database).submit 1000 "j" "w" "a" "d" "v1" "one").2

def busy : Database := { shelved with jobs := (shelved.jobs.claim 1001).2 }

end Sample

/-- A version of the document is put in its own base while its job waits. -/
theorem put_addressed_sample :
    let done := Sample.shelved.put 1002 1003 "k" "w" "a" "d" "v2" "two"
    Sample.shelved.documents.Once ∧ Sample.shelved.jobs.ids.Nodup ∧
    "k" ∉ Sample.shelved.jobs.ids ∧
    Sample.shelved.Addressed done.2 done.1 "w" "d" "v2" "two" "a" "a" := by
  intro done
  have documents : Sample.shelved.documents.Once := by
    unfold Documents.Once
    decide +kernel
  have jobs : Sample.shelved.jobs.ids.Nodup := by decide +kernel
  have fresh : "k" ∉ Sample.shelved.jobs.ids := by decide +kernel
  exact ⟨documents, jobs, fresh,
    (put_addressed Sample.shelved documents jobs "k" fresh 1002 1003 "w" "a" "d" "v2" "two").1⟩

/-- It is put in another base. The document stays where it was and is not listed in the other one.
While its job waits that stays, too; when it is under way the new one belongs to the other base. -/
theorem put_astray :
    let waited := Sample.shelved.put 1002 1003 "k" "w" "b" "d" "v2" "two"
    let beside := Sample.busy.put 1002 1003 "k" "w" "b" "d" "v2" "two"
    let listed (db : Database) (base : String) :=
      (db.documents.list "w" base).map fun d => (d.id, d.versionId)
    (listed waited.2 "b" = [] ∧ listed waited.2 "a" = [("d", "v2")] ∧ waited.1.baseId = "a") ∧
    (listed beside.2 "b" = [] ∧ listed beside.2 "a" = [("d", "v2")] ∧ beside.1.baseId = "b") := by
  decide +kernel

end IndexingPipeline
