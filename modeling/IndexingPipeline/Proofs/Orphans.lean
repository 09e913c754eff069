import Mathlib.Algebra.BigOperators.Group.Finset.Basic
import Mathlib.Algebra.BigOperators.Group.Finset.Piecewise
import IndexingPipeline.Proofs.Addressing

/-!
# A sweep on its own

A sweep goes through the documents that point at a revision, and each deletion either fails, and
then changes nothing, or leaves out what that document has left behind. Collections may be shared:
the names of workspaces are flattened to make those of collections. A deletion asks for the
workspace, so that it takes nothing from a neighbour, and what it leaves behind no other deletion
takes. In all, a point goes just when it belongs to another revision than the one its document
points at, and the deletion for that document did not fail.
-/

namespace IndexingPipeline

open Finset (sum_add_distrib sum_congr sum_ite_eq')

/-- Whether a point belongs to a document, but not to the revision that it points at. -/
def Document.disowns (d : Document) (p : Point) : Bool :=
  d.currentRevisionId.any fun current =>
    (Filter.superseded d.workspaceId d.id current).accepts p.payload

theorem Document.disowns_iff {d : Document} {p : Point} :
    d.disowns p = true ↔ ∃ current, d.currentRevisionId = some current ∧
      (p.tag? "workspace_id" = some d.workspaceId ∧ p.tag? "document_id" = some d.id) ∧
        p.tag? "revision_id" ≠ some current := by
  simp only [disowns, Option.any_eq_true, Filter.accepts_superseded]

namespace Documents

variable {ds : Documents} {d : Document} {p : Point} {fails : Document → Bool}

/-- Whether a point is left behind by a document that can be cleared. -/
def isOrphan (ds : Documents) (fails : Document → Bool) (p : Point) : Bool :=
  ds.any fun d => !fails d && d.disowns p

theorem indexed_perm (ds : Documents) :
    ds.indexed.Perm (ds.filter (·.currentRevisionId.isSome)) :=
  List.mergeSort_perm _ _

theorem mem_indexed : d ∈ ds.indexed ↔ d ∈ ds ∧ d.currentRevisionId.isSome = true := by
  rw [ds.indexed_perm.mem_iff, List.mem_filter]

theorem mem_indexed_of_disowns (member : d ∈ ds) (disowned : d.disowns p = true) :
    d ∈ ds.indexed := by
  obtain ⟨current, points, -⟩ := Document.disowns_iff.mp disowned
  exact mem_indexed.mpr ⟨member, Option.isSome_iff_exists.mpr ⟨current, points⟩⟩

/-- Where every document can be cleared there are as many orphans as can be. -/
theorem isOrphan_of_clears (clears : ∀ d ∈ ds.indexed, fails d = false)
    {again : Document → Bool} (orphan : ds.isOrphan again p = true) :
    ds.isOrphan fails p = true := by
  obtain ⟨d, member, found⟩ := List.any_eq_true.mp orphan
  have disowned := (Bool.and_eq_true_iff.mp found).2
  refine List.any_eq_true.mpr ⟨d, member, ?_⟩
  rw [clears d (mem_indexed_of_disowns member disowned), disowned]
  rfl

/-- A point is left behind when the row of its document says so. -/
theorem isOrphan_iff (once : ds.Once) {workspace id revision : String}
    (isOf : p.IsOf workspace id revision) :
    ds.isOrphan fails p = true ↔
      ∃ d, ds.document? workspace id = some d ∧ fails d = false ∧
        ∃ current, d.currentRevisionId = some current ∧ current ≠ revision := by
  simp only [isOrphan, List.any_eq_true, Bool.and_eq_true, Bool.not_eq_true',
    Document.disowns_iff]
  constructor
  · rintro ⟨d, member, clears, current, points, ⟨inWorkspace, ofDocument⟩, superseded⟩
    obtain rfl := Option.some.inj (isOf.workspace.symm.trans inWorkspace)
    obtain rfl := Option.some.inj (isOf.document.symm.trans ofDocument)
    refine ⟨d, once.document? member, clears, current, points, ?_⟩
    rintro rfl
    exact superseded isOf.revision
  · rintro ⟨d, found, clears, current, points, other⟩
    obtain ⟨rfl, rfl⟩ := isAt_iff.mp (List.find?_some found)
    refine ⟨d, List.mem_of_find?_eq_some found, clears, current, points,
      ⟨isOf.workspace, isOf.document⟩, ?_⟩
    rw [isOf.revision]
    exact fun same => other (Option.some.inj same).symm

end Documents

namespace MemoryStore

variable {s : MemoryStore} {name : String} {f : Filter}

def names (s : MemoryStore) : List String := s.collections.map (·.1)

def total (s : MemoryStore) : Nat := ∑ name ∈ s.names.toFinset, (s.all name).length

/-- Each point says of which revision it is, and is in the collection of its workspace. -/
def Tagged (stem : String) (s : MemoryStore) : Prop :=
  ∀ name, ∀ p ∈ s.all name, ∃ workspace id revision,
    p.IsOf workspace id revision ∧ name = collectionName stem workspace

def failing (s : MemoryStore) (fails : Bool) : MemoryStore := { s with failDeletes := fails }

theorem collection?_of_absent (absent : name ∉ s.names) : s.collection? name = none := by
  refine List.lookup_eq_none_iff.mpr fun entry member => ?_
  have ne : entry.1 ≠ name := fun same => absent (List.mem_map.mpr ⟨entry, member, same⟩)
  simpa using ne.symm

theorem all_of_absent (absent : name ∉ s.names) : s.all name = [] := by
  rw [all, collection?_of_absent absent]
  rfl

theorem names_delete (s : MemoryStore) (name : String) (f : Filter) :
    (s.delete name f).2.names = s.names := by
  unfold delete
  split
  · rfl
  · split
    · rfl
    · rename_i c found
      have there : name ∈ s.names := by
        by_contra absent
        rw [collection?_of_absent absent] at found
        cases found
      have any : s.collections.any (·.1 = name) = true := by
        obtain ⟨entry, member, same⟩ := List.mem_map.mp there
        exact List.any_eq_true.mpr ⟨entry, member, decide_eq_true same⟩
      rw [withCollection, if_pos any, names, names, List.map_map]
      refine List.map_congr_left fun entry _ => ?_
      simp only [Function.comp]
      split <;> rfl

theorem total_congr {s t : MemoryStore} (names : s.names = t.names)
    (all : ∀ name, s.all name = t.all name) : s.total = t.total := by
  rw [total, total, names]
  exact sum_congr rfl fun name _ => by rw [all]

theorem delete_switch (s : MemoryStore) (name : String) (f : Filter) :
    (s.delete name f).2.failDeletes = s.failDeletes := by
  unfold delete withCollection
  split
  · rfl
  · split
    · rfl
    · simp only
      split <;> rfl

theorem delete_off (off : s.failDeletes = true) (name : String) (f : Filter) :
    (s.delete name f).2 = s ∧ ∃ e, (s.delete name f).1 = .error e := by
  rw [delete, if_pos off]
  exact ⟨rfl, _, rfl⟩

/-- A deletion that does not fail takes just the points that the filter accepts, and tells how many
they were. -/
theorem delete_on (on : s.failDeletes = false) (name : String) (f : Filter) :
    ∃ n, (s.delete name f).1 = .ok n ∧ n + (s.delete name f).2.total = s.total ∧
      ∀ other, (s.delete name f).2.all other = if other = name then s.others name f
        else s.all other := by
  rcases s.all_delete name f with ⟨_, failed⟩ | ⟨all, answer⟩
  · unfold delete at failed
    rw [if_neg (by simp [on])] at failed
    split at failed <;> cases failed
  · cases done : (s.delete name f).1 with
    | error e =>
      rw [done] at answer
      cases answer
    | ok n =>
      rw [done] at answer
      obtain rfl : n = (s.points name f).length := Option.some.inj answer
      refine ⟨_, rfl, ?_, all⟩
      have split : ∀ other, (s.all other).length =
          (if other = name then (s.points name f).length else 0) +
            ((s.delete name f).2.all other).length := by
        intro other
        rw [all, points_eq, others]
        split
        · rename_i here
          rw [here]
          exact List.length_eq_length_filter_add _
        · rw [Nat.zero_add]
      rw [total, total, names_delete]
      simp only [split, sum_add_distrib, sum_ite_eq']
      split_ifs with there
      · rfl
      · have nothing := all_of_absent (mt List.mem_toFinset.mpr there)
        rw [points_eq, nothing, List.filter_nil, List.length_nil]

end MemoryStore

namespace World

/-- Sweep documents in order, where deleting fails for some of them. -/
def sweepAllFailing (s : Setup) (fails : Document → Bool) (report : SweepReport) (w : World) :
    List Document → SweepReport × World
  | [] => (report, w)
  | d :: rest =>
    let (report, w) := { w with store := w.store.failing (fails d) }.sweepDocument s report d
    sweepAllFailing s fails report w rest

/-- Sweep every document that has a current revision, where deleting fails for some of them. -/
def sweepFailing (s : Setup) (fails : Document → Bool) (w : World) : SweepReport × World :=
  w.sweepAllFailing s fails ⟨0, 0, 0⟩ w.db.documents.indexed

/-- What sweeping some documents has come to since a first report. -/
structure Cleared (stem : String) (fails : Document → Bool) (ds : List Document)
    (report : SweepReport) (w : World) (report' : SweepReport) (w' : World) : Prop where
  db : w'.db = w.db
  names : w'.store.names = w.store.names
  points : ∀ name, w'.store.all name = (w.store.all name).filter fun p =>
    !ds.any fun d => decide (name = collectionName stem d.workspaceId) && !fails d && d.disowns p
  documents : report'.documents = report.documents + ds.length
  failures : report'.failures = report.failures + ds.countP fails
  deleted : report'.deleted + w'.store.total = report.deleted + w.store.total

namespace Cleared

variable {stem : String} {fails : Document → Bool} {ds ds' : List Document}
  {report report' report'' : SweepReport} {w w' w'' : World}

theorem refl (report : SweepReport) (w : World) : Cleared stem fails [] report w report w where
  db := rfl
  names := rfl
  points name := by simp
  documents := rfl
  failures := rfl
  deleted := rfl

theorem trans (first : Cleared stem fails ds report w report' w')
    (later : Cleared stem fails ds' report' w' report'' w'') :
    Cleared stem fails (ds ++ ds') report w report'' w'' where
  db := later.db.trans first.db
  names := later.names.trans first.names
  points name := by
    rw [later.points, first.points, List.filter_filter]
    refine List.filter_congr fun p _ => ?_
    rw [List.any_append, Bool.not_or, Bool.and_comm]
  documents := by rw [later.documents, first.documents, List.length_append, Nat.add_assoc]
  failures := by rw [later.failures, first.failures, List.countP_append, Nat.add_assoc]
  deleted := later.deleted.trans first.deleted

end Cleared

variable {s : Setup} {w : World} (memory : s.gateway = none)
include memory

/-- One document that points at a revision, as long as the count of what was deleted is exact. -/
theorem sweepDocument_cleared (fails : Document → Bool) {report : SweepReport} {d : Document}
    (indexed : d.currentRevisionId.isSome = true)
    (few : report.deleted + w.store.total < Number.twoTo 64) :
    let done := { w with store := w.store.failing (fails d) }.sweepDocument s report d
    Cleared s.config.store.collectionStem fails [d] report w done.1 done.2 := by
  intro done
  obtain ⟨current, points⟩ := Option.isSome_iff_exists.mp indexed
  generalize shape : done = result
  simp only [done, sweepDocument, points, deletePoints_memory memory] at shape
  have disowns : ∀ p, d.disowns p =
      (Filter.superseded d.workspaceId d.id current).accepts p.payload := by
    intro p
    rw [Document.disowns, points, Option.any_some]
  cases off : fails d with
  | true =>
    obtain ⟨same, e, failed⟩ := MemoryStore.delete_off (s := w.store.failing true) rfl
      (collectionName s.config.store.collectionStem d.workspaceId)
      (.superseded d.workspaceId d.id current)
    rw [off, failed, same] at shape
    subst shape
    constructor
    case db | names | documents | deleted => rfl
    case points =>
      intro name
      simp [off]
      rfl
    case failures => simp [off]
  | false =>
    obtain ⟨n, answer, total, all⟩ := MemoryStore.delete_on (s := w.store.failing false) rfl
      (collectionName s.config.store.collectionStem d.workspaceId)
      (.superseded d.workspaceId d.id current)
    rw [off, answer] at shape
    subst shape
    constructor
    case db | documents => rfl
    case names => exact MemoryStore.names_delete (w.store.failing false) _ _
    case points =>
      intro name
      rw [all]
      split
      · rename_i here
        subst here
        refine List.filter_congr fun p _ => ?_
        simp [off, disowns]
      · rename_i elsewhere
        simp only [List.any_cons, List.any_nil, elsewhere, decide_false, Bool.false_and,
          Bool.or_false, Bool.not_false, List.filter_true]
        rfl
    case failures => simp [off]
    case deleted =>
      have bound : report.deleted + n < Number.twoTo 64 := by
        have before : (w.store.failing false).total = w.store.total := rfl
        omega
      change wrapU64 (report.deleted + n) + _ = report.deleted + (w.store.failing false).total
      rw [wrapU64, Nat.mod_eq_of_lt bound, ← total, Nat.add_assoc]

theorem sweepAllFailing_cleared (fails : Document → Bool) (report : SweepReport)
    (ds : List Document) (indexed : ∀ d ∈ ds, d.currentRevisionId.isSome = true)
    (few : report.deleted + w.store.total < Number.twoTo 64) :
    let done := w.sweepAllFailing s fails report ds
    Cleared s.config.store.collectionStem fails ds report w done.1 done.2 := by
  induction ds generalizing report w with
  | nil => exact .refl report w
  | cons d rest ih =>
    have first := sweepDocument_cleared memory fails (indexed d List.mem_cons_self) few
    exact first.trans (ih _ (fun x later => indexed x (List.mem_cons_of_mem _ later))
      (first.deleted ▸ few))

/-- With a store that is not meddled with, either all deletions fail or none does. -/
theorem sweepAll_eq_failing (report : SweepReport) (ds : List Document) :
    w.sweepAll s report ds = w.sweepAllFailing s (fun _ => w.store.failDeletes) report ds := by
  induction ds generalizing report w with
  | nil => rfl
  | cons d rest ih =>
    have switch : (w.sweepDocument s report d).2.store.failDeletes = w.store.failDeletes := by
      refine sweepAll_preserves (I := fun v => v.store.failDeletes = w.store.failDeletes)
        (fun v name f same => ?_) report [d] rfl
      rw [deletePoints_memory memory]
      exact (v.store.delete_switch name f).trans same
    have later := ih (w := (w.sweepDocument s report d).2) (w.sweepDocument s report d).1
    rw [switch] at later
    exact later

theorem sweepFailing_cleared (tagged : w.store.Tagged s.config.store.collectionStem)
    (few : w.store.total < Number.twoTo 64) (fails : Document → Bool) :
    let done := w.sweepFailing s fails
    Cleared s.config.store.collectionStem fails w.db.documents.indexed ⟨0, 0, 0⟩ w done.1 done.2 ∧
    ∀ name, done.2.store.all name =
      (w.store.all name).filter fun p => !w.db.documents.isOrphan fails p := by
  intro done
  have cleared := sweepAllFailing_cleared memory fails ⟨0, 0, 0⟩ w.db.documents.indexed
    (fun d member => (Documents.mem_indexed.mp member).2) (by simpa using few)
  refine ⟨cleared, fun name => (cleared.points name).trans (List.filter_congr fun p member => ?_)⟩
  obtain ⟨workspace, id, revision, isOf, rfl⟩ := tagged name p member
  congr 1
  refine Bool.eq_iff_iff.mpr ?_
  simp only [Documents.isOrphan, List.any_eq_true, Bool.and_eq_true, decide_eq_true_eq]
  constructor
  · rintro ⟨d, swept, ⟨-, clears⟩, disowned⟩
    exact ⟨d, (Documents.mem_indexed.mp swept).1, clears, disowned⟩
  · rintro ⟨d, there, clears, disowned⟩
    obtain ⟨-, -, ⟨inWorkspace, -⟩, -⟩ := Document.disowns_iff.mp disowned
    refine ⟨d, Documents.mem_indexed_of_disowns there disowned, ⟨?_, clears⟩, disowned⟩
    rw [Option.some.inj (isOf.workspace.symm.trans inWorkspace)]

/-- What could be swept again has been swept when no deletion failed. -/
theorem sweepFailing_again (tagged : w.store.Tagged s.config.store.collectionStem)
    (few : w.store.total < Number.twoTo 64) {fails : Document → Bool}
    (clears : ∀ d ∈ w.db.documents.indexed, fails d = false) (again : Document → Bool) :
    let after := (w.sweepFailing s fails).2
    (after.sweepFailing s again).1.deleted = 0 ∧
      ∀ name, (after.sweepFailing s again).2.store.all name = after.store.all name := by
  intro after
  obtain ⟨cleared, points⟩ := sweepFailing_cleared memory tagged few fails
  have tagged' : after.store.Tagged s.config.store.collectionStem := by
    intro name p member
    rw [points name] at member
    exact tagged name p (List.mem_filter.mp member).1
  have few' : after.store.total < Number.twoTo 64 :=
    calc after.store.total
      _ ≤ (w.sweepFailing s fails).1.deleted + after.store.total := Nat.le_add_left _ _
      _ = w.store.total := cleared.deleted.trans (Nat.zero_add _)
      _ < Number.twoTo 64 := few
  obtain ⟨cleared', points'⟩ := sweepFailing_cleared memory tagged' few' again
  have same : ∀ name, (after.sweepFailing s again).2.store.all name = after.store.all name := by
    intro name
    rw [points' name, List.filter_eq_self]
    intro p member
    rw [points name, List.mem_filter] at member
    rw [cleared.db, Bool.not_eq_true', ← Bool.not_eq_true]
    intro orphan
    simp [Documents.isOrphan_of_clears clears orphan] at member
  refine ⟨?_, same⟩
  have deleted := cleared'.deleted.trans (Nat.zero_add _)
  rw [MemoryStore.total_congr cleared'.names same] at deleted
  exact Nat.add_eq_right.mp deleted

end World

/-- Sweep any database and any store in memory, whose points say what they belong to and are in the
collections of their workspaces, and let deleting fail for any choice of documents; the sweep of a
worker is the one where the store has made that choice for all documents. A point is left
where it was if its revision is current or its document has none that is; it is gone if another
revision is current and the deletion for the document did not fail; and if it failed, it is left.
What is told are the documents that were swept, the deletions that failed, and how many points fewer
there are. A sweep after one in which no deletion failed deletes nothing. -/
theorem sweep_exact {s : Setup} {w : World} (memory : s.gateway = none)
    (once : w.db.documents.Once) (tagged : w.store.Tagged s.config.store.collectionStem)
    (few : w.store.total < Number.twoTo 64) (fails : Document → Bool) :
    let report := (w.sweepFailing s fails).1
    let after := (w.sweepFailing s fails).2
    w.sweep s = w.sweepFailing s (fun _ => w.store.failDeletes) ∧
    after.db = w.db ∧
    (∀ name, (after.store.all name).Sublist (w.store.all name)) ∧
    (∀ name, ∀ p ∈ w.store.all name, ∀ workspace id revision, p.IsOf workspace id revision →
      (p ∉ after.store.all name ↔ ∃ d, w.db.documents.document? workspace id = some d ∧
        fails d = false ∧ ∃ current, d.currentRevisionId = some current ∧ current ≠ revision)) ∧
    report.documents = w.db.documents.indexed.length ∧
    report.failures = w.db.documents.indexed.countP fails ∧
    report.deleted + after.store.total = w.store.total ∧
    ((∀ d ∈ w.db.documents.indexed, fails d = false) → ∀ again,
      (after.sweepFailing s again).1.deleted = 0 ∧
        ∀ name, (after.sweepFailing s again).2.store.all name = after.store.all name) := by
  intro report after
  obtain ⟨cleared, points⟩ := World.sweepFailing_cleared memory tagged few fails
  refine ⟨World.sweepAll_eq_failing memory _ _, cleared.db, fun name => ?_,
    fun name p member workspace id revision isOf => ?_, ?_, ?_, ?_,
    World.sweepFailing_again memory tagged few⟩
  · rw [points name]
    exact List.filter_sublist
  · rw [points name, List.mem_filter, ← Documents.isOrphan_iff once isOf]
    simp [member]
  · exact cleared.documents.trans (Nat.zero_add _)
  · exact cleared.failures.trans (Nat.zero_add _)
  · exact cleared.deleted.trans (Nat.zero_add _)

namespace Sample

def pointOf (id workspace document revision : String) : Point where
  id := id
  vector := []
  payload := [("document_id", .text document), ("revision_id", .text revision),
    ("workspace_id", .text workspace)]

def pointing (workspace id : String) (currentRevisionId : Option String) : Document :=
  { (Document.added 1000 workspace "b" id "v1" "one") with currentRevisionId }

/-- Two workspaces in one collection. In each document `d` is current at another revision; the
points of `e` cannot be deleted, and `f` has no current revision. -/
def flattened : World := { World.initial 1000 [] {} with
  db := { documents := [pointing "a.b" "d" (some "r2"), pointing "a_b" "d" (some "r1"),
    pointing "a_b" "e" (some "r2"), pointing "a.b" "f" none] }
  store := { collections := [(collectionName "kb" "a.b", ⟨0,
    [pointOf "p1" "a.b" "d" "r1", pointOf "p2" "a.b" "d" "r2", pointOf "p3" "a_b" "d" "r1",
      pointOf "p4" "a_b" "e" "r1", pointOf "p5" "a.b" "f" "r1"]⟩)] } }

theorem pointOf_isOf (id workspace document revision : String) :
    (pointOf id workspace document revision).IsOf workspace document revision :=
  ⟨rfl, rfl, rfl⟩

theorem flattened_tagged : flattened.store.Tagged "kb" := by
  intro name p member
  have here : name ∈ flattened.store.names := by
    by_contra absent
    rw [MemoryStore.all_of_absent absent] at member
    cases member
  obtain rfl := List.mem_singleton.mp here
  have all : flattened.store.all (collectionName "kb" "a.b") =
    [pointOf "p1" "a.b" "d" "r1", pointOf "p2" "a.b" "d" "r2", pointOf "p3" "a_b" "d" "r1",
      pointOf "p4" "a_b" "e" "r1", pointOf "p5" "a.b" "f" "r1"] := rfl
  rw [all] at member
  have one : collectionName "kb" "a.b" = collectionName "kb" "a_b" := by decide +kernel
  simp only [List.mem_cons, List.not_mem_nil, or_false] at member
  rcases member with rfl | rfl | rfl | rfl | rfl
  · exact ⟨_, _, _, pointOf_isOf _ _ _ _, rfl⟩
  · exact ⟨_, _, _, pointOf_isOf _ _ _ _, rfl⟩
  · exact ⟨_, _, _, pointOf_isOf _ _ _ _, one⟩
  · exact ⟨_, _, _, pointOf_isOf _ _ _ _, one⟩
  · exact ⟨_, _, _, pointOf_isOf _ _ _ _, rfl⟩

end Sample

/-- One point is left behind and can be deleted. Its neighbour of the same document identifier and
revision, in the same collection, stays. -/
theorem sweep_exact_sample :
    let name := collectionName "kb" "a.b"
    let done := Sample.flattened.sweepFailing Sample.setup (·.id = "e")
    Sample.pointOf "p1" "a.b" "d" "r1" ∉ done.2.store.all name ∧
    Sample.pointOf "p3" "a_b" "d" "r1" ∈ done.2.store.all name ∧
    Sample.pointOf "p4" "a_b" "e" "r1" ∈ done.2.store.all name ∧
    Sample.pointOf "p5" "a.b" "f" "r1" ∈ done.2.store.all name ∧
    done.1.documents = 3 ∧ done.1.failures = 1 ∧ done.1.deleted + done.2.store.total = 5 := by
  intro name done
  have once : Sample.flattened.db.documents.Once := by
    unfold Documents.Once
    decide +kernel
  obtain ⟨-, -, -, points, documents, failures, deleted, -⟩ :=
    sweep_exact (s := Sample.setup) rfl once Sample.flattened_tagged (by decide +kernel)
      (·.id = "e")
  have gone := fun id workspace document revision member =>
    points name (Sample.pointOf id workspace document revision) member workspace document revision
      (Sample.pointOf_isOf id workspace document revision)
  have perm := Sample.flattened.db.documents.indexed_perm
  refine ⟨?_, ?_, ?_, ?_, documents.trans (perm.length_eq.trans (by decide)),
    failures.trans ((perm.countP_eq _).trans (by decide)), deleted.trans (by decide +kernel)⟩
  · exact (gone "p1" "a.b" "d" "r1" (.head _)).mpr
      ⟨Sample.pointing "a.b" "d" (some "r2"), rfl, rfl, "r2", rfl, by decide⟩
  · by_contra left
    obtain ⟨d, found, -, current, points, other⟩ := (gone "p3" "a_b" "d" "r1"
      (.tail _ (.tail _ (.head _)))).mp left
    obtain rfl : Sample.pointing "a_b" "d" (some "r1") = d := Option.some.inj found
    exact other (Option.some.inj points).symm
  · by_contra left
    obtain ⟨d, found, clears, -⟩ := (gone "p4" "a_b" "e" "r1"
      (.tail _ (.tail _ (.tail _ (.head _))))).mp left
    obtain rfl : Sample.pointing "a_b" "e" (some "r2") = d := Option.some.inj found
    exact absurd clears (by decide)
  · by_contra left
    obtain ⟨d, found, -, current, points, -⟩ := (gone "p5" "a.b" "f" "r1"
      (.tail _ (.tail _ (.tail _ (.tail _ (.head _)))))).mp left
    obtain rfl : Sample.pointing "a.b" "f" none = d := Option.some.inj found
    cases points

end IndexingPipeline
