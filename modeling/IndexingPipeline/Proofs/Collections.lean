import Mathlib.Data.List.Nodup
import IndexingPipeline.Proofs.Points

/-!
# A store in memory, request by request

Whatever a store in memory has been asked for, each of its collections keeps the size that it was
made for, and every point in it has a vector of that size and an identifier of its own. A request
that fails changes nothing. A batch is written whole: each identifier in it comes to stand for the
last point of the batch that has it, and every other point stays. A deletion takes just what its
filter accepts, and tells as many points as counting them would have told before.
-/

namespace IndexingPipeline

/-- What a store in memory can be asked for; failures of it are switched on and off. -/
inductive StoreRequest where
  | ensure (name : String) (size : Nat)
  | upsert (name : String) (batch : List Point)
  | delete (name : String) (f : Filter)
  | count (name : String) (f : Filter)
  | failWrites (on : Bool)
  | failDeletes (on : Bool)

namespace Collection

def point? (c : Collection) (id : String) : Option Point := c.points.find? (·.id = id)

/-- Every point has an identifier of its own, and as many components as the collection was made
for. -/
structure Sound (c : Collection) : Prop where
  once : (c.points.map (·.id)).Nodup
  sized : ∀ p ∈ c.points, p.vector.length = c.size

theorem find?_putPoint (p : Point) (points : List Point) (id : String) :
    (putPoint p points).find? (·.id = id) =
      if p.id = id then some p else points.find? (·.id = id) := by
  induction points with
  | nil => by_cases asked : p.id = id <;> simp [putPoint, asked]
  | cons q rest ih =>
    rw [putPoint]
    by_cases replaced : q.id = p.id
    · rw [if_pos replaced, List.find?_cons, List.find?_cons, replaced]
      by_cases asked : p.id = id <;> simp [asked]
    · rw [if_neg replaced, List.find?_cons, List.find?_cons, ih]
      by_cases asked : q.id = id
      · have other : p.id ≠ id := fun same => replaced (asked.trans same.symm)
        simp [asked, other]
      · simp [asked]

/-- The last point of a batch holds, and what was there before if there is none. -/
theorem point?_putAll (c : Collection) (batch : List Point) (id : String) :
    (c.putAll batch).point? id = (batch.reverse.find? (·.id = id)).or (c.point? id) := by
  unfold putAll point?
  generalize c.points = points
  induction batch generalizing points with
  | nil => rfl
  | cons p rest ih =>
    refine (ih _).trans ?_
    rw [find?_putPoint, List.reverse_cons, List.find?_append, Option.or_assoc]
    by_cases asked : p.id = id <;> simp [asked]

theorem mem_ids_putPoint {p : Point} {points : List Point} {id : String} :
    id ∈ (putPoint p points).map (·.id) ↔ id = p.id ∨ id ∈ points.map (·.id) := by
  induction points with
  | nil => simp [putPoint]
  | cons q rest ih =>
    rw [putPoint]
    split_ifs with replaced
    · simp only [List.map_cons, List.mem_cons, replaced, ← or_assoc, or_self]
    · simp only [List.map_cons, List.mem_cons, ih, or_left_comm]

namespace Sound

variable {c : Collection} (h : c.Sound)
include h

theorem putPoint {p : Point} (fits : p.vector.length = c.size) :
    Sound { c with points := Collection.putPoint p c.points } := by
  obtain ⟨size, points⟩ := c
  obtain ⟨once, sized⟩ := h
  simp only at once sized fits ⊢
  induction points with
  | nil => exact ⟨List.nodup_singleton _, by simpa [Collection.putPoint] using fits⟩
  | cons q rest ih =>
    obtain ⟨first, others⟩ := List.nodup_cons.mp once
    obtain ⟨own, later⟩ := List.forall_mem_cons.mp sized
    rw [Collection.putPoint]
    split_ifs with replaced
    · refine ⟨List.nodup_cons.mpr ⟨?_, others⟩, List.forall_mem_cons.mpr ⟨fits, later⟩⟩
      simpa only [replaced] using first
    · obtain ⟨once, sized⟩ := ih others later
      refine ⟨List.nodup_cons.mpr ⟨?_, once⟩, List.forall_mem_cons.mpr ⟨own, sized⟩⟩
      intro member
      exact (mem_ids_putPoint.mp member).elim replaced first

theorem putAll {batch : List Point} (fits : ∀ p ∈ batch, p.vector.length = c.size) :
    (c.putAll batch).Sound := by
  induction batch generalizing c with
  | nil => exact h
  | cons p rest ih =>
    obtain ⟨first, later⟩ := List.forall_mem_cons.mp fits
    exact ih (h.putPoint first) later

theorem without (f : Filter) : (c.without f).Sound where
  once := h.once.sublist (List.filter_sublist.map _)
  sized := fun p member => h.sized p ((List.mem_filter.mp member).1)

end Sound

end Collection

namespace MemoryStore

def point? (s : MemoryStore) (name id : String) : Option Point :=
  (s.collection? name).bind (·.point? id)

/-- One request: its answer, which may be a number, and the store after it. -/
def serve (s : MemoryStore) : StoreRequest → Except StoreError (Option Nat) × MemoryStore
  | .ensure name size => ((s.ensure name size).1.map fun _ => none, (s.ensure name size).2)
  | .upsert name batch => ((s.write name batch).1.map fun _ => none, (s.write name batch).2)
  | .delete name f => ((s.delete name f).1.map some, (s.delete name f).2)
  | .count name f => (.ok (some (s.count name f)), s)
  | .failWrites on => (.ok none, { s with failWrites := on })
  | .failDeletes on => (.ok none, { s with failDeletes := on })

def serveAll (s : MemoryStore) (rs : List StoreRequest) : MemoryStore :=
  rs.foldl (fun s r => (s.serve r).2) s

/-- All that a request can come to. -/
inductive Serves (s : MemoryStore) :
    StoreRequest → Except StoreError (Option Nat) → MemoryStore → Prop
  | found {name : String} {c : Collection} : s.collection? name = some c →
      Serves s (.ensure name c.size) (.ok none) s
  | clashed {name : String} {size : Nat} {c : Collection} : s.collection? name = some c →
      size ≠ c.size → Serves s (.ensure name size) (.error (.wrongSize name size c.size)) s
  | made {name : String} {size : Nat} : s.collection? name = none →
      Serves s (.ensure name size) (.ok none) (s.withCollection name ⟨size, []⟩)
  | written {name : String} {batch : List Point} {c : Collection} : s.failWrites = false →
      s.collection? name = some c → (∀ p ∈ batch, p.vector.length = c.size) →
      Serves s (.upsert name batch) (.ok none) (s.withCollection name (c.putAll batch))
  | unwritten {name : String} {batch : List Point} (e : StoreError) :
      (s.failWrites = false → ∀ c, s.collection? name = some c →
        ∃ p ∈ batch, p.vector.length ≠ c.size) →
      Serves s (.upsert name batch) (.error e) s
  | deleted {name : String} {f : Filter} {c : Collection} : s.failDeletes = false →
      s.collection? name = some c →
      Serves s (.delete name f) (.ok (some (c.matching f).length))
        (s.withCollection name (c.without f))
  | absent {name : String} {f : Filter} : s.failDeletes = false → s.collection? name = none →
      Serves s (.delete name f) (.ok (some 0)) s
  | undeleted {name : String} {f : Filter} (e : StoreError) : s.failDeletes = true →
      Serves s (.delete name f) (.error e) s
  | counted {name : String} {f : Filter} :
      Serves s (.count name f) (.ok (some (s.count name f))) s
  | switchedWrites {on : Bool} :
      Serves s (.failWrites on) (.ok none) { s with failWrites := on }
  | switchedDeletes {on : Bool} :
      Serves s (.failDeletes on) (.ok none) { s with failDeletes := on }

theorem serve_serves (s : MemoryStore) (r : StoreRequest) :
    Serves s r (s.serve r).1 (s.serve r).2 := by
  cases r with
  | ensure name size =>
    simp only [serve, ensure, checkSize]
    cases there : s.collection? name with
    | none => exact .made there
    | some c =>
      simp only
      split_ifs with same
      · subst same
        exact .found there
      · exact .clashed there same
  | upsert name batch =>
    simp only [serve, write]
    split_ifs with off
    · exact .unwritten _ fun on => absurd off (by simp [on])
    · have on : s.failWrites = false := by simpa using off
      cases there : s.collection? name with
      | none =>
        refine .unwritten _ fun _ c found => ?_
        rw [there] at found
        cases found
      | some c =>
        simp only
        cases bad : batch.find? fun p => p.vector.length ≠ c.size with
        | none =>
          refine .written on there fun p member => ?_
          simpa using List.find?_eq_none.mp bad p member
        | some p =>
          refine .unwritten _ fun _ d found => ?_
          obtain rfl := Option.some.inj (there.symm.trans found)
          exact ⟨p, List.mem_of_find?_eq_some bad, by simpa using List.find?_some bad⟩
  | delete name f =>
    simp only [serve, delete]
    split_ifs with off
    · exact .undeleted _ off
    · have on : s.failDeletes = false := by simpa using off
      cases there : s.collection? name with
      | none => exact .absent on there
      | some c => exact .deleted on there
  | count name f => exact .counted
  | failWrites on => exact .switchedWrites
  | failDeletes on => exact .switchedDeletes

def Sound (s : MemoryStore) : Prop := ∀ name c, s.collection? name = some c → c.Sound

variable {s t : MemoryStore} {r : StoreRequest} {answer : Except StoreError (Option Nat)}

theorem Sound.withCollection (h : s.Sound) (name : String) {c : Collection} (sound : c.Sound) :
    (s.withCollection name c).Sound := by
  intro other d found
  rw [collection?_with] at found
  split_ifs at found
  · exact Option.some.inj found ▸ sound
  · exact h other d found

/-- A collection that is replaced by one of its size keeps its size, like all others. -/
theorem size?_with {name other : String} {c d : Collection} {size : Nat}
    (there : s.collection? name = some c) (same : d.size = c.size)
    (sized : s.size? other = some size) : (s.withCollection name d).size? other = some size := by
  unfold size? at sized ⊢
  rw [collection?_with]
  split_ifs with here
  · rw [here, there] at sized
    rw [← sized, Option.map_some, Option.map_some, same]
  · exact sized

namespace Serves

/-- A request that fails changes nothing. -/
theorem of_error {e : StoreError} (m : Serves s r (.error e) t) : t = s := by
  cases m <;> rfl

theorem sound (m : Serves s r answer t) (h : s.Sound) : t.Sound := by
  cases m with
  | made absent => exact h.withCollection _ ⟨List.nodup_nil, fun _ member => by cases member⟩
  | written on there fits => exact h.withCollection _ ((h _ _ there).putAll fits)
  | deleted on there => exact h.withCollection _ ((h _ _ there).without _)
  | _ => exact h

theorem size (m : Serves s r answer t) {name : String} {size : Nat}
    (sized : s.size? name = some size) : t.size? name = some size := by
  cases m with
  | made absent =>
    unfold size? at sized ⊢
    rw [collection?_with]
    split_ifs with here
    · rw [here, absent] at sized
      cases sized
    · exact sized
  | written on there fits => exact size?_with there rfl sized
  | deleted on there => exact size?_with there rfl sized
  | _ => exact sized

end Serves

theorem serveAll_sound (h : s.Sound) (rs : List StoreRequest) : (s.serveAll rs).Sound := by
  induction rs generalizing s with
  | nil => exact h
  | cons r rest ih => exact ih ((s.serve_serves r).sound h)

theorem serveAll_size {name : String} {size : Nat} (sized : s.size? name = some size)
    (rs : List StoreRequest) : (s.serveAll rs).size? name = some size := by
  induction rs generalizing s with
  | nil => exact sized
  | cons r rest ih => exact ih ((s.serve_serves r).size sized)

/-- A batch is written where its collection is there and each of its points fits. -/
theorem write_spec {name : String} {batch : List Point}
    (written : (s.write name batch).1 = .ok ()) :
    s.failWrites = false ∧ ∃ c, s.collection? name = some c ∧
      (∀ p ∈ batch, p.vector.length = c.size) ∧
      (s.write name batch).2 = s.withCollection name (c.putAll batch) := by
  have m := s.serve_serves (.upsert name batch)
  simp only [serve, written, Except.map] at m
  generalize (s.write name batch).2 = t at m ⊢
  cases m with
  | written on there fits => exact ⟨on, _, there, fits, rfl⟩

theorem write_isOk {name : String} {batch : List Point} :
    (s.write name batch).1 = .ok () ↔ s.failWrites = false ∧
      ∃ size, s.size? name = some size ∧ ∀ p ∈ batch, p.vector.length = size := by
  constructor
  · intro written
    obtain ⟨on, c, there, fits, _⟩ := write_spec written
    exact ⟨on, c.size, by rw [size?, there]; rfl, fits⟩
  · rintro ⟨on, size, sized, fits⟩
    obtain ⟨c, there, rfl⟩ := Option.map_eq_some_iff.mp sized
    have m := s.serve_serves (.upsert name batch)
    cases answer : (s.write name batch).1 with
    | ok => rfl
    | error e =>
      simp only [serve, answer, Except.map] at m
      generalize (s.write name batch).2 = t at m
      cases m with
      | unwritten _ misfit =>
        obtain ⟨p, member, other⟩ := misfit on c there
        exact absurd (fits p member) other

/-- After a batch is written an identifier stands for the last point of the batch that has it, and
otherwise for what it stood for before. -/
theorem point?_write {name : String} {batch : List Point}
    (written : (s.write name batch).1 = .ok ()) (id : String) :
    (s.write name batch).2.point? name id =
      (batch.reverse.find? (·.id = id)).or (s.point? name id) := by
  obtain ⟨_, c, there, _, after⟩ := write_spec written
  rw [after, point?, point?, collection?_with, if_pos rfl, there]
  exact c.point?_putAll batch id

theorem collection?_write {name other : String} {batch : List Point}
    (written : (s.write name batch).1 = .ok ()) (ne : other ≠ name) :
    (s.write name batch).2.collection? other = s.collection? other := by
  obtain ⟨_, c, _, _, after⟩ := write_spec written
  rw [after, collection?_with, if_neg ne]

/-- A deletion that does not fail leaves just what its filter does not accept, and nothing else of
the store changes. -/
theorem delete_spec {name : String} {f : Filter} {n : Nat} (deleted : (s.delete name f).1 = .ok n) :
    n = s.count name f ∧ (s.delete name f).2.all name = s.others name f ∧
      ∀ other, other ≠ name → (s.delete name f).2.collection? other = s.collection? other := by
  have m := s.serve_serves (.delete name f)
  simp only [serve, deleted, Except.map] at m
  generalize (s.delete name f).2 = t at m ⊢
  unfold count points others all
  cases m with
  | deleted _ there =>
    refine ⟨by rw [there]; rfl, ?_, fun other ne => ?_⟩
    · rw [collection?_with, if_pos rfl, there]
      rfl
    · rw [collection?_with, if_neg ne]
  | absent _ there =>
    rw [there]
    exact ⟨rfl, rfl, fun _ _ => rfl⟩

end MemoryStore

/-- Whatever a store in memory has been asked for, from an empty one on: each collection has points
of its size with identifiers of their own, and keeps its size; a request that fails changes
nothing; a batch is written if and only if each of its points fits, and then every identifier in it
stands for the last point of the batch that has it, while all else is as before; and a deletion
tells how many points its filter accepts, leaves none of these, and every other point. -/
theorem store_all_or_nothing (requests : List StoreRequest) :
    let s := ({} : MemoryStore).serveAll requests
    (∀ name c, s.collection? name = some c →
      (∀ p ∈ c.points, p.vector.length = c.size) ∧ (c.points.map (·.id)).Nodup ∧
      ∀ later, (s.serveAll later).size? name = some c.size) ∧
    (∀ r e, (s.serve r).1 = .error e → (s.serve r).2 = s) ∧
    (∀ name batch,
      ((s.write name batch).1 = .ok () ↔ s.failWrites = false ∧
        ∃ size, s.size? name = some size ∧ ∀ p ∈ batch, p.vector.length = size) ∧
      ((s.write name batch).1 = .ok () →
        (∀ id, (s.write name batch).2.point? name id =
          (batch.reverse.find? (·.id = id)).or (s.point? name id)) ∧
        ∀ other, other ≠ name →
          (s.write name batch).2.collection? other = s.collection? other)) ∧
    ∀ name f n, (s.delete name f).1 = .ok n →
      n = s.count name f ∧ (s.delete name f).2.count name f = 0 ∧
      (∀ p, f.accepts p.payload = false →
        (p ∈ (s.delete name f).2.all name ↔ p ∈ s.all name)) ∧
      ∀ other, other ≠ name → (s.delete name f).2.collection? other = s.collection? other := by
  intro s
  have empty : ({} : MemoryStore).Sound := fun _ _ found => by cases found
  have sound : s.Sound := MemoryStore.serveAll_sound empty requests
  refine ⟨?_, ?_, ?_, ?_⟩
  · intro name c there
    refine ⟨(sound name c there).sized, (sound name c there).once, ?_⟩
    exact MemoryStore.serveAll_size (by rw [MemoryStore.size?, there]; rfl)
  · intro r e failed
    exact (failed ▸ s.serve_serves r).of_error
  · intro name batch
    refine ⟨MemoryStore.write_isOk, fun written => ⟨MemoryStore.point?_write written, ?_⟩⟩
    exact fun other ne => MemoryStore.collection?_write written ne
  · intro name f n deleted
    obtain ⟨told, left, elsewhere⟩ := MemoryStore.delete_spec deleted
    refine ⟨told, ?_, fun p rejected => ?_, elsewhere⟩
    · rw [MemoryStore.count, MemoryStore.points_eq, left, MemoryStore.others, List.filter_filter]
      simp
    · rw [left, MemoryStore.others, List.mem_filter, rejected]
      exact and_iff_left rfl

namespace Sample

def single (id document revision : String) : Point where
  id := id
  vector := [1]
  payload := [("document_id", .text document), ("revision_id", .text revision)]

def ofFirst : Filter := ⟨[("document_id", "d")], []⟩

/-- Points of two documents are written, a collection of the same name and another size is asked
for, and a deletion fails. -/
def filled : List StoreRequest :=
  [.ensure "c" 1, .upsert "c" [single "x" "d" "r", single "y" "e" "r"], .ensure "c" 2,
    .failDeletes true, .delete "c" ofFirst, .failDeletes false]

def doubled : List Point := [single "x" "d" "r1", single "x" "d" "r2"]

def uneven : List Point := [single "z" "d" "r", { single "x" "d" "r" with vector := [] }]

end Sample

theorem store_all_or_nothing_sample :
    let s := ({} : MemoryStore).serveAll Sample.filled
    s.size? "c" = some 1 ∧
      (s.serve (.upsert "c" Sample.uneven)).2 = s ∧
      (s.write "c" Sample.doubled).1 = .ok () ∧
      ((s.write "c" Sample.doubled).2.point? "c" "x").bind (·.tag? "revision_id") = some "r2" ∧
      ((s.write "c" Sample.doubled).2.point? "c" "y").bind (·.tag? "revision_id") = some "r" ∧
      (s.delete "c" Sample.ofFirst).1 = .ok 1 ∧
      (s.delete "c" Sample.ofFirst).2.count "c" Sample.ofFirst = 0 := by
  intro s
  obtain ⟨_, failed, writes, deletes⟩ := store_all_or_nothing Sample.filled
  obtain ⟨fits, written⟩ := writes "c" Sample.doubled
  have done := fits.mpr ⟨by decide +kernel, 1, by decide +kernel, by decide +kernel⟩
  have points := (written done).1
  have deleted : (s.delete "c" Sample.ofFirst).1 = .ok 1 := by decide +kernel
  refine ⟨by decide +kernel, failed _ (.wrongSize "c" 1 0) (by decide +kernel), done, ?_, ?_,
    deleted, (deletes "c" _ 1 deleted).2.1⟩
  · rw [points]
    decide +kernel
  · rw [points]
    decide +kernel

end IndexingPipeline
