import IndexingPipeline.Proofs.Frame

/-!
# Points and where they are kept

A point that was built for a chunk says which workspace, document and revision it belongs to,
whatever the fields of a schema were rendered to, since the names that identify a chunk are
written last. Of a store in memory only the points of each collection matter here: making a
collection changes none of them, a batch of points with identifiers of their own comes to stand
behind the others, and deleting leaves out just the points that the filter accepts. A run changes
points by two moves alone: the one that writes its batch, and the one that cleans up behind it.
-/

namespace IndexingPipeline

namespace Json

theorem lookup_insertMember_self (name : String) (v : α) (ms : List (String × α)) :
    (insertMember name v ms).lookup name = some v := by
  induction ms with
  | nil => simp [insertMember]
  | cons m rest ih =>
    obtain ⟨other, w⟩ := m
    unfold insertMember
    by_cases before : name < other
    · simp [before]
    · by_cases same : name = other
      · simp [same]
      · have differ : (name == other) = false := by simpa using same
        rw [if_neg before, if_neg same]
        simp [List.lookup_cons, differ, ih]

theorem lookup_insertMember_ne {name other : String} (ne : other ≠ name) (v : α)
    (ms : List (String × α)) : (insertMember name v ms).lookup other = ms.lookup other := by
  have differ : (other == name) = false := by simpa using ne
  induction ms with
  | nil => simp [insertMember, List.lookup_cons, differ]
  | cons m rest ih =>
    obtain ⟨third, w⟩ := m
    unfold insertMember
    by_cases before : name < third
    · simp [before, List.lookup_cons, differ]
    · by_cases same : name = third
      · subst same
        simp [List.lookup_cons, differ]
      · rw [if_neg before, if_neg same]
        simp only [List.lookup_cons]
        split
        · rfl
        · exact ih

end Json

def Point.tag? (p : Point) (name : String) : Option String :=
  (p.payload.lookup name).bind Json.Value.text?

/-- A point of a revision of a document. -/
structure Point.IsOf (p : Point) (workspace document revision : String) : Prop where
  workspace : p.tag? "workspace_id" = some workspace
  document : p.tag? "document_id" = some document
  revision : p.tag? "revision_id" = some revision

namespace Filter

def ofDocument (workspace document : String) : Filter :=
  { demanded := [("workspace_id", workspace), ("document_id", document)], forbidden := [] }

def ofRevision (workspace document revision : String) : Filter :=
  { demanded :=
      [("workspace_id", workspace), ("document_id", document), ("revision_id", revision)]
    forbidden := [] }

theorem accepts_ofDocument {workspace document : String} {p : Point} :
    (ofDocument workspace document).accepts p.payload = true ↔
      p.tag? "workspace_id" = some workspace ∧ p.tag? "document_id" = some document := by
  simp [accepts, ofDocument, holdsIn, Point.tag?]

theorem accepts_ofRevision {workspace document revision : String} {p : Point} :
    (ofRevision workspace document revision).accepts p.payload = true ↔
      p.IsOf workspace document revision := by
  simp only [accepts, ofRevision, holdsIn, List.all_cons, List.all_nil, List.any_nil,
    Bool.and_true, Bool.not_false, Bool.and_eq_true, beq_iff_eq]
  constructor
  · rintro ⟨workspace, document, revision⟩
    exact ⟨workspace, document, revision⟩
  · rintro ⟨workspace, document, revision⟩
    exact ⟨workspace, document, revision⟩

theorem accepts_superseded {workspace document revision : String} {p : Point} :
    (superseded workspace document revision).accepts p.payload = true ↔
      (p.tag? "workspace_id" = some workspace ∧ p.tag? "document_id" = some document) ∧
        p.tag? "revision_id" ≠ some revision := by
  simp [accepts, superseded, holdsIn, Point.tag?]

end Filter

namespace Payload

/-- The last member of a name that is put in holds, and what was there before if there is none. -/
theorem lookup_putAll (payload : Payload) (members : List (String × Json.Value)) (name : String) :
    (putAll payload members).lookup name =
      (members.reverse.lookup name).or (payload.lookup name) := by
  induction members generalizing payload with
  | nil => rfl
  | cons m rest ih =>
    obtain ⟨other, v⟩ := m
    refine (ih _).trans ?_
    rw [List.reverse_cons, List.lookup_append, Option.or_assoc]
    congr 1
    by_cases same : name = other
    · subst same
      simp [put, Json.lookup_insertMember_self]
    · have differ : (name == other) = false := by simpa using same
      simp [put, Json.lookup_insertMember_ne same, List.lookup_cons, differ]

/-- The names that identify a chunk hold, whatever was there before them. -/
theorem lookup_identity (payload : Payload) (scope : PointScope) (chunk : Chunk) :
    (putAll payload (identity scope chunk)).lookup "workspace_id" =
        some (.text scope.workspaceId) ∧
      (putAll payload (identity scope chunk)).lookup "document_id" =
        some (.text scope.documentId) ∧
      (putAll payload (identity scope chunk)).lookup "revision_id" =
        some (.text scope.revisionId) := by
  simp only [lookup_putAll]
  exact ⟨rfl, rfl, rfl⟩

theorem build_ends {render : SchemaField → Except PayloadError String}
    {fields : List SchemaField} {scope : PointScope} {chunk : Chunk} {payload : Payload}
    (built : build render fields scope chunk = .ok payload) :
    ∃ before, payload = putAll before (identity scope chunk) := by
  cases fields with
  | nil => exact ⟨_, (Except.ok.inj built).symm⟩
  | cons f rest =>
    simp only [build] at built
    cases rendered : renderedFields render (f :: rest) with
    | error e => rw [rendered] at built; cases built
    | ok members =>
      rw [rendered] at built
      exact ⟨_, (Except.ok.inj built).symm⟩

end Payload

namespace Point

theorem build_isOf {render : SchemaField → Except PayloadError String}
    {fields : List SchemaField} {scope : PointScope} {chunk : Chunk} {vector : Vector32}
    {p : Point} (built : build render fields scope chunk vector = .ok p) :
    p.id = chunk.vectorId ∧ p.vector = vector ∧
      p.IsOf scope.workspaceId scope.documentId scope.revisionId := by
  unfold build at built
  cases payload : Payload.build render fields scope chunk with
  | error e => rw [payload] at built; cases built
  | ok members =>
    rw [payload] at built
    obtain rfl := (Except.ok.inj built).symm
    obtain ⟨before, rfl⟩ := Payload.build_ends payload
    obtain ⟨workspace, document, revision⟩ := Payload.lookup_identity before scope chunk
    refine ⟨rfl, rfl, ?_, ?_, ?_⟩
    · simp [tag?, workspace, Json.Value.text?]
    · simp [tag?, document, Json.Value.text?]
    · simp [tag?, revision, Json.Value.text?]

/-- One point for each chunk and its vector, in order, and all of one revision. -/
theorem buildAll_spec {templates : FieldTemplates} {fields : List SchemaField}
    {scope : PointScope} {pairs : List (Chunk × Vector32)} {batch : List Point}
    (built : buildAll templates fields scope pairs = .ok batch) :
    batch.map (·.id) = pairs.map (·.1.vectorId) ∧ batch.map (·.vector) = pairs.map (·.2) ∧
      ∀ p ∈ batch, p.IsOf scope.workspaceId scope.documentId scope.revisionId := by
  induction pairs generalizing batch with
  | nil =>
    obtain rfl := (Except.ok.inj built).symm
    simp
  | cons pair rest ih =>
    obtain ⟨chunk, vector⟩ := pair
    simp only [buildAll] at built
    cases first : build (templates.render scope chunk) fields scope chunk vector with
    | error e => rw [first] at built; cases built
    | ok p =>
      cases others : buildAll templates fields scope rest with
      | error e => rw [first, others] at built; cases built
      | ok ps =>
        rw [first, others] at built
        obtain rfl := (Except.ok.inj built).symm
        obtain ⟨id, same, isOf⟩ := build_isOf first
        obtain ⟨ids, vectors, allOf⟩ := ih others
        refine ⟨by simp [id, ids], by simp [same, vectors], ?_⟩
        intro q member
        rcases List.mem_cons.mp member with rfl | later
        · exact isOf
        · exact allOf q later

end Point

namespace Collection

theorem putPoint_fresh {p : Point} {points : List Point} (fresh : ∀ q ∈ points, q.id ≠ p.id) :
    putPoint p points = points ++ [p] := by
  induction points with
  | nil => rfl
  | cons q rest ih =>
    rw [putPoint, if_neg (fresh q List.mem_cons_self),
      ih fun q later => fresh q (List.mem_cons_of_mem _ later), List.cons_append]

/-- Points with identifiers of their own come to stand behind the others. -/
theorem putAll_fresh {batch : List Point} (once : (batch.map (·.id)).Nodup)
    {points : List Point} (fresh : ∀ p ∈ batch, ∀ q ∈ points, q.id ≠ p.id) :
    batch.foldl (fun points p => putPoint p points) points = points ++ batch := by
  induction batch generalizing points with
  | nil => simp
  | cons p rest ih =>
    simp only [List.map_cons, List.nodup_cons] at once
    rw [List.foldl_cons, putPoint_fresh (fresh p List.mem_cons_self), ih once.2 ?_,
      List.append_assoc, List.singleton_append]
    intro q later x member same
    rcases List.mem_append.mp member with old | new
    · exact fresh q (List.mem_cons_of_mem _ later) x old same
    · rw [List.mem_singleton.mp new] at same
      exact once.1 (same ▸ List.mem_map_of_mem later)

end Collection

namespace MemoryStore

/-- The points of a collection, none if it has not been made. -/
def all (s : MemoryStore) (name : String) : List Point :=
  ((s.collection? name).map (·.points)).getD []

/-- The points of a collection that a filter does not accept. -/
def others (s : MemoryStore) (name : String) (f : Filter) : List Point :=
  (s.all name).filter fun p => !f.accepts p.payload

theorem points_eq (s : MemoryStore) (name : String) (f : Filter) :
    s.points name f = (s.all name).filter fun p => f.accepts p.payload := by
  unfold points all
  cases s.collection? name <;> rfl

theorem lookup_replaced (cs : List (String × Collection)) (name other : String)
    (c : Collection) :
    (cs.map fun (n, d) => if n = name then (n, c) else (n, d)).lookup other =
      if other = name ∧ cs.any (·.1 = name) = true then some c else cs.lookup other := by
  induction cs with
  | nil => simp
  | cons entry rest ih =>
    obtain ⟨n, d⟩ := entry
    by_cases here : n = name
    · subst here
      by_cases asked : other = n
      · simp [asked]
      · have differ : (other == n) = false := by simpa using asked
        simp only [List.map_cons, if_true, List.lookup_cons, differ, ih]
        simp [asked]
    · by_cases asked : other = n
      · subst asked
        simp [here]
      · have differ : (other == n) = false := by simpa using asked
        simp only [List.map_cons, List.lookup_cons, differ, ih, List.any_cons, here, if_false,
          decide_false, Bool.false_or]

theorem collection?_with (s : MemoryStore) (name other : String) (c : Collection) :
    (s.withCollection name c).collection? other =
      if other = name then some c else s.collection? other := by
  unfold withCollection collection?
  by_cases there : s.collections.any (·.1 = name) = true
  · simp only [there, if_true, lookup_replaced, and_true]
  · have absent : s.collections.lookup name = none := by
      rw [List.lookup_eq_none_iff]
      intro entry member
      have ne : entry.1 ≠ name := fun same =>
        there (List.any_eq_true.mpr ⟨entry, member, decide_eq_true same⟩)
      simpa using ne.symm
    rw [if_neg there, List.lookup_append]
    by_cases asked : other = name
    · subst asked
      simp [absent]
    · have differ : (other == name) = false := by simpa using asked
      simp [asked, List.lookup_cons, differ]

theorem all_with (s : MemoryStore) (name other : String) (c : Collection) :
    (s.withCollection name c).all other = if other = name then c.points else s.all other := by
  unfold all
  rw [collection?_with]
  split <;> rfl

theorem all_ensure (s : MemoryStore) (name : String) (size : Nat) (other : String) :
    (s.ensure name size).2.all other = s.all other := by
  unfold ensure
  cases there : s.collection? name with
  | some c => rfl
  | none =>
    simp only [all_with]
    split
    · rename_i same
      simp [all, same, there]
    · rfl

/-- A batch that is not written changes nothing. -/
theorem write_error {s : MemoryStore} {name : String} {batch : List Point} {e : StoreError}
    (failed : (s.write name batch).1 = .error e) : (s.write name batch).2 = s := by
  unfold write at failed ⊢
  split at failed <;> rename_i switched
  · simp [switched]
  · rw [if_neg switched]
    split at failed
    · rfl
    · rename_i c there
      split at failed
      · simp
      · cases failed

/-- A batch that is written, with identifiers of its own, stands behind the other points. -/
theorem all_write {s : MemoryStore} {name : String} {batch : List Point}
    (written : (s.write name batch).1 = .ok ()) (once : (batch.map (·.id)).Nodup)
    (fresh : ∀ p ∈ batch, ∀ q ∈ s.all name, q.id ≠ p.id) (other : String) :
    (s.write name batch).2.all other =
      if other = name then s.all name ++ batch else s.all other := by
  unfold write at written ⊢
  split at written <;> rename_i switched
  · cases written
  · rw [if_neg switched]
    split at written
    · cases written
    · rename_i c there
      split at written
      · cases written
      · have points : s.all name = c.points := by simp [all, there]
        simp only [all_with, points]
        split
        · exact Collection.putAll_fresh once (points ▸ fresh)
        · rfl

/-- Deleting leaves out what the filter accepts, and tells how many points that were; or it
fails and changes nothing. -/
theorem all_delete (s : MemoryStore) (name : String) (f : Filter) :
    ((s.delete name f).2 = s ∧ (s.delete name f).1.toOption = none) ∨
      ((∀ other, (s.delete name f).2.all other =
        if other = name then s.others name f else s.all other) ∧
      (s.delete name f).1.toOption = some (s.points name f).length) := by
  rw [points_eq, others]
  unfold delete
  split
  · exact .inl ⟨rfl, rfl⟩
  · refine .inr ?_
    cases there : s.collection? name with
    | none =>
      have points : s.all name = [] := by simp [all, there]
      simp only [points, List.filter_nil, List.length_nil]
      refine ⟨?_, rfl⟩
      intro other
      split
      · rename_i same
        rw [same, points]
      · rfl
    | some c =>
      have points : s.all name = c.points := by simp [all, there]
      simp only [points]
      exact ⟨fun other => all_with s name other _, rfl⟩

theorem mem_all_delete {s : MemoryStore} {name : String} {f : Filter} {other : String} {p : Point}
    (member : p ∈ (s.delete name f).2.all other) : p ∈ s.all other := by
  rcases s.all_delete name f with ⟨same, _⟩ | ⟨left, _⟩
  · exact same ▸ member
  · rw [left] at member
    split at member
    · rename_i here
      rw [here]
      exact (List.mem_filter.mp member).1
    · exact member

/-- Deleting what a revision has superseded leaves alone the points of that revision, and those
of every other document. -/
theorem points_delete (s : MemoryStore) (name : String)
    {workspace document revision workspace' document' revision' : String}
    (apart : workspace' = workspace → document' = document → revision' = revision)
    (other : String) :
    (s.delete name (.superseded workspace document revision)).2.points other
        (.ofRevision workspace' document' revision') =
      s.points other (.ofRevision workspace' document' revision') := by
  rcases s.all_delete name (.superseded workspace document revision) with
    ⟨same, _⟩ | ⟨left, _⟩
  · rw [same]
  · rw [points_eq, points_eq, left]
    split
    · rename_i here
      rw [here, others, List.filter_filter]
      apply List.filter_congr
      intro p _
      by_cases accepted : (Filter.ofRevision workspace' document' revision').accepts p.payload
      · obtain ⟨inWorkspace, ofDocument, ofRevision⟩ := Filter.accepts_ofRevision.mp accepted
        have spared : (Filter.superseded workspace document revision).accepts p.payload =
            false := by
          rw [← Bool.not_eq_true, Filter.accepts_superseded]
          rintro ⟨⟨inWorkspace', ofDocument'⟩, superseded⟩
          have current := apart (Option.some.inj (inWorkspace.symm.trans inWorkspace'))
            (Option.some.inj (ofDocument.symm.trans ofDocument'))
          exact superseded (current ▸ ofRevision)
        simp [accepted, spared]
      · simp [accepted]
    · rfl

end MemoryStore

namespace World

variable {s : Setup} (memory : s.gateway = none) (w : World)
include memory

theorem ensureCollection_memory (name : String) (size : Nat) :
    w.ensureCollection s name size =
      ((w.store.ensure name size).1, { w with store := (w.store.ensure name size).2 }) := by
  unfold ensureCollection
  rw [memory]

theorem writePoints_memory (name : String) (batch : List Point) :
    w.writePoints s name batch =
      ((w.store.write name batch).1, { w with store := (w.store.write name batch).2 }) := by
  unfold writePoints
  rw [memory]

theorem deletePoints_memory (name : String) (f : Filter) :
    w.deletePoints s name f =
      ((w.store.delete name f).1, { w with store := (w.store.delete name f).2 }) := by
  unfold deletePoints
  rw [memory]

end World

namespace Run

/-- The points of a draft's batch: one for each chunk, all of the draft's revision. -/
theorem points_spec {job : Job} {d : Draft} {batch : List Point}
    (count : d.vectors.length = d.set.chunks.length) (rendered : points job d = .ok batch) :
    batch.map (·.id) = d.set.chunks.map (·.vectorId) ∧ batch.map (·.vector) = d.vectors ∧
      ∀ p ∈ batch, p.IsOf job.workspaceId job.documentId d.revisionId := by
  unfold points at rendered
  cases taken : FieldTemplates.ofFields d.policy.fields with
  | error e => rw [taken] at rendered; cases rendered
  | ok templates =>
    rw [taken] at rendered
    obtain ⟨ids, vectors, allOf⟩ := Point.buildAll_spec rendered
    refine ⟨?_, ?_, allOf⟩
    · have firsts : (d.set.chunks.zip d.vectors).map Prod.fst = d.set.chunks :=
        List.map_fst_zip (Nat.le_of_eq count.symm)
      calc batch.map (·.id)
        _ = ((d.set.chunks.zip d.vectors).map Prod.fst).map (·.vectorId) := by
          rw [ids, List.map_map]
          rfl
        _ = d.set.chunks.map (·.vectorId) := by rw [firsts]
    · rw [vectors]
      exact List.map_snd_zip (Nat.le_of_eq count)

/-- The points of a store in memory change only when a run writes its batch, on the way to its
switch, and when it cleans up behind it. -/
theorem Move.store_moves {s : Setup} {r r' : Run} {w w' : World} (m : Move s r w r' w')
    (memory : s.gateway = none) :
    (∀ name, w'.store.all name = w.store.all name) ∨
    (∃ d batch, r.stage = .writing d ∧ r'.stage = .accounting d ∧
      points r.job d = .ok batch ∧
      (w.store.write (collection s r.job) batch).1 = .ok () ∧
      w'.store = (w.store.write (collection s r.job) batch).2) ∨
    ∃ d previous, r.stage = .cleaning d previous ∧
      r'.stage = .refreshing (.completed d.revisionId previous d.set.chunks.length
        (w.store.delete (collection s r.job)
          (.superseded r.job.workspaceId r.job.documentId d.revisionId)).1.toOption) ∧
      w'.store = (w.store.delete (collection s r.job)
        (.superseded r.job.workspaceId r.job.documentId d.revisionId)).2 := by
  have kept := m.store_kept
  cases m with
  | ensured | unensured =>
    refine .inl fun name => ?_
    rw [w.ensureCollection_memory memory]
    exact w.store.all_ensure _ _ name
  | written d batch rendered written =>
    rw [w.writePoints_memory memory] at written ⊢
    exact .inr (.inl ⟨d, batch, rfl, rfl, rendered, written, rfl⟩)
  | unwritten d batch e rendered failed =>
    rw [w.writePoints_memory memory] at failed ⊢
    exact .inl fun name => by rw [MemoryStore.write_error failed]
  | cleaned d previous =>
    rw [w.deletePoints_memory memory]
    exact .inr (.inr ⟨d, previous, rfl, rfl, rfl⟩)
  | unrendered => exact .inl fun name => rfl
  | _ => exact .inl fun name => by rw [kept (by simp [Stage.writes])]

theorem Move.all_kept {s : Setup} {r r' : Run} {w w' : World} (m : Move s r w r' w')
    (memory : s.gateway = none)
    (unwritten : ∀ d, r.stage = .writing d → r'.stage ≠ .accounting d)
    (uncleaned : ∀ d previous, r.stage ≠ .cleaning d previous) (name : String) :
    w'.store.all name = w.store.all name := by
  rcases m.store_moves memory with
    same | ⟨d, _, stage, next, _⟩ | ⟨d, previous, stage, _⟩
  · exact same name
  · exact absurd next (unwritten d stage)
  · exact absurd stage (uncleaned d previous)

end Run

end IndexingPipeline
