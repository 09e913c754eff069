import Mathlib.Data.String.Basic
import IndexingPipeline.Proofs.Points

/-!
# What identifies a point

A payload has one member for each name that its fields were given, and one for each of the seven
names that identify a chunk, in the order of the names. Fields may repeat a name, or have one of
those seven: the last field of a name holds, and what identifies the chunk holds over all of them,
whatever was rendered. So the points that a run supersedes are just the ones of its document that
were built for another revision.
-/

namespace IndexingPipeline

namespace Json

variable {α : Type}

def IsOrdered (ms : List (String × α)) : Prop := (ms.map (·.1)).Pairwise (· < ·)

theorem mem_names_insertMember {name other : String} {v : α} {ms : List (String × α)} :
    other ∈ (insertMember name v ms).map (·.1) ↔ other = name ∨ other ∈ ms.map (·.1) := by
  induction ms with
  | nil => simp [insertMember]
  | cons m rest ih =>
    obtain ⟨third, w⟩ := m
    unfold insertMember
    split_ifs with before same
    · simp only [List.map_cons, List.mem_cons]
    · simp only [List.map_cons, List.mem_cons, same, ← or_assoc, or_self]
    · simp only [List.map_cons, List.mem_cons, ih, or_left_comm]

theorem insertMember_ordered (name : String) (v : α) {ms : List (String × α)}
    (ordered : IsOrdered ms) : IsOrdered (insertMember name v ms) := by
  induction ms with
  | nil => exact List.pairwise_singleton _ _
  | cons m rest ih =>
    obtain ⟨third, w⟩ := m
    obtain ⟨first, others⟩ := List.pairwise_cons.mp ordered
    unfold insertMember
    split_ifs with before same
    · refine List.pairwise_cons.mpr ⟨?_, ordered⟩
      intro other member
      rcases List.mem_cons.mp member with rfl | later
      · exact before
      · exact String.lt_trans before (first other later)
    · subst same
      exact ordered
    · refine List.pairwise_cons.mpr ⟨?_, ih others⟩
      intro other member
      rcases mem_names_insertMember.mp member with rfl | later
      · exact lt_of_le_of_ne (not_lt.mp before) (Ne.symm same)
      · exact first other later

end Json

namespace Payload

def names (payload : Payload) : List String := payload.map (·.1)

/-- The names of the facts about a chunk that are kept when no schema asks for others. -/
def factNames : List String :=
  ["text", "chunk_ordinal", "char_start", "char_end", "char_count", "token_count",
    "content_hash"]

def identityNames : List String :=
  ["workspace_id", "base_id", "document_id", "version_id", "revision_id", "chunk_set_id",
    "chunk_id"]

/-- The names that a payload has beside those that identify its chunk. -/
def ownNames : List SchemaField → List String
  | [] => factNames
  | fields => fields.map (·.name)

/-- A payload says which chunk it is of, and where that belongs. -/
structure Identifies (scope : PointScope) (chunk : Chunk) (payload : Payload) : Prop where
  workspace : payload.lookup "workspace_id" = some (.text scope.workspaceId)
  base : payload.lookup "base_id" = some (.text scope.baseId)
  document : payload.lookup "document_id" = some (.text scope.documentId)
  version : payload.lookup "version_id" = some (.text scope.versionId)
  revision : payload.lookup "revision_id" = some (.text scope.revisionId)
  chunkSet : payload.lookup "chunk_set_id" = some (.text scope.chunkSetId)
  chunk : payload.lookup "chunk_id" = some (.text chunk.id)

variable {payload : Payload} {members : List (String × Json.Value)}

theorem mem_names_putAll {name : String} :
    name ∈ (putAll payload members).names ↔ name ∈ payload.names ∨ name ∈ members.map (·.1) := by
  induction members generalizing payload with
  | nil => simp [putAll]
  | cons m rest ih =>
    have put : name ∈ (put m.1 m.2 payload).names ↔ name = m.1 ∨ name ∈ payload.names :=
      Json.mem_names_insertMember
    refine ih.trans ?_
    rw [put, List.map_cons, List.mem_cons, or_assoc, or_left_comm]

theorem putAll_ordered (ordered : Json.IsOrdered payload) :
    Json.IsOrdered (putAll payload members) := by
  induction members generalizing payload with
  | nil => exact ordered
  | cons m rest ih => exact ih (Json.insertMember_ordered m.1 m.2 ordered)

theorem identifies_putAll (payload : Payload) (scope : PointScope) (chunk : Chunk) :
    Identifies scope chunk (putAll payload (identity scope chunk)) := by
  constructor <;> rw [lookup_putAll] <;> rfl

variable {render : SchemaField → Except PayloadError String} {fields : List SchemaField}
  {scope : PointScope} {chunk : Chunk}

/-- The rendered fields have the names of the fields, in order. -/
theorem names_renderedFields (rendered : renderedFields render fields = .ok members) :
    members.map (·.1) = fields.map (·.name) := by
  induction fields generalizing members with
  | nil =>
    obtain rfl := Except.ok.inj rendered
    rfl
  | cons f rest ih =>
    simp only [renderedFields] at rendered
    cases text : render f with
    | error e => rw [text] at rendered; cases rendered
    | ok t =>
      cases others : renderedFields render rest with
      | error e => rw [text, others] at rendered; cases rendered
      | ok ms =>
        rw [text, others] at rendered
        obtain rfl := Except.ok.inj rendered
        exact congrArg (f.name :: ·) (ih others)

/-- There are rendered fields when each of the fields can be rendered. -/
theorem renderedFields_isOk :
    (∃ members, renderedFields render fields = .ok members) ↔
      ∀ f ∈ fields, ∃ text, render f = .ok text := by
  induction fields with
  | nil => simp [renderedFields]
  | cons f rest ih =>
    rw [List.forall_mem_cons, ← ih, renderedFields]
    cases render f with
    | error e => simp [bind, Except.bind]
    | ok text =>
      cases renderedFields render rest <;> simp [bind, Except.bind, pure, Except.pure]

/-- A payload that is built has its own members, with what identifies the chunk put in last. -/
theorem build_spec {built : Payload} (ok : build render fields scope chunk = .ok built) :
    ∃ members : List (String × Json.Value), members.map (·.1) = ownNames fields ∧
      built = putAll (putAll [] members) (identity scope chunk) := by
  cases fields with
  | nil => exact ⟨facts chunk, rfl, (Except.ok.inj ok).symm⟩
  | cons f rest =>
    simp only [build] at ok
    cases rendered : renderedFields render (f :: rest) with
    | error e => rw [rendered] at ok; cases ok
    | ok members =>
      rw [rendered] at ok
      exact ⟨members, names_renderedFields rendered, (Except.ok.inj ok).symm⟩

theorem build_isOk :
    (∃ built, build render fields scope chunk = .ok built) ↔
      ∀ f ∈ fields, ∃ text, render f = .ok text := by
  cases fields with
  | nil => simp [build]
  | cons f rest =>
    rw [← renderedFields_isOk]
    simp only [build]
    cases renderedFields render (f :: rest) <;> simp [bind, Except.bind, pure, Except.pure]

end Payload

/-- A point can be built when every field of its schema can be rendered. Whatever the fields are
named and rendered to, it has just the names of the fields, or those of the facts if there are none,
and the seven that identify its chunk; these hold what the scope and the chunk say; and a run
supersedes the point if and only if it is of the run's document and was built for another
revision. -/
theorem identity_survives (render : SchemaField → Except PayloadError String)
    (fields : List SchemaField) (scope : PointScope) (chunk : Chunk) (vector : Vector32) :
    ((∃ p, Point.build render fields scope chunk vector = .ok p) ↔
      ∀ f ∈ fields, ∃ text, render f = .ok text) ∧
    ∀ p, Point.build render fields scope chunk vector = .ok p →
      p.id = chunk.vectorId ∧ p.vector = vector ∧
      (∀ name, name ∈ p.payload.names ↔
        name ∈ Payload.ownNames fields ∨ name ∈ Payload.identityNames) ∧
      p.payload.names.Nodup ∧
      p.payload.Identifies scope chunk ∧
      ∀ workspace document revision,
        (Filter.superseded workspace document revision).accepts p.payload = true ↔
          scope.workspaceId = workspace ∧ scope.documentId = document ∧
            scope.revisionId ≠ revision := by
  constructor
  · have isOk : (∃ built, Payload.build render fields scope chunk = .ok built) ↔
        ∀ f ∈ fields, ∃ text, render f = .ok text := Payload.build_isOk
    rw [← isOk, Point.build]
    cases Payload.build render fields scope chunk <;> simp [Except.map]
  · intro p built
    obtain ⟨id, same, isOf⟩ := Point.build_isOf built
    obtain ⟨payload, ok, rfl⟩ : ∃ payload, Payload.build render fields scope chunk = .ok payload ∧
        p = ⟨chunk.vectorId, vector, payload⟩ := by
      rw [Point.build] at built
      cases ok : Payload.build render fields scope chunk with
      | error e => rw [ok] at built; cases built
      | ok payload =>
        rw [ok] at built
        exact ⟨payload, rfl, (Except.ok.inj built).symm⟩
    obtain ⟨members, own, rfl⟩ := Payload.build_spec ok
    refine ⟨id, same, ?_, ?_, Payload.identifies_putAll _ _ _, ?_⟩
    · intro name
      rw [Payload.mem_names_putAll, Payload.mem_names_putAll, own]
      simp [Payload.names, Payload.identity, Payload.identityNames]
    · have empty : Json.IsOrdered ([] : Payload) := .nil
      exact (Payload.putAll_ordered (Payload.putAll_ordered empty)).imp ne_of_lt
    · intro workspace document revision
      rw [Filter.accepts_superseded, isOf.workspace, isOf.document, isOf.revision]
      simp [and_assoc]

namespace Sample

/-- A schema that names two identifying members, and one of its own twice. -/
def intrusive : List SchemaField :=
  [⟨"revision_id", "bogus"⟩, ⟨"body", "first"⟩, ⟨"document_id", "text"⟩, ⟨"body", "second"⟩]

def scope : PointScope := ⟨"w", "b", "d", "v1", "r", "s"⟩

def chunk : Chunk := ⟨"c", "d", 0, "hello", 0, 5, 5, 2, "h", "x"⟩

end Sample

theorem identity_survives_sample :
    ∃ p, Point.build (fun f => .ok f.template) Sample.intrusive Sample.scope Sample.chunk [1] =
        .ok p ∧
      p.payload.names = ["base_id", "body", "chunk_id", "chunk_set_id", "document_id",
        "revision_id", "version_id", "workspace_id"] ∧
      p.payload.Identifies Sample.scope Sample.chunk ∧
      (Filter.superseded "w" "d" "r2").accepts p.payload = true ∧
      (Filter.superseded "w" "d" "r").accepts p.payload = false := by
  obtain ⟨builds, holds⟩ := identity_survives (fun f => .ok f.template) Sample.intrusive
    Sample.scope Sample.chunk [1]
  obtain ⟨p, built⟩ := builds.mpr fun f _ => ⟨f.template, rfl⟩
  obtain ⟨_, _, _, _, identifies, superseded⟩ := holds p built
  have names : (Point.build (fun f => .ok f.template) Sample.intrusive Sample.scope Sample.chunk
      [1]).toOption.map (·.payload.names) = some ["base_id", "body", "chunk_id", "chunk_set_id",
        "document_id", "revision_id", "version_id", "workspace_id"] := by decide +kernel
  rw [built] at names
  refine ⟨p, built, Option.some.inj names, identifies,
    (superseded "w" "d" "r2").mpr (by decide), ?_⟩
  exact Bool.eq_false_iff.mpr fun accepted => ((superseded "w" "d" "r").mp accepted).2.2 rfl

end IndexingPipeline
