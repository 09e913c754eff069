import IndexingPipeline.Point.Basic
import IndexingPipeline.Chunk.Basic
import IndexingPipeline.Config.Basic
import IndexingPipeline.Template.Render

/-!
# What a point says of its chunk

The payload of a point holds either seven facts about the chunk or one rendered text for each
field of the schema. The seven names that identify the chunk are written last, so that they
hold whatever a field of the same name was rendered to. `Point.build` leaves the rendering to
its caller; `FieldTemplates.render` is the rendering of schemas.
-/

namespace IndexingPipeline

/-- The names under which the points of one run are found. -/
structure PointScope where
  workspaceId : String
  baseId : String
  documentId : String
  versionId : String
  revisionId : String
  chunkSetId : String
  deriving DecidableEq, Repr, Inhabited

/-- Why a payload cannot be made; which field is to blame. -/
inductive PayloadError where
  | invalidTemplate (field : String)
  | notRendered (field : String)
  deriving DecidableEq, Repr

def PayloadError.message : PayloadError → String
  | .invalidTemplate field => "invalid template for payload field '" ++ field ++ "'"
  | .notRendered field => "failed to render payload field '" ++ field ++ "'"

namespace Payload

def put (name : String) (v : Json.Value) (payload : Payload) : Payload :=
  Json.insertMember name v payload

/-- The facts about a chunk that are kept when no schema asks for others. -/
def facts (chunk : Chunk) : List (String × Json.Value) :=
  [("text", .text chunk.text),
   ("chunk_ordinal", .ofInt chunk.ordinal),
   ("char_start", .ofInt chunk.charStart),
   ("char_end", .ofInt chunk.charEnd),
   ("char_count", .ofInt chunk.charCount),
   ("token_count", .ofInt chunk.tokenCount),
   ("content_hash", .text chunk.contentHash)]

/-- The names that identify a chunk, with what they hold. -/
def identity (scope : PointScope) (chunk : Chunk) : List (String × Json.Value) :=
  [("workspace_id", .text scope.workspaceId),
   ("base_id", .text scope.baseId),
   ("document_id", .text scope.documentId),
   ("version_id", .text scope.versionId),
   ("revision_id", .text scope.revisionId),
   ("chunk_set_id", .text scope.chunkSetId),
   ("chunk_id", .text chunk.id)]

/-- A payload with members put in one after the other. -/
def putAll (payload : Payload) (members : List (String × Json.Value)) : Payload :=
  members.foldl (fun payload (name, v) => put name v payload) payload

/-- The rendered fields of a schema, in its order. -/
def renderedFields (render : SchemaField → Except PayloadError String) :
    List SchemaField → Except PayloadError (List (String × Json.Value))
  | [] => .ok []
  | f :: rest => do
    let text ← render f
    let others ← renderedFields render rest
    return (f.name, .text text) :: others

def build (render : SchemaField → Except PayloadError String) (fields : List SchemaField)
    (scope : PointScope) (chunk : Chunk) : Except PayloadError Payload :=
  match fields with
  | [] => .ok (putAll (putAll [] (facts chunk)) (identity scope chunk))
  | fields => do
    let members ← renderedFields render fields
    return putAll (putAll [] members) (identity scope chunk)

end Payload

/-- The point of a chunk: its vector under the identifier the chunk has for it. -/
def Point.build (render : SchemaField → Except PayloadError String)
    (fields : List SchemaField) (scope : PointScope) (chunk : Chunk) (vector : Vector32) :
    Except PayloadError Point :=
  (Payload.build render fields scope chunk).map fun payload =>
    { id := chunk.vectorId, vector, payload }

/-- The templates of a schema, taken apart; a later one replaces an earlier one of the same
name. -/
abbrev FieldTemplates := Template.Library

namespace FieldTemplates

/-- The templates of a schema, unless one of them is no template. -/
def ofFields : List SchemaField → Except PayloadError FieldTemplates
  | [] => .ok []
  | f :: rest =>
    match Template.Program.read? f.template with
    | none => .error (.invalidTemplate f.name)
    | some program => do
      let others ← ofFields rest
      return others ++ [(f.name, program)]

/-- Names with their texts and numbers, as templates see them. -/
def members (fields : List (String × Template.Value)) : Template.Value :=
  .ofMembers (fields.map fun (name, v) => (.ofText name, v))

def seen (scope : PointScope) (chunk : Chunk) : List (String × Template.Value) :=
  [("chunk", members [
      ("id", .ofText chunk.id),
      ("text", .ofText chunk.text),
      ("ordinal", .int chunk.ordinal),
      ("char_start", .int chunk.charStart),
      ("char_end", .int chunk.charEnd),
      ("char_count", .int chunk.charCount),
      ("token_count", .int chunk.tokenCount),
      ("content_hash", .ofText chunk.contentHash)]),
   ("document", members [
      ("id", .ofText scope.documentId),
      ("workspace_id", .ofText scope.workspaceId),
      ("base_id", .ofText scope.baseId),
      ("version_id", .ofText scope.versionId)]),
   ("revision", members [
      ("id", .ofText scope.revisionId),
      ("chunk_set_id", .ofText scope.chunkSetId)])]

def render (templates : FieldTemplates) (scope : PointScope) (chunk : Chunk)
    (field : SchemaField) : Except PayloadError String :=
  match Template.Library.render templates field.name (seen scope chunk) with
  | .ok text => .ok text
  | .error _ => .error (.notRendered field.name)

end FieldTemplates

/-- The points of chunks and their vectors, in order. -/
def Point.buildAll (templates : FieldTemplates) (fields : List SchemaField)
    (scope : PointScope) : List (Chunk × Vector32) → Except PayloadError (List Point)
  | [] => .ok []
  | (chunk, vector) :: rest => do
    let point ← Point.build (templates.render scope chunk) fields scope chunk vector
    let others ← buildAll templates fields scope rest
    return point :: others

end IndexingPipeline
