import IndexingPipeline.Json.Value

/-!
# Points

A point is a vector with an identifier and a payload of named values. A filter picks points by
texts in their payload: all that it demands have to be there, and none that it forbids.
-/

namespace IndexingPipeline

/-- The components of a vector, each the bits of a single-precision number. -/
abbrev Vector32 := List UInt32

/-- Named values, in the order of their names. -/
abbrev Payload := List (String × Json.Value)

structure Point where
  id : String
  vector : Vector32
  payload : Payload
  deriving Inhabited, Repr

structure Filter where
  demanded : List (String × String)
  forbidden : List (String × String)
  deriving DecidableEq, Repr, Inhabited

namespace Filter

/-- Whether a payload has that text under that name. -/
def holdsIn (payload : Payload) (condition : String × String) : Bool :=
  (payload.lookup condition.1).bind Json.Value.text? == some condition.2

def accepts (f : Filter) (payload : Payload) : Bool :=
  f.demanded.all (holdsIn payload) && !f.forbidden.any (holdsIn payload)

/-- A condition as a vector server is told it. -/
def conditionValue (condition : String × String) : Json.Value :=
  .ofMembers [
    ("key", .text condition.1),
    ("match", .ofMembers [("value", .text condition.2)])]

def toValue (f : Filter) : Json.Value :=
  .ofMembers [
    ("must", .list (f.demanded.map conditionValue)),
    ("must_not", .list (f.forbidden.map conditionValue))]

/-- The points of a document that belong to any revision but one. -/
def superseded (workspace document revision : String) : Filter :=
  { demanded := [("workspace_id", workspace), ("document_id", document)]
    forbidden := [("revision_id", revision)] }

end Filter

/-- The characters that stand for themselves in the name of a collection. -/
def isCollectionChar (c : Char) : Bool := c.isAlphanum || c == '-' || c == '_'

/-- The collection that holds a workspace's points. -/
def collectionName (stem workspace : String) : String :=
  stem ++ "_ws_" ++
    String.ofList (workspace.toList.map fun c => if isCollectionChar c then c else '_')

end IndexingPipeline
