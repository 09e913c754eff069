import IndexingPipeline.Point.Basic
import IndexingPipeline.Exchange.Basic
import IndexingPipeline.Config.Basic
import IndexingPipeline.Policy.Credentials
import IndexingPipeline.Failure

/-!
# A vector store behind a server

The same operations as on a store in memory, each as one to three requests. A server that does
not know what is asked about answers 404, which is an answer here and no failure; every other
answer that is no success is a failure and ends the operation.
-/

namespace IndexingPipeline

structure Gateway where
  base : String
  key : Option String
  deriving DecidableEq, Repr, Inhabited

/-- A vector of bits as the numbers they stand for. -/
def Vector32.toValue (v : Vector32) : Json.Value :=
  .list (v.map fun bits =>
    let x := Float32.ofBits bits
    if x.isFinite then .number (.double ⟨x.toFloat.toBits⟩) else .null)

def Point.toValue (p : Point) : Json.Value :=
  .ofMembers [("id", .text p.id), ("vector", p.vector.toValue), ("payload", .object p.payload)]

namespace Gateway

def ofSettings (store : StoreSettings) (env : Environment) : Gateway :=
  { base := String.ofList
      ((store.url.toList.reverse.dropWhile (· == '/')).reverse)
    key := (store.keyEnvName.bind fun name => env.lookup name).filter (· ≠ "") }

/-- A request; one with a body says that it is JSON. -/
def request (g : Gateway) (method path : String) (body : Option Json.Value) : Request :=
  { method
    url := g.base ++ path
    headers := (g.key.map fun key => ("api-key", key)).toList ++
      (body.map fun _ => ("content-type", "application/json")).toList
    body := body.elim "" Json.Value.compact }

/-- Send a request: nothing when the server does not know what it is about. -/
def ask (peer : Peer) (r : Request) : Except StoreError (Option Json.Value) × Peer :=
  let (answer, peer) := peer.send r
  let outcome := match answer with
    | .error (.unsent reason) => .error (.transport reason)
    | .error (.unusable reason) => .error (.invalidResponse reason)
    | .ok response =>
      if response.status = 404 then .ok none
      else if !response.isSuccess then .error (.api response.status response.body)
      else
        match response.value with
        | .ok v => .ok (some v)
        | .error reason => .error (.invalidResponse reason)
  (outcome, peer)

def collectionPath (name : String) : String := "/collections/" ++ name

/-- The size of a collection, if there is one of that name. -/
def size? (g : Gateway) (peer : Peer) (name : String) :
    Except StoreError (Option Nat) × Peer :=
  let (answer, peer) := ask peer (g.request "GET" (collectionPath name) none)
  let outcome := match answer with
    | .error e => .error e
    | .ok none => .ok none
    | .ok (some v) =>
      match (v.at? ["result", "config", "params", "vectors", "size"]).bind
          Json.Value.natural? with
      | some n => .ok (some n)
      | none => .error (.invalidResponse "collection without vector size")
  (outcome, peer)

/-- A collection's size has to be the one asked for. -/
def checkSize (name : String) (expected actual : Nat) : Except StoreError Unit :=
  if expected = actual then .ok () else .error (.wrongSize name expected actual)

def collectionShape (size : Nat) : Json.Value :=
  .ofMembers [("vectors", .ofMembers [("size", .ofNat size), ("distance", .text "Cosine")])]

/-- A collection of that name and size: made when there is none. When another party makes it in
between, its size counts. -/
def ensure (g : Gateway) (peer : Peer) (name : String) (size : Nat) :
    Except StoreError Unit × Peer :=
  match g.size? peer name with
  | (.error e, peer) => (.error e, peer)
  | (.ok (some actual), peer) => (checkSize name size actual, peer)
  | (.ok none, peer) =>
    match ask peer (g.request "PUT" (collectionPath name) (some (collectionShape size))) with
    | (.ok _, peer) => (.ok (), peer)
    | (.error (.api 409 _), peer) =>
      match g.size? peer name with
      | (.error e, peer) => (.error e, peer)
      | (.ok (some actual), peer) => (checkSize name size actual, peer)
      | (.ok none, peer) =>
        (.error (.invalidResponse
          ("collection " ++ name ++ " reported as existing but not found")), peer)
    | (.error e, peer) => (.error e, peer)

/-- Write a batch of points in one request; an empty one needs none. -/
def write (g : Gateway) (peer : Peer) (name : String) (batch : List Point) :
    Except StoreError Unit × Peer :=
  if batch.isEmpty then (.ok (), peer)
  else
    let body := Json.Value.ofMembers [("points", .list (batch.map Point.toValue))]
    match ask peer (g.request "PUT" (collectionPath name ++ "/points?wait=true")
        (some body)) with
    | (.error e, peer) => (.error e, peer)
    | (.ok none, peer) =>
      (.error (.api 404 ("collection " ++ name ++ " not found")), peer)
    | (.ok (some _), peer) => (.ok (), peer)

/-- How many points of a collection a filter accepts; none when there is no collection. -/
def count (g : Gateway) (peer : Peer) (name : String) (f : Filter) :
    Except StoreError Nat × Peer :=
  let body := Json.Value.ofMembers [("filter", f.toValue), ("exact", .bool true)]
  let (answer, peer) := ask peer (g.request "POST" (collectionPath name ++ "/points/count")
    (some body))
  let outcome := match answer with
    | .error e => .error e
    | .ok none => .ok 0
    | .ok (some v) =>
      match (v.at? ["result", "count"]).bind Json.Value.natural? with
      | some n => .ok n
      | none => .error (.invalidResponse "missing result.count")
  (outcome, peer)

/-- Delete the points that a filter accepts; how many they were just before. -/
def delete (g : Gateway) (peer : Peer) (name : String) (f : Filter) :
    Except StoreError Nat × Peer :=
  match g.count peer name f with
  | (.error e, peer) => (.error e, peer)
  | (.ok 0, peer) => (.ok 0, peer)
  | (.ok matching, peer) =>
    let body := Json.Value.ofMembers [("filter", f.toValue)]
    match ask peer (g.request "POST" (collectionPath name ++ "/points/delete?wait=true")
        (some body)) with
    | (.error e, peer) => (.error e, peer)
    | (.ok _, peer) => (.ok matching, peer)

end Gateway

end IndexingPipeline
