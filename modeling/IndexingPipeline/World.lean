import IndexingPipeline.Database
import IndexingPipeline.Embedding.Remote
import IndexingPipeline.Point.Gateway
import IndexingPipeline.Point.Memory
import IndexingPipeline.Token.Service

/-!
# The world of a worker

The state that the steps of a run read and change: the clocks, the database, the vector store in
memory, the tokens at hand, and what the services outside will answer. Moments are those of the
wall clock, which can be set; a steady clock only goes forward. A provider of vectors may be played
by a list of turns; while it is at work others may move the clocks, control actions, write documents
or try to lock them. Whatever a service can do is some such list.
-/

namespace IndexingPipeline

/-- What another party does while a provider is at work. -/
inductive Interference where
  | advance (ms : Int)
  | control (action : String) (c : Control)
  | submit (workspace base document version body : String)
  | lock (workspace document : String)
  deriving DecidableEq, Repr

/-- One turn of a provider that is played: what happens meanwhile, and what it answers to a
text. -/
structure EmbedderTurn where
  meanwhile : List Interference
  answer : String → Except EmbeddingError Embedding

/-- What is written down of a provider that is played. -/
inductive EmbedderNote where
  | asked (provider model : String) (token : Option String) (text : String)
  | locked (got : Bool)
  deriving DecidableEq, Repr

structure World where
  now : Int
  /-- How far the steady clock is ahead of the wall clock. -/
  lead : Int
  drawn : Nat
  db : Database
  store : MemoryStore
  desk : TokenDesk
  env : Environment
  turns : List EmbedderTurn
  usualTurn : EmbedderTurn
  notes : List EmbedderNote

/-- Which services a worker is connected to: a provider that is played or one that is asked over
the way, and a store in memory or behind a server. -/
structure Setup where
  config : Config
  remoteEmbedder : Bool
  gateway : Option Gateway

namespace World

/-- An empty database, no tokens at hand, and a provider that, if played, has nothing to say. -/
def initial (now : Int) (env : Environment) (peer : Peer) : World :=
  { now, lead := 0, drawn := 0, db := {}, store := {}, desk := { peer }, env, turns := []
    usualTurn := ⟨[], fun _ => .error .emptyVector⟩, notes := [] }

/-- The clock that nobody sets. It is ahead of the wall clock by the lead. -/
def steady (w : World) : Int := w.now + w.lead

def draw (w : World) : String × World :=
  (Identifier.ofNat w.drawn, { w with drawn := w.drawn + 1 })

def onJobs (w : World) (f : Queue → Queue) : World :=
  { w with db := { w.db with jobs := f w.db.jobs } }

def onDocuments (w : World) (f : Documents → Documents) : World :=
  { w with db := { w.db with documents := f w.db.documents } }

def onRevisions (w : World) (f : Revisions → Revisions) : World :=
  { w with db := { w.db with revisions := f w.db.revisions } }

def onActions (w : World) (f : Actions → Actions) : World :=
  { w with db := { w.db with actions := f w.db.actions } }

def onLocks (w : World) (f : Locks → Locks) : World :=
  { w with db := { w.db with locks := f w.db.locks } }

/-- How long a lock is held at most, in milliseconds. -/
def lockLifetime (cfg : Config) : Int := wrap64 (cfg.worker.lockTtlSeconds * 1000)

/-- Try to lock a document for a new holder. -/
def acquire (w : World) (lifetime : Int) (workspace document : String) :
    Option String × World :=
  let (holder, w) := w.draw
  let (got, locks) := w.db.locks.acquire w.now lifetime workspace document holder
  (if got then some holder else none, { w with db := { w.db with locks } })

/-- Write a document and ask for its version to be indexed. -/
def submit (w : World) (workspace base document version body : String) : Job × World :=
  let (newId, w) := w.draw
  let (job, db) := w.db.submit w.now newId workspace base document version body
  (job, { w with db })

/-- Ask for a version of a document to be indexed. -/
def enqueue (w : World) (workspace base document version : String) : Job × World :=
  let (newId, w) := w.draw
  let (job, jobs) := w.db.jobs.enqueue w.now newId workspace base document version
  (job, { w with db := { w.db with jobs } })

def openRevision (w : World) (workspace document version digest : String) :
    Revision × World :=
  let (id, w) := w.draw
  let fresh := Revision.fresh id workspace document version digest w.now
  (fresh, w.onRevisions (· ++ [fresh]))

/-- Split a document as it is now and store its chunks; none when there is no such
document. -/
def chunkDocument? (w : World) (workspace document revision : String) (window : Window) :
    Option (ChunkSet × World) :=
  (w.db.documents.document? workspace document).map fun d =>
    let (set, drawn) := ChunkSet.build document revision d.body window w.drawn
    (set, { w with drawn, db := { w.db with chunkSets := w.db.chunkSets ++ [⟨set, w.now⟩] } })

def control (w : World) (cfg : Config) (id : String) (c : Control) :
    Except ControlError Action × World :=
  let (answer, actions) := w.db.actions.control cfg.actions w.now id c
  (answer, { w with db := { w.db with actions } })

/-- Count the jobs of a base's latest action anew. -/
def refreshAction (w : World) (cfg : Config) (workspace base : String) :
    Option Action × World :=
  let (action, actions) :=
    w.db.actions.refreshLatest cfg.actions w.db.jobs w.now workspace base
  (action, { w with db := { w.db with actions } })

def interfere (cfg : Config) (w : World) : Interference → World
  | .advance ms => { w with now := wrap64 (w.now + ms) }
  | .control action c => (w.control cfg action c).2
  | .submit workspace base document version body =>
    (w.submit workspace base document version body).2
  | .lock workspace document =>
    let (holder, w) := w.acquire (lockLifetime cfg) workspace document
    { w with notes := w.notes ++ [.locked holder.isSome] }

def embed (s : Setup) (w : World) (p : Provider) (token : Option String) (text : String) :
    Except EmbeddingError Embedding × World :=
  if s.remoteEmbedder then
    let (answer, peer) := p.embed w.desk.peer token text
    (answer, { w with desk := { w.desk with peer } })
  else
    let turn := w.turns.headD w.usualTurn
    let w := { w with
      turns := w.turns.drop 1, notes := w.notes ++ [.asked p.id p.model token text] }
    (turn.answer text, turn.meanwhile.foldl (interfere s.config) w)

def accessToken (w : World) (p : Provider) : TokenAnswer × World :=
  let (requestId, v) := w.draw
  let (answer, desk) := w.desk.access w.env w.now w.steady requestId p
  (answer, { v with desk })

def ensureCollection (s : Setup) (w : World) (name : String) (size : Nat) :
    Except StoreError Unit × World :=
  match s.gateway with
  | some g =>
    let (answer, peer) := g.ensure w.desk.peer name size
    (answer, { w with desk := { w.desk with peer } })
  | none =>
    let (answer, store) := w.store.ensure name size
    (answer, { w with store })

def writePoints (s : Setup) (w : World) (name : String) (batch : List Point) :
    Except StoreError Unit × World :=
  match s.gateway with
  | some g =>
    let (answer, peer) := g.write w.desk.peer name batch
    (answer, { w with desk := { w.desk with peer } })
  | none =>
    let (answer, store) := w.store.write name batch
    (answer, { w with store })

def deletePoints (s : Setup) (w : World) (name : String) (f : Filter) :
    Except StoreError Nat × World :=
  match s.gateway with
  | some g =>
    let (answer, peer) := g.delete w.desk.peer name f
    (answer, { w with desk := { w.desk with peer } })
  | none =>
    let (answer, store) := w.store.delete name f
    (answer, { w with store })

def countPoints (s : Setup) (w : World) (name : String) (f : Filter) :
    Except StoreError Nat × World :=
  match s.gateway with
  | some g =>
    let (answer, peer) := g.count w.desk.peer name f
    (answer, { w with desk := { w.desk with peer } })
  | none => (.ok (w.store.count name f), w)

end World

end IndexingPipeline
