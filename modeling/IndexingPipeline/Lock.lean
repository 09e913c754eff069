import IndexingPipeline.Clock

/-!
# Locks on documents

Whoever holds a document's lock may index it. A lock expires, so that a holder that died does
not keep the document for ever; from then on it can be taken over, and the former holder's
release does nothing.
-/

namespace IndexingPipeline

structure Lock where
  workspaceId : String
  documentId : String
  holder : String
  expiresAt : Int
  deriving DecidableEq, Repr, Inhabited

/-- At most one lock for each document. -/
abbrev Locks := List Lock

namespace Locks

def isFor (workspace document : String) (l : Lock) : Bool :=
  l.workspaceId = workspace && l.documentId = document

def lock? (ls : Locks) (workspace document : String) : Option Lock :=
  ls.find? (isFor workspace document)

/-- Take a document's lock for a number of milliseconds, unless somebody's has not expired. -/
def acquire (ls : Locks) (now lifetime : Int) (workspace document holder : String) :
    Bool × Locks :=
  let mine : Lock := ⟨workspace, document, holder, wrap64 (now + lifetime)⟩
  match ls.lock? workspace document with
  | none => (true, ls ++ [mine])
  | some l =>
    if l.expiresAt ≤ now then
      (true, ls.map fun l => if isFor workspace document l then mine else l)
    else (false, ls)

/-- Give a lock back, if it is still the holder's. -/
def release (ls : Locks) (workspace document holder : String) : Locks :=
  ls.filter fun l => !(isFor workspace document l && l.holder = holder)

def isHeld (ls : Locks) (now : Int) (workspace document : String) : Bool :=
  ls.any fun l => isFor workspace document l && now < l.expiresAt

end Locks

end IndexingPipeline
