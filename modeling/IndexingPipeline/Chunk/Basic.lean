import IndexingPipeline.Identifier
import IndexingPipeline.Chunk.Split
import IndexingPipeline.Digest.Sha256

/-!
# Chunks

A chunk is a span of a document's body together with what the index keeps of it: its place,
its size, an estimate of its tokens and the digest of its text. A chunk set is all chunks of
one revision.
-/

namespace IndexingPipeline

structure Chunk where
  id : String
  documentId : String
  ordinal : Int
  text : String
  charStart : Int
  charEnd : Int
  charCount : Int
  tokenCount : Int
  contentHash : String
  vectorId : String
  deriving DecidableEq, Repr

structure ChunkSet where
  id : String
  revisionId : String
  documentId : String
  chunks : List Chunk
  deriving DecidableEq, Repr

namespace Chunk

/-- How many characters are taken to make one token. -/
def charsPerToken : Nat := 4

/-- The estimate of a text's tokens; a started token counts. -/
def tokensOf (chars : Nat) : Nat := (chars + (charsPerToken - 1)) / charsPerToken

/-- The chunk of a span. Its identifiers are the two drawn from `supply` on. -/
def ofSpan (documentId : String) (supply ordinal : Nat) (span : Span) : Chunk :=
  { id := Identifier.ofNat supply
    documentId
    ordinal
    text := String.ofList span.text
    charStart := span.start
    charEnd := span.stop
    charCount := span.text.length
    tokenCount := tokensOf span.text.length
    contentHash := Digest.ofText (String.ofList span.text)
    vectorId := Identifier.ofNat (supply + 1) }

/-- The chunks of spans, numbered from `ordinal` on. -/
def ofSpans (documentId : String) (supply ordinal : Nat) : List Span → List Chunk
  | [] => []
  | span :: rest =>
    ofSpan documentId supply ordinal span ::
      ofSpans documentId (supply + 2) (ordinal + 1) rest

end Chunk

namespace ChunkSet

/-- The chunk set of a text. Identifiers are drawn from `supply` on; the first that is left
over comes back too. -/
def build (documentId revisionId text : String) (window : Window) (supply : Nat) :
    ChunkSet × Nat :=
  let spans := split text window
  let next := supply + 2 * spans.length
  ({ id := Identifier.ofNat next
     revisionId
     documentId
     chunks := Chunk.ofSpans documentId supply 0 spans }, next + 1)

def totalChars (set : ChunkSet) : Int := set.chunks.foldl (fun n c => n + c.charCount) 0

def totalTokens (set : ChunkSet) : Int := set.chunks.foldl (fun n c => n + c.tokenCount) 0

end ChunkSet

end IndexingPipeline
