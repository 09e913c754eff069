import IndexingPipeline.Embedding.Basic
import IndexingPipeline.Exchange.Basic

/-!
# Embedding by a provider

One request for each text. An answer that is no success, or says nothing that can be read, is a
failure of the provider; an answer that never came is a failure of the way to it.
-/

namespace IndexingPipeline.Provider

/-- What a provider is asked for the vector of a text. -/
def embeddingRequest (p : Provider) (token : Option String) (text : String) : Request :=
  { method := "POST"
    url := p.url
    headers := ("content-type", "application/json") ::
      (token.map fun t => ("authorization", "Bearer " ++ t)).toList
    body := (p.kind.request p.model text p.dims).compact }

def embeddingOf (p : Provider) (answer : Except ExchangeError Response) :
    Except EmbeddingError Embedding :=
  match answer with
  | .error (.unsent reason) => .error (.transport reason)
  | .error (.unusable reason) => .error (.invalidResponse reason)
  | .ok response =>
    if !response.isSuccess then .error (.api response.status response.body)
    else
      match response.value with
      | .ok v => p.kind.embeddingOf v
      | .error reason => .error (.invalidResponse reason)

/-- Ask for the vector of a text. -/
def embed (p : Provider) (peer : Peer) (token : Option String) (text : String) :
    Except EmbeddingError Embedding × Peer :=
  let (answer, peer) := peer.send (p.embeddingRequest token text)
  (p.embeddingOf answer, peer)

end IndexingPipeline.Provider
