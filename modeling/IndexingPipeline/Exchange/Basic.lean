import IndexingPipeline.Exchange.Url
import IndexingPipeline.Json.Value

/-!
# Exchanges with services

A request goes to the peer behind an address; the peer answers or does not. All that is outside
this library is in the peer: the answers that it will give, in order. A peer without a list of
answers refuses every connection, one whose answers are used up closes it.
-/

namespace IndexingPipeline

structure Request where
  method : String
  url : String
  headers : List (String × String)
  body : String
  deriving DecidableEq, Repr, Inhabited

structure Response where
  status : Nat
  body : String
  deriving DecidableEq, Repr, Inhabited

inductive Reply where
  | answer (r : Response)
  | close
  deriving DecidableEq, Repr, Inhabited

/-- What stands behind every address: its next answers, and the requests it has received. -/
structure Peer where
  replies : Option (List Reply) := none
  received : List Request := []
  deriving Inhabited, Repr

/-- Why a request has no response: it could not be made, or it could not be sent. -/
inductive ExchangeError where
  | unusable (reason : String)
  | unsent (reason : String)
  deriving DecidableEq, Repr

def Response.isSuccess (r : Response) : Bool := 200 ≤ r.status && r.status < 300

/-- What a success says; without a value that can be read, why not. -/
def Response.value (r : Response) : Except String Json.Value :=
  match Json.Value.read? r.body with
  | some v => .ok v
  | none => .error "error decoding response body"

def isHeaderText (s : String) : Bool :=
  s.toList.all fun c => c == '\t' || (0x20 ≤ c.toNat && c.toNat ≠ 0x7F)

/-- Send a request: at most one answer of the peer is used up. -/
def Peer.send (peer : Peer) (r : Request) : Except ExchangeError Response × Peer :=
  match Url.read r.url with
  | .error fault => (.error (.unusable fault.message), peer)
  | .ok url =>
    if !r.headers.all (isHeaderText ·.2) then (.error (.unusable "builder error"), peer)
    else
      let unsent := Except.error (.unsent ("error sending request for url (" ++ url ++ ")"))
      let received := peer.received ++ [{ r with url }]
      match peer.replies with
      | none => (unsent, peer)
      | some [] => (unsent, { peer with received })
      | some (.close :: rest) => (unsent, { replies := some rest, received })
      | some (.answer a :: rest) => (.ok a, { replies := some rest, received })

end IndexingPipeline
