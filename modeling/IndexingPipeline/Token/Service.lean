import IndexingPipeline.Token.Cache
import IndexingPipeline.Exchange.Basic
import IndexingPipeline.Failure
import IndexingPipeline.Json.Record
import IndexingPipeline.Digest.Base64
import IndexingPipeline.Clock

/-!
# Access tokens

A provider needs no token, a key from the environment, or a token that an endpoint gives for
credentials. Given tokens are kept until a minute before they expire, so that one is asked for
only when none is at hand. An endpoint may name a moment of the wall clock, which can be set; how
long a token is kept is counted by a steady clock, which only goes forward.
-/

namespace IndexingPipeline

/-- What an endpoint gives: a token, and when it expires, as a moment or in seconds. -/
structure TokenGrant where
  token : String
  expiresAt : Option Int
  expiresIn : Option Nat
  deriving DecidableEq, Repr

namespace TokenGrant

def ofTree (t : Json.Tree) : Option TokenGrant := do
  let fields ← t.fields? ["access_token", "expires_at", "expires_in"]
  let token ← Json.need fields "access_token" Json.Tree.text?
  let expiresAt ← Json.maybe fields "expires_at" Json.Tree.integer?
  let expiresIn ← Json.maybe fields "expires_in" (Json.Tree.natural? (Number.twoTo 64))
  return ⟨token, expiresAt, expiresIn⟩

def read? (s : String) : Option TokenGrant :=
  (Json.Tree.readDeep? s.toList).bind ofTree

/-- The lifetime of a token whose endpoint names none. -/
def usualLifetime : Nat := 25 * 60 * 1000

/-- A token is dropped this long before it expires. -/
def margin : Nat := 60 * 1000

/-- How many milliseconds a token lasts by the wall clock. -/
def lifetime (g : TokenGrant) (wall : Int) : Nat :=
  match g.expiresAt, g.expiresIn with
  | some moment, _ => (clamp64 (moment - wall)).toNat
  | none, some seconds => seconds * 1000
  | none, none => usualLifetime

def keptFor (g : TokenGrant) (wall : Int) : Nat := g.lifetime wall - margin

end TokenGrant

/-- A pair of names is encoded; anything else is taken to be encoded already. -/
def basicCredentials (credentials : String) : String :=
  if credentials.toList.contains ':' then
    String.ofList (Digest.base64 credentials.toUTF8.toList)
  else credentials

/-- A byte of a form's value: letters, digits and four signs stand for themselves, a space is a
plus sign, and any other byte is written with a percent sign. -/
def formByte (b : UInt8) : List Char :=
  let c := Char.ofNat b.toNat
  if b.toNat < 128 && (c.isAlphanum || ['*', '-', '.', '_'].contains c) then [c]
  else if c == ' ' then ['+']
  else Url.percentByte b

def formValue (s : String) : String := String.ofList (s.toUTF8.toList.flatMap formByte)

/-- The request for a token; `requestId` tells it from others. -/
def tokenRequest (url credentials : String) (scope : Option String) (requestId : String) :
    Request :=
  { method := "POST"
    url
    headers := [
      ("authorization", "Basic " ++ basicCredentials credentials),
      ("rquid", requestId),
      ("accept", "application/json"),
      ("content-type", "application/x-www-form-urlencoded")]
    body := scope.elim "" fun s => "scope=" ++ formValue s }

def grantOf (answer : Except ExchangeError Response) : Except TokenError TokenGrant :=
  match answer with
  | .error (.unsent reason) => .error (.transport reason)
  | .error (.unusable reason) => .error (.invalidResponse reason)
  | .ok response =>
    if !response.isSuccess then .error (.api response.status response.body)
    else
      match TokenGrant.read? response.body with
      | none => .error (.invalidResponse "error decoding response body")
      | some grant =>
        if grant.token = "" then .error (.invalidResponse "empty access_token")
        else .ok grant

/-- The tokens at hand, by provider, and the way to more of them. -/
structure TokenDesk where
  cache : Cache String String := {}
  peer : Peer := {}
  deriving Inhabited, Repr

/-- What becomes of the wish for a token. One whose lifetime ends beyond what the clock can
tell stops everything. -/
inductive TokenAnswer where
  | given (token : Option String)
  | refused (e : TokenError)
  | beyondClock
  deriving DecidableEq, Repr

namespace TokenDesk

def fetch (desk : TokenDesk) (wall steady : Int) (provider : String) (request : Request) :
    TokenAnswer × TokenDesk :=
  let (answer, peer) := desk.peer.send request
  match grantOf answer with
  | .error e => (.refused e, { desk with peer })
  | .ok grant =>
    match desk.cache.insert? steady provider grant.token (grant.keptFor wall) with
    | none => (.beyondClock, { desk with peer })
    | some cache => (.given (some grant.token), { cache, peer })

/-- The token that a provider wants to see. What is at hand expires by the steady clock. -/
def access (desk : TokenDesk) (env : Environment) (wall steady : Int) (requestId : String)
    (p : Provider) : TokenAnswer × TokenDesk :=
  match p.auth with
  | .none => (.given none, desk)
  | .key name =>
    match env.credentials p.id name with
    | .ok key => (.given (some key), desk)
    | .error m => (.refused (.missing m), desk)
  | .token url name scope =>
    match desk.cache.get? steady p.id with
    | some token => (.given (some token), desk)
    | none =>
      match env.credentials p.id name with
      | .error m => (.refused (.missing m), desk)
      | .ok credentials =>
        desk.fetch wall steady p.id (tokenRequest url credentials scope requestId)

def invalidate (desk : TokenDesk) (provider : String) : TokenDesk :=
  { desk with cache := (desk.cache.remove provider).2 }

end TokenDesk

end IndexingPipeline
