import IndexingPipeline.Policy.Credentials

/-!
# Failures

What the services outside can answer instead of what was asked of them, and what becomes of a
job then. Only failures of the way to a service are worth another attempt; those that the
service answered with are final.
-/

namespace IndexingPipeline

/-- A provider of vectors has given none. -/
inductive EmbeddingError where
  | api (status : Nat) (body : String)
  | invalidResponse (reason : String)
  | emptyVector
  | transport (reason : String)
  deriving DecidableEq, Repr

def EmbeddingError.message : EmbeddingError → String
  | .api status body => "embedding API error " ++ toString status ++ ": " ++ body
  | .invalidResponse reason => "invalid embedding response format: " ++ reason
  | .emptyVector => "embedding provider returned an empty vector"
  | .transport reason => "embedding transport error: " ++ reason

def EmbeddingError.isTransport : EmbeddingError → Bool
  | .transport _ => true
  | _ => false

/-- The vector store has not done what it was asked. -/
inductive StoreError where
  | api (status : Nat) (body : String)
  | wrongSize (collection : String) (expected actual : Nat)
  | invalidResponse (reason : String)
  | transport (reason : String)
  deriving DecidableEq, Repr

def StoreError.message : StoreError → String
  | .api status body => "vector store error " ++ toString status ++ ": " ++ body
  | .wrongSize collection expected actual =>
    "collection '" ++ collection ++ "' has vector size " ++ toString actual ++ ", expected " ++
      toString expected
  | .invalidResponse reason => "invalid vector store response: " ++ reason
  | .transport reason => "vector store transport error: " ++ reason

inductive TokenError where
  | missing (m : MissingCredentials)
  | api (status : Nat) (body : String)
  | invalidResponse (reason : String)
  | transport (reason : String)
  deriving DecidableEq, Repr

def TokenError.message : TokenError → String
  | .missing m => m.message
  | .api status body => "token endpoint error " ++ toString status ++ ": " ++ body
  | .invalidResponse reason => "invalid token response: " ++ reason
  | .transport reason => "token transport error: " ++ reason

def TokenError.isTransport : TokenError → Bool
  | .transport _ => true
  | _ => false

/-- Why a job ends here: it may be tried again, it may not, or it was called off. -/
inductive JobError where
  | retryable (reason : String)
  | fatal (reason : String)
  | canceled (reason : String)
  deriving DecidableEq, Repr

namespace JobError

def message : JobError → String
  | .retryable reason => reason
  | .fatal reason => reason
  | .canceled reason => "canceled: " ++ reason

def isRetryable : JobError → Bool
  | .retryable _ => true
  | _ => false

/-- A reason that is worth another attempt, or not. -/
def ofReason (retry : Bool) (reason : String) : JobError :=
  if retry then .retryable reason else .fatal reason

/-- The failure to embed one chunk of several, counted from one. -/
def ofEmbedding (e : EmbeddingError) (index total : Nat) : JobError :=
  ofReason e.isTransport
    ("embedding failed for chunk " ++ toString index ++ " of " ++ toString total ++ ": " ++
      e.message)

def ofToken (e : TokenError) : JobError :=
  ofReason e.isTransport ("access token unavailable: " ++ e.message)

/-- A failure told from the outside in: what was attempted, then why it failed. -/
def ofChain (causes : List String) : JobError := .fatal (": ".intercalate causes)

def ofDatabase (reason : String) : JobError := .fatal ("database error: " ++ reason)

end JobError

end IndexingPipeline
