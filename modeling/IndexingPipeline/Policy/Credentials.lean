import IndexingPipeline.Config.Basic

/-!
# Credentials

Keys and credentials come from the environment. A variable that is missing, or holds nothing
but blanks, gives none.
-/

namespace IndexingPipeline

/-- The environment variables that can be seen, each with its text. -/
abbrev Environment := List (String × String)

/-- A provider's credentials that cannot be had, and why. -/
structure MissingCredentials where
  provider : String
  reason : String
  deriving DecidableEq, Repr

def MissingCredentials.message (m : MissingCredentials) : String :=
  "credentials for provider '" ++ m.provider ++ "' are not available: " ++ m.reason

namespace Environment

/-- The text of a variable that is to hold a provider's credentials. -/
def credentials (env : Environment) (provider name : String) :
    Except MissingCredentials String :=
  let missing := MissingCredentials.mk provider
    ("environment variable " ++ name ++ " is not set")
  match env.lookup name with
  | none => .error missing
  | some value => if Text.isAllBlank value then .error missing else .ok value

end Environment

/-- Where a provider's credentials come from, when it needs any. -/
def Auth.envName? : Auth → Option String
  | .none => Option.none
  | .key name => some name
  | .token _ name _ => some name

/-- Whether everything that authorises a provider can be had. -/
def Provider.checkCredentials (env : Environment) (p : Provider) :
    Except MissingCredentials Unit :=
  match p.auth.envName? with
  | none => .ok ()
  | some name => (env.credentials p.id name).map fun _ => ()

end IndexingPipeline
