import IndexingPipeline.Policy.Credentials

/-!
# Readiness of providers

A provider can be asked for vectors when it is configured, active, has an address and a model,
and its credentials can be had. `Config.readiness` names the first of these that fails.
-/

namespace IndexingPipeline

inductive Unready where
  | unknown (id : String)
  | inactive (id : String)
  | noUrl (id : String)
  | noModel (id : String)
  | credentials (missing : MissingCredentials)
  deriving DecidableEq, Repr

def Unready.message : Unready → String
  | .unknown id => "provider '" ++ id ++ "' is not configured"
  | .inactive id => "provider '" ++ id ++ "' is inactive"
  | .noUrl id => "provider '" ++ id ++ "' has no url"
  | .noModel id => "provider '" ++ id ++ "' has no model"
  | .credentials missing => missing.message

/-- Whether the provider of that id can be asked. -/
def Config.readiness (cfg : Config) (env : Environment) (id : String) : Except Unready Unit :=
  match cfg.provider? id with
  | none => .error (.unknown id)
  | some p =>
    if !p.active then .error (.inactive id)
    else if Text.isAllBlank p.url then .error (.noUrl id)
    else if Text.isAllBlank p.model then .error (.noModel id)
    else
      match p.checkCredentials env with
      | .ok () => .ok ()
      | .error missing => .error (.credentials missing)

/-- The provider of that id, asked for another model when one is given. -/
def Config.providerFor? (cfg : Config) (id : String) (model : Option String) :
    Option Provider :=
  (cfg.provider? id).map fun p => { p with model := model.getD p.model }

end IndexingPipeline
