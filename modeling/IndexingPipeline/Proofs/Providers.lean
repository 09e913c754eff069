import IndexingPipeline.Proofs.Outcome
import IndexingPipeline.Proofs.Rulings

/-!
# Which providers are called

A run settles on its provider before it opens a revision, and keeps to it. A provider that is asked
for a token or for vectors is active, has an address, and its credentials are there, whatever
settings the run was lent. Its model is that of the settings, else that of the policy, else its own.
Only its own is looked at when it is settled on: a model that is put in its place may be blank.
-/

namespace IndexingPipeline

/-- A provider that may be asked for vectors, whatever its model. -/
structure Provider.Usable (env : Environment) (p : Provider) : Prop where
  active : p.active = true
  url : Text.isAllBlank p.url = false
  credentials : p.checkCredentials env = .ok ()

/-- A provider that is ready is usable and has a model of its own. -/
theorem Config.readiness_spec {cfg : Config} {env : Environment} {id : String}
    (ready : cfg.readiness env id = .ok ()) :
    ∃ p, cfg.provider? id = some p ∧ p.Usable env ∧ Text.isAllBlank p.model = false := by
  unfold readiness at ready
  split at ready
  · cases ready
  · rename_i p found
    by_cases inactive : (!p.active) = true
    · simp [inactive] at ready
    by_cases noUrl : Text.isAllBlank p.url = true
    · simp [inactive, noUrl] at ready
    by_cases noModel : Text.isAllBlank p.model = true
    · simp [inactive, noUrl, noModel] at ready
    simp only [inactive, noUrl, noModel, Bool.false_eq_true, if_false] at ready
    split at ready
    · rename_i credentials
      exact ⟨p, found, ⟨by simpa using inactive, by simpa using noUrl, credentials⟩,
        by simpa using noModel⟩
    · cases ready

/-! ## Tokens -/

/-- Credentials are missing before an endpoint is asked, and never because of its answer. -/
theorem grantOf_not_missing (answer : Except ExchangeError Response) (m : MissingCredentials) :
    grantOf answer ≠ .error (.missing m) := by
  unfold grantOf
  split
  · simp
  · simp
  · split
    · simp
    · split
      · simp
      · split <;> simp

theorem Provider.Usable.credentials_found {env : Environment} {p : Provider} (h : p.Usable env)
    {name : String} (named : p.auth.envName? = some name) :
    ∃ value, env.credentials p.id name = .ok value := by
  have credentials := h.credentials
  unfold checkCredentials at credentials
  rw [named] at credentials
  cases found : env.credentials p.id name with
  | error e => simp [found, Except.map] at credentials
  | ok value => exact ⟨value, rfl⟩

/-- A provider whose credentials are there is not refused for want of them. -/
theorem Provider.Usable.not_missing {env : Environment} {p : Provider} (h : p.Usable env)
    (desk : TokenDesk) (wall steady : Int) (requestId : String) (m : MissingCredentials) :
    (desk.access env wall steady requestId p).1 ≠ .refused (.missing m) := by
  unfold TokenDesk.access
  cases auth : p.auth with
  | none => simp
  | key name =>
    have named : p.auth.envName? = some name := by rw [auth]; rfl
    obtain ⟨value, found⟩ := h.credentials_found named
    simp [found]
  | token url name scope =>
    have named : p.auth.envName? = some name := by rw [auth]; rfl
    obtain ⟨value, found⟩ := h.credentials_found named
    simp only [found]
    split
    · simp
    · unfold TokenDesk.fetch
      simp only
      split
      · rename_i e refused
        intro same
        obtain rfl : e = .missing m := by simpa using same
        exact grantOf_not_missing _ m refused
      · split <;> simp

/-! ## Plans -/

namespace Run

variable {s : Setup} {job : Job} {w w' : World} {r r' : Run}

/-- The provider of a plan is the one that the policy names, usable, with the policy's model in
the place of its own. -/
theorem plan_spec {env : Environment} {settings : RunSettings} {policy : Policy}
    {provider : Provider} (planned : plan s env job settings = .ok (policy, provider)) :
    policy = Policy.merged s.config job.baseId settings ∧
      ∃ own, s.config.provider? policy.providerId = some own ∧
        provider = { own with model := policy.model.getD own.model } ∧
        provider.Usable env ∧ Text.isAllBlank own.model = false := by
  unfold plan at planned
  split at planned
  · cases planned
  rename_i policy' effective
  split at planned
  · cases planned
  rename_i ready
  obtain ⟨own, found, usable, modelled⟩ := Config.readiness_spec ready
  simp only [Config.providerFor?, found, Option.map_some, Except.ok.injEq, Prod.mk.injEq] at planned
  obtain ⟨rfl, rfl⟩ := planned
  refine ⟨?_, own, found, rfl, ⟨usable.active, usable.url, usable.credentials⟩, modelled⟩
  unfold Policy.effective at effective
  simp only at effective
  split at effective
  · cases effective
  · split at effective <;> cases effective
    rfl

/-- Nothing that a run or others do changes the environment. -/
theorem Move.env_kept (m : Move s r w r' w') : w'.env = w.env := by
  have embedded : ∀ (p : Provider) (token : Option String) (text : String),
      (w.embed s p token text).2.env = w.env := by
    intro p token text
    unfold World.embed
    split
    · rfl
    · have interfered : ∀ (is : List Interference) (v : World),
          (is.foldl (World.interfere s.config) v).env = v.env := by
        intro is
        induction is with
        | nil => exact fun _ => rfl
        | cons i rest ih =>
          intro v
          rw [List.foldl_cons, ih]
          cases i <;> rfl
      exact interfered _ _
  cases m with
  | kept | mismatched | unembedded | unaccepted => exact embedded _ _ _
  | @ensured job _ _ d | @unensured job _ _ d =>
    unfold World.ensureCollection
    split <;> rfl
  | @written job _ _ d batch | @unwritten job _ _ d batch =>
    unfold World.writePoints
    split <;> rfl
  | cleaned =>
    unfold World.deletePoints
    split <;> rfl
  | _ => rfl

/-- A run that found the world in `w₀` goes by the settings that it was lent at its first look. -/
structure Lent (s : Setup) (job : Job) (w₀ : World) (r : Run) (w : World) : Prop where
  same_job : r.job = job
  env : w.env = w₀.env
  start : r.stage = .looking → w = w₀
  lent : ∀ settings, r.stage = .locking settings ∨ r.stage = .opening settings →
    (look s job w₀).1 = .locking settings
  planned : ∀ d, r.stage.draft? = some d → ∃ settings,
    (look s job w₀).1 = .locking settings ∧
      plan s w₀.env job settings = .ok (d.policy, d.provider)

namespace Lent

variable {w₀ : World}

theorem start_run (s : Setup) (job : Job) (w₀ : World) : Lent s job w₀ (.start job) w₀ where
  same_job := rfl
  env := rfl
  start := fun _ => rfl
  lent := by
    rintro settings (stage | stage) <;> cases stage
  planned := by
    intro d draft
    cases draft

/-- No move changes the settings, the policy or the provider. -/
theorem move (h : Lent s job w₀ r w) (m : Move s r w r' w') : Lent s job w₀ r' w' := by
  obtain ⟨own, same, start, lent, planned⟩ := h
  refine ⟨m.same_job.trans own, m.env_kept.trans same, fun looking => absurd looking m.looked,
    ?_, ?_⟩
  · intro settings stage
    have looks : ∀ lent, r.stage = .looking → r'.stage = .locking lent →
        (look s r.job w).1 = .locking lent → (look s job w₀).1 = .locking settings := by
      intro lent looking locking looked
      have : lent = settings := by
        rcases stage with stage | stage <;> rw [locking] at stage <;> cases stage
        rfl
      rwa [← start looking, ← own, ← this]
    cases m with
    | free latest => exact looks {} rfl rfl (by simp only [look, latest])
    | watched a latest status => exact looks _ rfl rfl (by simp only [look, latest, status])
    | ended a latest status =>
      refine looks {} rfl rfl ?_
      rcases status with status | status <;> simp only [look, latest, status]
    | locked =>
      rcases stage with stage | stage <;> cases stage
      exact lent _ (.inl rfl)
    | @refreshed _ holder => cases holder <;> rcases stage with stage | stage <;> cases stage
    | _ => rcases stage with stage | stage <;> cases stage
  · intro d draft
    cases m with
    | opened settings policy provider plans =>
      cases draft
      exact ⟨settings, lent settings (.inr rfl), by rwa [← same, ← own]⟩
    | chunked e | authorized e | kept e =>
      cases draft
      exact planned e rfl
    | @refreshed _ holder => cases holder <;> cases draft
    | _ => first | (cases draft; exact planned _ rfl) | cases draft

end Lent

end Run

/-- Whatever settings the action under way lends a run, and after any number of its steps: the
provider that it has settled on is the one that the settings or else the policy name, active, with
an address, and with its credentials in the environment, which is what it was; a token for it is
never refused for want of credentials. Its model is the one that the settings, else the policy, put
in the place of its own, which is not blank; so it is blank only where that one is. -/
theorem providers_usable (s : Setup) (w : World) (job : Job) (n : Nat) (d : Draft)
    (drafted : (Run.steps s n (.start job) w).1.stage.draft? = some d) :
    let v := (Run.steps s n (.start job) w).2
    v.env = w.env ∧
    (∃ settings own, (Run.look s job w).1 = .locking settings ∧
      s.config.provider? (settings.providerId.getD s.config.policy.providerId) = some own ∧
      d.provider =
        { own with model := (settings.model.or s.config.policy.model).getD own.model } ∧
      Text.isAllBlank own.model = false ∧
      (Text.isAllBlank d.provider.model = true ↔
        ∃ model, settings.model.or s.config.policy.model = some model ∧
          Text.isAllBlank model = true)) ∧
    d.provider.active = true ∧ Text.isAllBlank d.provider.url = false ∧
    d.provider.checkCredentials v.env = .ok () ∧
    ∀ m, (v.accessToken d.provider).1 ≠ .refused (.missing m) := by
  intro v
  have lent := Run.steps_keeps (I := Run.Lent s job w) (fun _ _ _ _ h m => h.move m) n
    (Run.Lent.start_run s job w)
  have env : v.env = w.env := lent.env
  obtain ⟨settings, looked, planned⟩ := lent.planned d drafted
  obtain ⟨merged, own, found, provider, usable, modelled⟩ := Run.plan_spec planned
  rw [merged] at found provider
  rw [← env] at usable
  refine ⟨env, ⟨settings, own, looked, found, provider, modelled, ?_⟩, usable.active, usable.url,
    usable.credentials, fun m => usable.not_missing v.desk v.now v.steady _ m⟩
  rw [provider]
  unfold Policy.merged
  cases settings.model.or s.config.policy.model with
  | none => simp [modelled]
  | some model => simp

namespace Sample

/-- A worker whose policy puts a model of two blanks in the place of the provider's own. -/
def unmodelled : Setup :=
  { setup with config := { setup.config with policy := { providerId := "p", model := some "  " } } }

end Sample

theorem providers_usable_sample :
    ∃ d, (Run.steps Sample.setup 7 (.start Sample.job) Sample.world).1.stage.draft? = some d ∧
      d.provider.active = true ∧ Text.isAllBlank d.provider.url = false := by
  have drafted : (Run.steps Sample.setup 7 (.start Sample.job)
      Sample.world).1.stage.draft?.isSome = true := by decide +kernel
  obtain ⟨d, draft⟩ := Option.isSome_iff_exists.mp drafted
  obtain ⟨_, _, active, url, _⟩ := providers_usable Sample.setup Sample.world Sample.job 7 d draft
  exact ⟨d, draft, active, url⟩

/-- The configuration is accepted, the provider is asked for a vector under a blank model, and the
job is completed. -/
theorem blank_model_called :
    Sample.unmodelled.config.check = .ok () ∧
      (Run.steps Sample.unmodelled 8 (.start Sample.job) Sample.world).2.notes =
        [.asked "p" "  " none "hello world"] ∧
      (Sample.world.process Sample.unmodelled Sample.job).1 =
        some (.completed (Identifier.ofNat 2) none 1 (some 0)) := by
  refine ⟨by decide, by decide +kernel, ?_⟩
  have ended : (Run.steps Sample.unmodelled 16 (.start Sample.job)
      Sample.world).1.stage.isOver = true := by decide +kernel
  unfold World.process
  rw [Run.complete_eq_steps 16 ended]
  decide +kernel

end IndexingPipeline
