import IndexingPipeline.Proofs.Rulings

/-!
# The jobs that an action governs

A run that looks at the latest action of its job's base does not compare moments, so that the action
may rule a job that it does not count. Jobs that are claimed are among those it counts all the same,
as long as each action is started when no older job of its base waits or is under way, and the
clock does not go back.
-/

namespace IndexingPipeline

/-- What the clock says when another party has done something. -/
def Interference.clock (now : Int) : Interference → Int
  | .advance ms => wrap64 (now + ms)
  | _ => now

/-- The clock does not go back while others do one thing after another. -/
def Forward : Int → List Interference → Prop
  | _, [] => True
  | now, i :: rest => now ≤ i.clock now ∧ Forward (i.clock now) rest

instance : (now : Int) → (is : List Interference) → Decidable (Forward now is)
  | _, [] => inferInstanceAs (Decidable True)
  | now, i :: rest =>
    have := instDecidableForward (i.clock now) rest
    inferInstanceAs (Decidable (_ ∧ _))

theorem Forward.beside {now : Int} {is rest : List Interference}
    (still : ∀ i ∈ is, ∀ now, i.clock now = now) (forward : Forward now rest) :
    Forward now (is ++ rest) := by
  induction is with
  | nil => exact forward
  | cons i is ih =>
    have here := still i List.mem_cons_self now
    refine ⟨Int.le_of_eq here.symm, ?_⟩
    rw [here]
    exact ih fun j later => still j (List.mem_cons_of_mem i later)

def Interference.movesClock : Interference → Bool
  | .advance _ => true
  | _ => false

/-- Every job of a kind was of that kind before, or has been added since. -/
def Queue.Stems (p : Job → Prop) (since : Int) (q q' : Queue) : Prop :=
  ∀ j ∈ q', p j → (∃ i ∈ q, p i ∧ i.SameRequest j) ∨ since ≤ j.createdAt

namespace Queue.Stems

variable {p : Job → Prop} {q : Queue}

theorem refl (since : Int) (q : Queue) : q.Stems p since q :=
  fun j member kind => .inl ⟨j, member, kind, .refl j⟩

theorem of_map (since : Int) {f : Job → Job} (same : ∀ j ∈ q, j.SameRequest (f j))
    (kinds : ∀ j ∈ q, p (f j) → p j) : q.Stems p since (q.map f) := by
  intro k member kind
  obtain ⟨j, there, rfl⟩ := List.mem_map.mp member
  exact .inl ⟨j, there, kinds j there kind, same j there⟩

theorem of_update (since : Int) {id : String} {f : Job → Job}
    (same : ∀ j : Job, j.SameRequest (f j)) (kinds : ∀ j ∈ q, j.id = id → p (f j) → p j) :
    q.Stems p since (q.update id f) := by
  refine of_map since (fun j _ => .choose same _ j) ?_
  intro j member kind
  split at kind
  · exact kinds j member ‹_› kind
  · exact kind

/-- A job that is asked for is added now, unless one waits already. -/
theorem of_enqueue (kinds : ∀ (j : Job) version moment,
    p { j with versionId := version, updatedAt := moment } → p j)
    (now : Int) (newId workspace base document version : String) :
    q.Stems p now (q.enqueue now newId workspace base document version).2 := by
  rcases q.enqueue_cases now newId workspace base document version with
    ⟨j, _, pointed⟩ | ⟨_, added⟩
  · rw [pointed]
    exact of_update now (.pointedAt version now) fun i _ _ => kinds i version now
  · rw [added]
    intro k member kind
    rcases List.mem_append.mp member with old | new
    · exact .inl ⟨k, old, kind, .refl k⟩
    · rw [List.mem_singleton.mp new]
      exact .inr (Int.le_refl now)

end Queue.Stems

namespace World

/-- No action was started later than now, and none that is the latest of its base was started later
than a job of that base which is of a kind. -/
structure Covered (p : Job → Prop) (w : World) : Prop where
  started : ∀ a ∈ w.db.actions, a.createdAt ≤ w.now
  jobs : ∀ j ∈ w.db.jobs, p j → ∀ a,
    w.db.actions.latest? j.workspaceId j.baseId = some a → a.createdAt ≤ j.createdAt

variable {s : Setup} {w w' : World} {p p' : Job → Prop}

theorem Covered.later (h : w.Covered p) (clock : w.now ≤ w'.now)
    (actions : w.db.actions.Onward (fun _ => True) w'.db.actions)
    (jobs : w.db.jobs.Stems p w.now w'.db.jobs) : w'.Covered p := by
  constructor
  · obtain ⟨f, rows, same⟩ := actions
    intro b member
    rw [rows] at member
    obtain ⟨a, there, rfl⟩ := List.mem_map.mp member
    rw [(same a there).1.created]
    exact Int.le_trans (h.started a there) clock
  · intro j member kind b latest
    obtain ⟨a, before, same, _⟩ := actions.latest? latest
    rw [same.created]
    rcases jobs j member kind with ⟨i, there, kind, request⟩ | added
    · rw [request.created]
      refine h.jobs i there kind a ?_
      rwa [request.workspace, request.base] at before
    · exact Int.le_trans (h.started a (Actions.latest?_spec before).1) added

theorem Covered.inside (h : w.Covered p) (same : w.SameInside w') : w'.Covered p := by
  refine h.later (Int.le_of_eq same.now.symm) ?_ ?_
  · rw [same.db]
    exact .refl _
  · rw [same.db]
    exact .refl w.now _

/-- A claimed job of a kind is one that the latest action of its base counts. -/
theorem Covered.includes (h : w.Covered p) {j : Job} (member : j ∈ w.db.jobs) (kind : p j)
    {a : Action} (latest : w.db.actions.latest? j.workspaceId j.baseId = some a) :
    a.scope.includes j = true := by
  have since := h.jobs j member kind a latest
  obtain ⟨_, workspace, base⟩ := Actions.latest?_spec latest
  simp [Action.scope, JobScope.includes, workspace, base, since]

theorem Covered.mono (h : w.Covered p) (kinds : ∀ j ∈ w.db.jobs, p' j → p j) : w.Covered p' :=
  ⟨h.started, fun j member kind => h.jobs j member (kinds j member kind)⟩

/-- No turn of a provider takes the clock back, and its usual turn leaves it alone. -/
def Steady (w : World) : Prop :=
  Forward w.now (w.turns.flatMap (·.meanwhile)) ∧
    ∀ i ∈ w.usualTurn.meanwhile, i.movesClock = false

instance (w : World) : Decidable w.Steady := inferInstanceAs (Decidable (_ ∧ _))

theorem interfere_clock (cfg : Config) (i : Interference) :
    (w.interfere cfg i).now = i.clock w.now := by
  cases i <;> rfl

section Kept

variable (kinds : ∀ (j : Job) version moment,
  p { j with versionId := version, updatedAt := moment } → p j)
include kinds

theorem Covered.interfere (h : w.Covered p) (once : w.db.actions.ids.Nodup) (cfg : Config)
    {i : Interference} (clock : w.now ≤ i.clock w.now) : (w.interfere cfg i).Covered p := by
  refine h.later (interfere_clock cfg i ▸ clock) ?_ ?_
  · exact interfere_onward cfg once fun _ _ => trivial
  · cases i with
    | submit workspace base document version body => exact .of_enqueue kinds w.now _ _ _ _ _
    | advance | control | lock => exact .refl w.now _

theorem Covered.interfereAll (h : w.Covered p) (once : w.db.actions.ids.Nodup) (cfg : Config)
    {is rest : List Interference} (forward : Forward w.now (is ++ rest)) :
    let v := is.foldl (World.interfere cfg) w
    v.Covered p ∧ Forward v.now rest ∧ v.turns = w.turns ∧ v.usualTurn = w.usualTurn := by
  induction is generalizing w with
  | nil => exact ⟨h, forward, rfl, rfl⟩
  | cons i is ih =>
    obtain ⟨clock, forward⟩ := forward
    have onward : w.db.actions.Onward (fun _ => True) (w.interfere cfg i).db.actions :=
      interfere_onward cfg once fun _ _ => trivial
    obtain ⟨covered, later, turns, usual⟩ := ih (h.interfere kinds once cfg clock)
      (onward.ids ▸ once) (interfere_clock cfg i ▸ forward)
    refine ⟨covered, later, turns.trans ?_, usual.trans ?_⟩
    · cases i <;> rfl
    · cases i <;> rfl

/-- While a provider is at work no action is left behind by a job that is added. -/
theorem Covered.embed (h : w.Covered p) (once : w.db.actions.ids.Nodup) (steady : w.Steady)
    (s : Setup) (provider : Provider) (token : Option String) (text : String) :
    (w.embed s provider token text).2.Covered p ∧ (w.embed s provider token text).2.Steady := by
  obtain ⟨forward, still⟩ := steady
  unfold World.embed
  split
  · exact ⟨⟨h.started, h.jobs⟩, forward, still⟩
  · let asked : World := { w with
      turns := w.turns.drop 1, notes := w.notes ++ [.asked provider.id provider.model token text] }
    have covered : asked.Covered p := ⟨h.started, h.jobs⟩
    have turn : Forward asked.now ((w.turns.headD w.usualTurn).meanwhile ++
        asked.turns.flatMap (·.meanwhile)) := by
      cases turns : w.turns with
      | nil =>
        refine Forward.beside ?_ ?_
        · intro i member now
          have unmoved := still i member
          cases i <;> first | rfl | cases unmoved
        · simp [asked, turns, Forward]
      | cons t rest => simpa [asked, turns] using forward
    obtain ⟨covered, later, turns, usual⟩ := covered.interfereAll kinds once s.config turn
    refine ⟨covered, turns ▸ later, fun i member => still i ?_⟩
    rwa [usual] at member

end Kept

end World

namespace Run

/-- The jobs that a run has to do with: those that wait or are under way, and its own even when that
has ended. -/
def Concerns (r : Run) (j : Job) : Prop := j.isActive = true ∨ j.id = r.job.id

/-- A run, and the latest action of every base counts the jobs that it has to do with. -/
structure Governed (r : Run) (w : World) : Prop where
  once : w.db.actions.ids.Nodup
  covered : w.Covered r.Concerns
  steady : w.Steady

theorem Governed.move {s : Setup} {r r' : Run} {w w' : World} (h : r.Governed w)
    (m : Move s r w r' w') : r'.Governed w' := by
  have onward : w.db.actions.Onward (fun _ => True) w'.db.actions :=
    m.onward h.once fun _ _ _ _ _ _ => trivial
  have beside : w'.now = w.now → w'.turns = w.turns → w'.usualTurn = w.usualTurn →
      w.db.jobs.Stems r.Concerns w.now w'.db.jobs →
      w'.Covered r.Concerns ∧ w'.Steady := by
    intro clock turns usual jobs
    refine ⟨h.covered.later (Int.le_of_eq clock.symm) onward jobs, ?_, ?_⟩
    · rw [clock, turns]
      exact h.steady.1
    · rw [usual]
      exact h.steady.2
  have outside : w.SameInside w' → w'.Covered r.Concerns ∧ w'.Steady := by
    intro same
    refine beside same.now same.turns same.usualTurn ?_
    rw [same.db]
    exact .refl w.now _
  -- a run changes the row of its own job, and nothing that was fixed when that was added
  have own : ∀ f : Job → Job, (∀ j : Job, j.SameRequest (f j)) →
      w.db.jobs.Stems r.Concerns w.now (w.db.jobs.update r.job.id f) :=
    fun f same => .of_update w.now same fun _ _ here _ => .inr here
  have kinds : ∀ (j : Job) version moment,
      r.Concerns { j with versionId := version, updatedAt := moment } → r.Concerns j :=
    fun _ _ _ kind => kind
  have kept : w'.Covered r.Concerns ∧ w'.Steady := by
    cases m with
    | kept | mismatched | unembedded =>
      exact h.covered.embed kinds h.once h.steady s _ _ _
    | unaccepted d c left body =>
      obtain ⟨covered, steady⟩ := h.covered.embed kinds h.once h.steady s d.provider d.token c.text
      exact ⟨⟨covered.started, covered.jobs⟩, steady⟩
    | deferred | final | switched =>
      exact beside rfl rfl rfl (own _ fun _ => ⟨rfl, rfl, rfl, rfl, rfl⟩)
    | retried e attempts moment jobs retryable retry =>
      obtain ⟨_, _, rfl⟩ := Queue.update_of_rescheduled retry
      exact beside rfl rfl rfl (own _ fun _ => ⟨rfl, rfl, rfl, rfl, rfl⟩)
    | exhausted e attempts jobs retryable retry =>
      obtain ⟨_, rfl⟩ := Queue.update_of_exhausted retry
      exact beside rfl rfl rfl (own _ fun _ => ⟨rfl, rfl, rfl, rfl, rfl⟩)
    | ensured | unensured => exact outside (w.ensureCollection_inside s _ _)
    | written | unwritten => exact outside (w.writePoints_inside s _ _)
    | cleaned => exact outside (w.deletePoints_inside s _ _)
    | _ => exact beside rfl rfl rfl (.refl _ _)
  have same : r'.Concerns = r.Concerns := by
    unfold Concerns
    rw [m.same_job]
  exact ⟨onward.ids ▸ h.once, same ▸ kept.1, kept.2⟩

end Run

namespace World

variable {s : Setup} {w : World}

/-- No action is started that is younger than a job of its base which waits or is under way, and
the clock does not go back. -/
def InOrder (w : World) : Incident → Prop
  | .op (.start workspace base _) => ∀ j ∈ w.db.jobs, j.workspaceId = workspace →
      j.baseId = base → j.isActive = true → w.now ≤ j.createdAt
  | .op (.interfere i) => w.now ≤ i.clock w.now
  | .op (.outside elsewhere) => w.now ≤ elsewhere.now
  | .op .poll => w.Steady
  | .death _ => w.Steady
  | _ => True

instance (w : World) : (x : Incident) → Decidable (w.InOrder x)
  | .op (.start _ _ _) => inferInstanceAs (Decidable (∀ j ∈ _, _ → _ → _ → _))
  | .op (.interfere _) | .op (.outside _) => inferInstanceAs (Decidable (_ ≤ _))
  | .op .poll | .death _ => inferInstanceAs (Decidable w.Steady)
  | .op (.put _ _ _ _ _) | .op (.enqueue _ _ _ _) | .op (.inject _ _) | .op .sweep =>
    inferInstanceAs (Decidable True)

/-- The latest action of every base counts all of its jobs that wait or are under way. -/
structure Watched (w : World) : Prop where
  sound : w.Sound
  rostered : w.Rostered
  covered : w.Covered (·.isActive = true)

/-- Housekeeping and a claim put jobs of before back or under way. -/
theorem Watched.claimed (h : w.Watched) (s : Setup) :
    (w.housekeeping s.config).claim.2.Covered (·.isActive = true) := by
  let q := (w.db.jobs.recover s.config.worker w.now).2
  have recovered : w.db.jobs.Stems (·.isActive = true) w.now q := by
    refine .of_map w.now (fun j _ => .choose (.recovered s.config.worker w.now) _ j) ?_
    intro j _ active
    exact Job.isActive_iff.mpr (Queue.open_of_tended (Job.isActive_iff.mp active)).1
  have kept : (w.housekeeping s.config).Covered (·.isActive = true) :=
    h.covered.later (Int.le_refl _) (w.claimed_onward s h.rostered.once) recovered
  have once : q.ids.Nodup := by
    rw [Queue.ids_recover]
    exact h.sound.jobs_once
  refine kept.later (Int.le_refl _) (.refl _) ?_
  change q.Stems _ w.now (q.claim w.now).2
  rcases q.claim_cases w.now with nothing | ⟨j, there, waits, _, taken⟩
  · rw [nothing]
    exact .refl w.now q
  · rw [taken]
    refine .of_update w.now (.taken w.now) ?_
    intro i member same _
    obtain rfl := List.inj_on_of_nodup_map once member there same
    simp [Job.isActive, waits]

theorem Watched.start (h : w.Watched) {job : Job}
    (claimed : (w.housekeeping s.config).claim.1 = some job) :
    let v := (w.housekeeping s.config).claim.2
    (∀ j ∈ v.db.jobs, (Run.start job).Concerns j → j.isActive = true) ∧
      ∀ a, v.db.actions.latest? job.workspaceId job.baseId = some a →
        a.scope.includes job = true := by
  intro v
  have kept := (w.housekeeping_around s.config).sound h.sound
  have once : v.db.jobs.ids.Nodup := ((claim_around _).sound kept).jobs_once
  obtain ⟨row, processing⟩ := claim_claimed _ kept claimed
  have there := (Queue.mem_of_job? row).1
  have active : job.isActive = true := by simp [Job.isActive, processing]
  refine ⟨?_, fun a latest => (h.claimed s).includes there active latest⟩
  rintro j member (waits | same)
  · exact waits
  · obtain rfl := List.inj_on_of_nodup_map once member there same
    exact active

/-- Whatever happens in order leaves the jobs that wait or are under way counted. -/
theorem Watched.incur (h : w.Watched) {x : Incident} (order : w.InOrder x) :
    (w.incur s x).Watched := by
  refine ⟨h.sound.incur s x, h.rostered.incur s x, ?_⟩
  have attended : w.Steady → (w.perform s .poll).Covered (·.isActive = true) ∧
      ∀ n, (w.incur s (.death n)).Covered (·.isActive = true) := by
    intro steady
    refine attend_keeps (I := Run.Governed) (J := Covered (·.isActive = true)) (h.claimed s) ?_
      (fun _ _ _ _ governed m => governed.move m)
      (fun _ _ governed => governed.covered.mono fun _ _ => .inl)
    intro job claimed
    have onward : w.db.actions.Onward (fun _ => True) _ := w.claimed_onward s h.rostered.once
    exact ⟨onward.ids ▸ h.rostered.once, (h.claimed s).mono (h.start claimed).1, steady⟩
  have kinds : ∀ (j : Job) (version : String) (moment : Int),
      Job.isActive { j with versionId := version, updatedAt := moment } = true →
        j.isActive = true := fun _ _ _ active => active
  cases x with
  | death n => exact (attended order).2 n
  | op o =>
    change (w.perform s o).Covered (·.isActive = true)
    cases o with
    | put | inject => exact ⟨h.covered.started, h.covered.jobs⟩
    | enqueue =>
      exact h.covered.later (Int.le_refl _) (.refl _) (.of_enqueue kinds w.now _ _ _ _ _)
    | start workspace base settings =>
      constructor
      · intro a member
        rcases List.mem_append.mp member with old | new
        · exact h.covered.started a old
        · rw [List.mem_singleton.mp new]
          exact Int.le_refl w.now
      · intro j member active a latest
        rcases Actions.latest?_started w.db.actions (Action.fresh s.config.actions w.now
          (Identifier.ofNat w.drawn) workspace base settings) j.workspaceId j.baseId with
          ⟨new, own, own'⟩ | same
        · obtain rfl := Option.some.inj (new.symm.trans latest)
          exact order j member own.symm own'.symm active
        · exact h.covered.jobs j member active a (same.symm.trans latest)
    | interfere i => exact h.covered.interfere kinds h.rostered.once s.config order
    | outside elsewhere => exact h.covered.later order (.refl _) (.refl w.now _)
    | poll => exact (attended order).1
    | sweep =>
      refine sweepAll_preserves (I := Covered (·.isActive = true)) ?_ _ _ h.covered
      exact fun v name f covered => covered.inside (v.deletePoints_inside s name f)

end World

/-- The latest action of a job's base governs its run by a ruling that the run goes under from its
first look on, and by nothing else: with other actions, or none, of which the latest has the same
ruling or none as well, the job has the same outcome and leaves the same behind. A job that is
claimed is one that the latest action counts, as long as each action is started when no older job
of its base waits or is under way and the clock does not go back. -/
theorem action_governs (s : Setup) :
    (∀ (w : World) (job : Job),
      let ruling := (w.db.actions.latest? job.workspaceId job.baseId).bind Action.ruling?
      (∀ x, (∃ n, (Run.steps s n (.start job) w).1.stage.ruling? = some x) ↔ ruling = some x) ∧
      ∀ as : Actions, (as.latest? job.workspaceId job.baseId).bind Action.ruling? = ruling →
        ((w.withActions as).process s job).1 = (w.process s job).1 ∧
          ∃ as', ((w.withActions as).process s job).2 = (w.process s job).2.withActions as') ∧
    ∀ (now : Int) (env : Environment) (peer : Peer) (xs : List Incident),
      (World.initial now env peer).Along s World.InOrder xs →
      let w := ((World.initial now env peer).incurAll s xs).housekeeping s.config
      ∀ job a, w.claim.1 = some job →
        w.claim.2.db.actions.latest? job.workspaceId job.baseId = some a →
        a.scope.includes job = true := by
  constructor
  · intro w job ruling
    refine ⟨fun x => ⟨?_, ?_⟩, ?_⟩
    · rintro ⟨n, ruled⟩
      exact Run.steps_ruling s n job w ruled
    · intro ruled
      exact ⟨1, (Run.look_ruling s job w).trans ruled⟩
    · intro as same
      refine w.process_withActions s job as ?_
      rw [Run.look_eq, Run.look_eq]
      exact congrArg (Run.goesOn s w.now) same
  · intro now env peer xs order w job a claimed latest
    have start : (World.initial now env peer).Watched := by
      refine ⟨World.initial_sound now env peer, World.initial_rostered now env peer, ?_, ?_⟩
      · intro a member
        cases member
      · intro j member
        cases member
    have watched := World.incurAll_keeps (fun _ _ h order => h.incur order) start order
    exact (watched.start claimed).2 a latest

namespace Sample

/-- A worker is dead in the midst of the run, long before another looks for jobs. -/
def abandoned : List Incident := watched ++ [.death 5, .op (.interfere (.advance 1800001))]

theorem abandoned_inOrder :
    World.Along setup World.InOrder (World.initial 1000 [] {}) abandoned :=
  ⟨by decide +kernel, by decide +kernel, by decide +kernel, by decide +kernel, by decide +kernel,
    trivial⟩

/-- A job waits when an action of its base is started, which is canceled at once. -/
def outdated : World :=
  ((World.initial 1000 [] {}).incurAll setup
    [.op (.outside { World.initial 1000 [] {} with usualTurn := turn }),
      .op (.interfere (.submit "w" "b" "d" "v1" "hello world")), .op (.interfere (.advance 1)),
      .op (.start "w" "b" {}), .op (.interfere (.control (Identifier.ofNat 1) .cancel))]
    ).housekeeping setup.config

end Sample

theorem action_governs_sample :
    let w := ((World.initial 1000 [] {}).incurAll Sample.setup Sample.abandoned).housekeeping
      Sample.setup.config
    ∃ job a, w.claim.1 = some job ∧
      w.claim.2.db.actions.latest? job.workspaceId job.baseId = some a ∧
      job.attempts = 1 ∧ a.scope.includes job = true := by
  intro w
  have there : (w.claim.1.any fun job => job.attempts = 1 &&
      (w.claim.2.db.actions.latest? job.workspaceId job.baseId).isSome) = true := by decide +kernel
  obtain ⟨job, claimed, counted⟩ := (Option.any_eq_true _ _).mp there
  obtain ⟨tried, found⟩ := Bool.and_eq_true_iff.mp counted
  obtain ⟨a, latest⟩ := Option.isSome_iff_exists.mp found
  exact ⟨job, a, claimed, latest, of_decide_eq_true tried,
    (action_governs Sample.setup).2 1000 [] {} Sample.abandoned Sample.abandoned_inOrder job a
      claimed latest⟩

/-- A job that is older than the latest action of its base is failed since that is canceled,
although the action does not count it, and with no action it would be completed. -/
theorem action_governs_older :
    ∃ job a, Sample.outdated.claim.1 = some job ∧
      Sample.outdated.claim.2.db.actions.latest? job.workspaceId job.baseId = some a ∧
      a.scope.includes job = false ∧
      (Sample.outdated.claim.2.process Sample.setup job).1 =
        some (.failed ("canceled: action " ++ a.id ++ " was canceled")) ∧
      ((Sample.outdated.claim.2.withActions []).process Sample.setup job).1 =
        some (.completed (Identifier.ofNat 3) none 1 (some 0)) := by
  let job := Sample.outdated.claim.1.getD default
  let free := Sample.outdated.claim.2.withActions []
  have claimed : Sample.outdated.claim.1 = some job := by decide +kernel
  have ended : (Run.steps Sample.setup 16 (.start job) Sample.outdated.claim.2).1.stage.isOver =
      true := by decide +kernel
  have ended' : (Run.steps Sample.setup 16 (.start job) free).1.stage.isOver = true := by
    decide +kernel
  have governed : (Sample.outdated.claim.2.db.actions.latest? job.workspaceId job.baseId).any
      (fun a => a.scope.includes job = false && a.id = Identifier.ofNat 1) = true := by
    decide +kernel
  obtain ⟨a, latest, outside⟩ := (Option.any_eq_true _ _).mp governed
  simp only [Bool.and_eq_true, decide_eq_true_eq] at outside
  refine ⟨job, a, claimed, latest, outside.1, ?_, ?_⟩
  · rw [outside.2]
    unfold World.process
    rw [Run.complete_eq_steps 16 ended]
    decide +kernel
  · unfold World.process
    rw [Run.complete_eq_steps 16 ended']
    decide +kernel

end IndexingPipeline
