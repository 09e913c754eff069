import IndexingPipeline.Proofs.Recount

/-!
# Histories with dead workers

Beside the operations that are done one after another a history has workers that poll and are dead
after any step of their run, so that the jobs they have claimed are left behind. Whatever happens,
each action keeps its one row and what was fixed when it was started.
-/

namespace IndexingPipeline

open Identifier (Ahead ahead_ofNat)

/-- Whether another party puts an action under way again. -/
def Interference.resumes : Interference → Bool
  | .control _ .resume => true
  | _ => false

namespace World

variable {w w' : World} {may : JobScope → Prop}

/-- Every action has one row, and its identifier has been drawn. -/
structure Rostered (w : World) : Prop where
  once : w.db.actions.ids.Nodup
  drawn : ∀ id ∈ w.db.actions.ids, ¬ Ahead w.drawn id

theorem Rostered.of_ids (h : w.Rostered) (drawn : w.drawn ≤ w'.drawn)
    (ids : w'.db.actions.ids = w.db.actions.ids) : w'.Rostered where
  once := ids ▸ h.once
  drawn := fun id member ahead => h.drawn id (ids ▸ member) (ahead.mono drawn)

theorem initial_rostered (now : Int) (env : Environment) (peer : Peer) :
    (World.initial now env peer).Rostered := by
  refine ⟨List.nodup_nil, ?_⟩
  intro id member
  cases member

/-- An action that is started has an identifier that no other has. -/
theorem Rostered.started (h : w.Rostered) (cfg : Config) (workspace base : String)
    (settings : RunSettings) :
    (Command.startAction cfg w workspace base settings).2.Rostered := by
  have ids : (Command.startAction cfg w workspace base settings).2.db.actions.ids =
      w.db.actions.ids ++ [Identifier.ofNat w.drawn] := List.map_append
  constructor
  · rw [ids, List.nodup_append]
    refine ⟨h.once, List.nodup_singleton _, ?_⟩
    intro a old b new same
    rw [List.mem_singleton.mp new] at same
    exact h.drawn a old (same ▸ ahead_ofNat.mpr (Nat.le_refl _))
  · intro id member ahead
    rw [ids] at member
    rcases List.mem_append.mp member with old | new
    · exact h.drawn id old (ahead.mono (Nat.le_succ _))
    · rw [List.mem_singleton.mp new] at ahead
      exact Nat.not_succ_le_self _ (ahead_ofNat.mp ahead)

/-- Whatever another party does, no action is put under way but by resuming it. -/
theorem interfere_onward (cfg : Config) (once : w.db.actions.ids.Nodup) {i : Interference}
    (resumes : i.resumes = true → ∀ scope, may scope) :
    w.db.actions.Onward may (w.interfere cfg i).db.actions := by
  cases i with
  | control action c =>
    refine Actions.control_onward cfg.actions w.now once action c ?_
    rintro rfl a _ _
    exact resumes rfl a.scope
  | advance | submit | lock => exact .refl _

theorem embed_onward (s : Setup) (once : w.db.actions.ids.Nodup)
    (resumes : ∀ t ∈ w.usualTurn :: w.turns, ∀ i ∈ t.meanwhile, i.resumes = true →
      ∀ scope, may scope)
    (p : Provider) (token : Option String) (text : String) :
    w.db.actions.Onward may (w.embed s p token text).2.db.actions := by
  refine embed_preserves (I := fun v => w.db.actions.Onward may v.db.actions) s w p
    token text (fun _ => .refl _) (.refl _) ?_
  intro v i member onward
  exact onward.trans
    (interfere_onward s.config (onward.ids ▸ once) (resumes _ w.next_turn_mem i member))

end World

namespace Run

variable {s : Setup} {w w' : World} {r r' : Run} {may : JobScope → Prop}

/-- No move puts an action under way, unless others resume it while a provider is at work. -/
theorem Move.onward (m : Move s r w r' w') (once : w.db.actions.ids.Nodup)
    (resumes : ∀ t ∈ w.usualTurn :: w.turns, ∀ i ∈ t.meanwhile, i.resumes = true →
      ∀ scope, may scope) :
    w.db.actions.Onward may w'.db.actions := by
  have kept : .actions ∉ r.stage.writes → w.db.actions.Onward may w'.db.actions := by
    intro unwritten
    have same : w'.db.actions = w.db.actions := m.frame .actions unwritten
    rw [same]
    exact .refl _
  cases m with
  | kept | mismatched | unembedded | unaccepted =>
    exact World.embed_onward s once resumes _ _ _
  | noted reason a found => exact Actions.append_onward s.config.actions once a.id _
  | @refreshed job _ _ outcome =>
    change w.db.actions.Onward _
      (w.db.actions.refreshLatest s.config.actions w.db.jobs w.now job.workspaceId job.baseId).2
    cases latest : w.db.actions.latest? job.workspaceId job.baseId with
    | none =>
      rw [Actions.refreshLatest, latest]
      exact .refl _
    | some a =>
      rw [Actions.refreshLatest, latest]
      exact Actions.refreshFrom_onward s.config.actions w.db.jobs w.now once
        (Actions.latest?_spec latest).1
  | unnoted => exact .refl _
  | _ => exact kept (by simp [Stage.writes])

end Run

/-- What can happen to the jobs and the actions: an operation, or a worker polls and is dead after
so many steps of its run. -/
inductive Incident where
  | op (o : Operation)
  | death (steps : Nat)

namespace World

variable {s : Setup} {w : World}

/-- A worker that dies has claimed a job and done so many steps of its run. -/
def incur (s : Setup) (w : World) : Incident → World
  | .op o => w.perform s o
  | .death n =>
    match (w.housekeeping s.config).claim with
    | (none, w) => w
    | (some job, w) => (Run.steps s n (.start job) w).2

def incurAll (s : Setup) (w : World) (xs : List Incident) : World := xs.foldl (incur s) w

/-- Something is true of every incident in the world that it finds. -/
def Along (s : Setup) (p : World → Incident → Prop) (w : World) : List Incident → Prop
  | [] => True
  | x :: rest => p w x ∧ (w.incur s x).Along s p rest

variable {p : World → Incident → Prop}

theorem along_append {xs ys : List Incident} (first : w.Along s p xs)
    (second : (w.incurAll s xs).Along s p ys) : w.Along s p (xs ++ ys) := by
  induction xs generalizing w with
  | nil => exact second
  | cons x rest ih => exact ⟨first.1, ih first.2 second⟩

theorem along_ops {ops : List Operation}
    (along : w.Throughout s (fun w o => p w (.op o)) ops) : w.Along s p (ops.map .op) := by
  induction ops generalizing w with
  | nil => trivial
  | cons o rest ih => exact ⟨along.1, ih along.2⟩

theorem incurAll_keeps {I : World → Prop} (keeps : ∀ w x, I w → p w x → I (w.incur s x))
    {xs : List Incident} (start : I w) (along : w.Along s p xs) : I (w.incurAll s xs) := by
  induction xs generalizing w with
  | nil => exact start
  | cons x rest ih => exact ih (keeps w x start along.1) along.2

/-- What holds of the run of a job when it is claimed, and is kept by its moves, holds after a poll
and when the worker is dead in the midst of it. -/
theorem attend_keeps {I : Run → World → Prop} {J : World → Prop}
    (idle : J (w.housekeeping s.config).claim.2)
    (start : ∀ job, (w.housekeeping s.config).claim.1 = some job →
      I (.start job) (w.housekeeping s.config).claim.2)
    (keeps : ∀ r w r' w', I r w → Run.Move s r w r' w' → I r' w')
    (leaves : ∀ r w, I r w → J w) :
    J (w.perform s .poll) ∧ ∀ n, J (w.incur s (.death n)) := by
  constructor
  · change J (w.poll s).2
    rcases w.poll_cases s with ⟨_, ran⟩ | ⟨job, claimed, ran, _⟩
    · rw [ran]
      exact idle
    · rw [ran]
      exact leaves _ _ (Run.complete_keeps keeps _ _ (start job claimed))
  · intro n
    unfold incur
    generalize (w.housekeeping s.config).claim = answer at *
    obtain ⟨claimed, v⟩ := answer
    cases claimed with
    | none => exact idle
    | some job => exact leaves _ _ (Run.steps_keeps keeps n (start job rfl))

/-- Housekeeping and a claim leave every action what it was, and none is put under way. -/
theorem claimed_onward (s : Setup) (once : w.db.actions.ids.Nodup) {may : JobScope → Prop} :
    w.db.actions.Onward may (w.housekeeping s.config).claim.2.db.actions :=
  Actions.expire_onward s.config.actions (w.db.jobs.recover s.config.worker w.now).2 w.now once

theorem Sound.incur (h : w.Sound) (s : Setup) (x : Incident) : (w.incur s x).Sound := by
  have claimed : (w.housekeeping s.config).claim.2.Sound :=
    ((w.housekeeping_around s.config).trans (claim_around _)).sound h
  have attended := attend_keeps (I := fun r v => v.Sound ∧ r.Known v) (J := Sound) claimed
    (fun job _ => ⟨claimed, .start job _⟩)
    (fun _ _ _ _ h m => ⟨m.sound h.1 h.2, m.known h.2⟩) (fun _ _ h => h.1)
  cases x with
  | death n => exact attended.2 n
  | op o =>
    change (w.perform s o).Sound
    cases o with
    | put workspace base document version body =>
      exact (w.put_meanwhile workspace base document version body).sound h
    | enqueue workspace base document version =>
      exact (w.enqueue_meanwhile workspace base document version).sound h
    | start => exact h.of_tables (Nat.le_succ _) rfl rfl rfl rfl
    | interfere i => exact (w.interfere_meanwhile s.config i).sound h
    | inject | outside => exact h.of_db (Nat.le_refl _) rfl
    | poll => exact attended.1
    | sweep =>
      obtain ⟨db, drawn⟩ := w.sweepAll_kept (s := s) ⟨0, 0, 0⟩ w.db.documents.indexed
      exact h.of_db (Nat.le_of_eq drawn.symm) db

theorem Rostered.incur (h : w.Rostered) (s : Setup) (x : Incident) : (w.incur s x).Rostered := by
  let any : JobScope → Prop := fun _ => True
  have around := (w.housekeeping_around s.config).trans (claim_around _)
  have claimed : (w.housekeeping s.config).claim.2.Rostered := by
    have onward : w.db.actions.Onward any _ := w.claimed_onward s h.once
    exact h.of_ids around.drawn onward.ids
  have moved : ∀ r w r' w', w.Rostered → Run.Move s r w r' w' → w'.Rostered := by
    intro r w r' w' h m
    have onward : w.db.actions.Onward any w'.db.actions :=
      m.onward h.once fun _ _ _ _ _ _ => trivial
    exact h.of_ids m.drawn_le onward.ids
  have attended := attend_keeps (I := fun _ v => v.Rostered) (J := Rostered) claimed
    (fun _ _ => claimed) moved (fun _ _ h => h)
  cases x with
  | death n => exact attended.2 n
  | op o =>
    change (w.perform s o).Rostered
    cases o with
    | put workspace base document version body =>
      exact h.of_ids (w.put_meanwhile workspace base document version body).drawn rfl
    | enqueue workspace base document version =>
      exact h.of_ids (w.enqueue_meanwhile workspace base document version).drawn rfl
    | start workspace base settings => exact h.started s.config workspace base settings
    | interfere i =>
      have onward : w.db.actions.Onward any (w.interfere s.config i).db.actions :=
        interfere_onward s.config h.once fun _ _ => trivial
      exact h.of_ids (w.interfere_meanwhile s.config i).drawn onward.ids
    | inject | outside => exact h.of_ids (Nat.le_refl _) rfl
    | poll => exact attended.1
    | sweep =>
      obtain ⟨db, drawn⟩ := w.sweepAll_kept (s := s) ⟨0, 0, 0⟩ w.db.documents.indexed
      exact h.of_ids (Nat.le_of_eq drawn.symm) (congrArg (fun db => db.actions.ids) db)

end World

namespace Sample

def watched : List Incident :=
  [.op (.outside { World.initial 1000 [] {} with usualTurn := turn }), .op (.start "w" "b" {}),
    .op (.interfere (.submit "w" "b" "d" "v1" "hello world"))]

end Sample

end IndexingPipeline
