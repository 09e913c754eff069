import IndexingPipeline.Proofs.Outcome

/-!
# What a run's lock is worth at the switch

A run takes its document's lock before it opens a revision and does not look at it again until
it gives it back. While a provider is at work others may move the clock and try to lock the
document. Up to the switch the lock is the run's own unless it was taken over, and nobody can
take it over before the moment at which it expires. The switch itself asks for no lock: a run
whose lock was taken over switches its revision in all the same.
-/

namespace IndexingPipeline

open Identifier (Ahead ahead_ofNat)

namespace World

/-- The moments at which others come to have a document's lock, in order. -/
def takeovers (cfg : Config) (workspace document : String) (w : World) :
    List Interference → List Int
  | [] => []
  | i :: rest =>
    (if i = .lock workspace document ∧
        (w.acquire (lockLifetime cfg) workspace document).1.isSome = true then [w.now] else []) ++
      takeovers cfg workspace document (w.interfere cfg i) rest

/-- Since a holder took a document's lock up to the moment of its expiry, it was taken over at
these moments: never, and it is still the holder's, or not before it had expired, and then it is
somebody else's. -/
structure Guarded (workspace document holder : String) (expiry : Int) (taken : List Int)
    (w : World) : Prop where
  known : ¬ Ahead w.drawn holder
  own : taken = [] →
    w.db.locks.lock? workspace document = some ⟨workspace, document, holder, expiry⟩
  lost : taken ≠ [] → ∃ l, w.db.locks.lock? workspace document = some l ∧ l.holder ≠ holder
  expired : ∀ t, taken.head? = some t → expiry ≤ t

namespace Guarded

variable {workspace document holder : String} {expiry : Int} {taken : List Int} {w w' : World}
  (h : w.Guarded workspace document holder expiry taken)
include h

/-- There is a lock, and it is the holder's just when it was never taken over. -/
theorem locked : ∃ l, w.db.locks.lock? workspace document = some l ∧
    (l.holder = holder ↔ taken = []) := by
  by_cases never : taken = []
  · exact ⟨_, h.own never, by simp [never]⟩
  · obtain ⟨l, found, other⟩ := h.lost never
    exact ⟨l, found, by simp [never, other]⟩

theorem of_locks (drawn : w.drawn ≤ w'.drawn) (locks : w'.db.locks = w.db.locks) :
    w'.Guarded workspace document holder expiry taken where
  known := fun ahead => h.known (ahead.mono drawn)
  own := locks ▸ h.own
  lost := locks ▸ h.lost
  expired := h.expired

/-- Others take the lock over, which they cannot before it has expired, or leave it alone. -/
theorem interfere (cfg : Config) (i : Interference) :
    (w.interfere cfg i).Guarded workspace document holder expiry
      (taken ++ if i = .lock workspace document ∧
        (w.acquire (lockLifetime cfg) workspace document).1.isSome = true then [w.now]
        else []) := by
  cases i with
  | lock workspace' document' =>
    have drawn : w.drawn ≤ (w.interfere cfg (.lock workspace' document')).drawn :=
      Nat.le_succ _
    by_cases same : workspace' = workspace ∧ document' = document
    · obtain ⟨rfl, rfl⟩ := same
      cases got : (w.acquire (lockLifetime cfg) workspace' document').1 with
      | none => simpa using h.of_locks drawn (locks_of_refused got)
      | some mine =>
        have ne : mine ≠ holder := by
          rintro rfl
          exact h.known (holder_of_acquire got ▸ ahead_ofNat.mpr (Nat.le_refl _))
        simp only [Option.isSome_some, and_self, if_true]
        refine ⟨fun ahead => h.known (ahead.mono drawn), ?_, ?_, ?_⟩
        · intro none_taken
          simp at none_taken
        · exact fun _ => ⟨_, locks_acquired got, ne⟩
        · intro t first
          by_cases never : taken = []
          · subst never
            obtain rfl : w.now = t := Option.some.inj first
            refine Int.not_lt.mp fun unexpired => ?_
            rw [refused_of_unexpired (h.own rfl) unexpired] at got
            cases got
          · obtain ⟨_, _, rfl⟩ := List.exists_cons_of_ne_nil never
            exact h.expired t first
    · have elsewhere : ∀ l, w.db.locks.lock? workspace document = some l →
          (w.interfere cfg (.lock workspace' document')).db.locks.lock? workspace document =
            some l := fun l found => Locks.lock?_acquire_ne found same _ _ _
      simp only [Interference.lock.injEq, same, false_and, if_false, List.append_nil]
      refine ⟨fun ahead => h.known (ahead.mono drawn), ?_, ?_, h.expired⟩
      · exact fun never => elsewhere _ (h.own never)
      · intro some_taken
        obtain ⟨l, found, other⟩ := h.lost some_taken
        exact ⟨l, elsewhere l found, other⟩
  | submit workspace' base document' version body =>
    have kept : (w.interfere cfg (.submit workspace' base document' version body)).Guarded
        workspace document holder expiry taken := h.of_locks (Nat.le_succ _) rfl
    simpa using kept
  | advance ms =>
    have kept : (w.interfere cfg (.advance ms)).Guarded workspace document holder expiry taken :=
      h.of_locks (Nat.le_refl _) rfl
    simpa using kept
  | control action c =>
    have kept : (w.interfere cfg (.control action c)).Guarded workspace document holder expiry
        taken := h.of_locks (Nat.le_refl _) rfl
    simpa using kept

theorem interfereAll (cfg : Config) (is : List Interference) :
    (is.foldl (World.interfere cfg) w).Guarded workspace document holder expiry
      (taken ++ w.takeovers cfg workspace document is) := by
  induction is generalizing w taken with
  | nil => simpa [takeovers] using h
  | cons i rest ih =>
    rw [List.foldl_cons, takeovers, ← List.append_assoc]
    exact ih (h.interfere cfg i)

theorem asked (s : Setup) (p : Provider) (token : Option String) (text : String) :
    (w.embed s p token text).2.Guarded workspace document holder expiry
      (taken ++ if s.remoteEmbedder then [] else
        World.takeovers s.config workspace document
          { w with
            turns := w.turns.drop 1
            notes := w.notes ++ [.asked p.id p.model token text] }
          (w.turns.headD w.usualTurn).meanwhile) := by
  unfold embed
  split
  · rw [List.append_nil]
    exact h.of_locks (Nat.le_refl _) rfl
  · have noted : World.Guarded workspace document holder expiry taken
        { w with
          turns := w.turns.drop 1
          notes := w.notes ++ [.asked p.id p.model token text] } :=
      h.of_locks (Nat.le_refl _) rfl
    exact noted.interfereAll s.config _

end Guarded

end World

/-- The moments at which others come to have the document's lock at the next step of a run. -/
def Run.takenOver (s : Setup) (r : Run) (w : World) : List Int :=
  match r.stage with
  | .embedding d (c :: _) =>
    if s.remoteEmbedder then []
    else
      World.takeovers s.config r.job.workspaceId r.job.documentId
        { w with
          turns := w.turns.drop 1
          notes := w.notes ++ [.asked d.provider.id d.provider.model d.token c.text] }
        (w.turns.headD w.usualTurn).meanwhile
  | _ => []

def Run.takeovers (s : Setup) : Nat → Run → World → List Int
  | 0, _, _ => []
  | n + 1, r, w => r.takenOver s w ++ takeovers s n (r.step s w).1 (r.step s w).2

/-- Whether a run has taken its lock and not yet switched its revision in or failed. -/
def Stage.isGuarded : Stage → Bool
  | .opening _ => true
  | stage => stage.draft?.isSome

namespace Run

/-- A run that began in a world has waited for nothing before it took its lock, and since then
the lock was taken over at these moments. -/
structure Guarded (s : Setup) (job : Job) (w₀ : World) (taken : List Int) (r : Run)
    (w : World) : Prop where
  same_job : r.job = job
  before : 19 ≤ r.stage.rank → w = w₀ ∧ taken = []
  inside : r.stage.isGuarded = true → ∃ holder, r.holder = some holder ∧
    w.Guarded job.workspaceId job.documentId holder
      (wrap64 (w₀.now + World.lockLifetime s.config)) taken

namespace Guarded

variable {s : Setup} {job : Job} {w₀ w w' : World} {taken : List Int} {r r' : Run}
  (h : Guarded s job w₀ taken r w)
include h

theorem move (m : Move s r w r' w') : Guarded s job w₀ (taken ++ r.takenOver s w) r' w' := by
  have drawn := m.drawn_le
  have locks := m.locks_kept
  have same := m.same_job.trans h.same_job
  have quiet : ∀ {stage}, r.stage = stage → (∀ d c left, stage ≠ .embedding d (c :: left)) →
      taken ++ r.takenOver s w = taken := by
    rintro _ rfl none_asked
    unfold takenOver
    split
    · exact absurd ‹_› (none_asked _ _ _)
    · exact List.append_nil taken
  cases m with
  | free | watched | ended =>
    obtain ⟨rfl, rfl⟩ := h.before (by simp [Stage.rank])
    exact ⟨same, fun _ => ⟨rfl, rfl⟩, fun inside => by cases inside⟩
  | @locked own _ w settings holder got =>
    obtain ⟨rfl, rfl⟩ := h.before (by simp [Stage.rank])
    obtain rfl : own = job := same
    have fresh := World.holder_of_acquire got
    refine ⟨rfl, by simp [Stage.rank], fun _ => ⟨holder, rfl, ?_, ?_, ?_, ?_⟩⟩
    · rintro ahead
      rw [fresh] at ahead
      exact Nat.not_succ_le_self _ (ahead_ofNat.mp ahead)
    · exact fun _ => World.locks_acquired got
    · exact fun some_taken => absurd rfl some_taken
    · exact fun _ first => by cases first
  | opened | chunked | sized | admitted | authorized | embeddedAll | ensured | written
  | unaccounted | accounted =>
    rw [quiet rfl (by simp)]
    obtain ⟨holder, held, guarded⟩ := h.inside rfl
    exact ⟨same, by simp [Stage.rank], fun _ =>
      ⟨holder, held, guarded.of_locks drawn (locks (by simp [Stage.writes]))⟩⟩
  | @kept own _ w d c left =>
    obtain rfl : own = job := same
    obtain ⟨holder, held, guarded⟩ := h.inside rfl
    exact ⟨rfl, by simp [Stage.rank], fun _ => ⟨holder, held, guarded.asked s _ _ _⟩⟩
  | @refreshed _ holder =>
    cases holder with
    | none => exact ⟨same, by simp [Stage.rank], by simp [Stage.isGuarded, Stage.draft?]⟩
    | some _ => exact ⟨same, by simp [Stage.rank], by simp [Stage.isGuarded, Stage.draft?]⟩
  | _ =>
    exact ⟨same, by simp [Stage.rank, Stage.fail],
      by simp [Stage.isGuarded, Stage.draft?, Stage.fail]⟩

theorem steps (n : Nat) : Guarded s job w₀ (taken ++ Run.takeovers s n r w)
    (Run.steps s n r w).1 (Run.steps s n r w).2 := by
  induction n generalizing r w taken with
  | zero => simpa [Run.takeovers, Run.steps] using h
  | succ n ih =>
    rw [Run.takeovers, Run.steps, ← List.append_assoc]
    apply ih
    by_cases ended : r.stage.isOver = true
    · rw [Run.step_over s r w ended]
      have quiet : r.takenOver s w = [] := by
        unfold takenOver
        split
        · rename_i stage
          rw [stage] at ended
          cases ended
        · rfl
      rw [quiet, List.append_nil]
      exact h
    · exact h.move (Run.step_move s r w (by simpa using ended))

omit h in
theorem start (s : Setup) (job : Job) (w : World) : Guarded s job w [] (.start job) w :=
  ⟨rfl, fun _ => ⟨rfl, rfl⟩, fun inside => by cases inside⟩

end Guarded

end Run

/-- After any number of steps of a run, whatever others do while the provider is at work: if the
next step changes where a document points, the document is the run's own and is locked; the lock
is the run's unless it was taken over since the run began; and the first that took it over did
not do so before the moment at which the run's lock expired. -/
theorem switchover_guarded (s : Setup) (w : World) (job : Job) (n : Nat)
    (workspace document : String)
    (moved : ((Run.steps s n (.start job) w).1.step s (Run.steps s n (.start job) w).2).2.pointer
      workspace document ≠ (Run.steps s n (.start job) w).2.pointer workspace document) :
    workspace = job.workspaceId ∧ document = job.documentId ∧
    ∃ holder l, (Run.steps s n (.start job) w).1.holder = some holder ∧
      (Run.steps s n (.start job) w).2.db.locks.lock? workspace document = some l ∧
      (l.holder = holder ↔ Run.takeovers s n (.start job) w = []) ∧
      ∀ t, (Run.takeovers s n (.start job) w).head? = some t →
        wrap64 (w.now + World.lockLifetime s.config) ≤ t := by
  have guarded := (Run.Guarded.start s job w).steps n
  rw [List.nil_append] at guarded
  generalize Run.steps s n (.start job) w = state at guarded moved ⊢
  obtain ⟨r, v⟩ := state
  have going : r.stage.isOver = false := by
    rw [← Bool.not_eq_true]
    intro ended
    rw [Run.step_over s r v ended] at moved
    exact moved rfl
  rcases (Run.step_move s r v going).pointer_moves workspace document with
    same | ⟨d, stage, _, here, there, _⟩
  · exact absurd same moved
  · obtain ⟨holder, held, inside⟩ := guarded.inside (by rw [stage]; rfl)
    obtain ⟨l, found, own⟩ := inside.locked
    rw [guarded.same_job] at here there
    subst here there
    exact ⟨rfl, rfl, holder, l, held, found, own, inside.expired⟩

namespace Sample

/-- A document that is indexed by a provider that takes as long as a lock lives; meanwhile
another party locks the document. -/
def overtakenWorld : World :=
  { world with usualTurn := { turn with meanwhile := [.advance 1800000, .lock "w" "d"] } }

theorem overtaken_moves :
    ((Run.steps setup 12 (.start job) overtakenWorld).1.step setup
      (Run.steps setup 12 (.start job) overtakenWorld).2).2.pointer "w" "d" ≠
      (Run.steps setup 12 (.start job) overtakenWorld).2.pointer "w" "d" := by decide +kernel

end Sample

theorem switchover_guarded_sample :
    ((Run.steps Sample.setup 12 (.start Sample.job) Sample.overtakenWorld).1.step Sample.setup
      (Run.steps Sample.setup 12 (.start Sample.job) Sample.overtakenWorld).2).2.pointer "w" "d" ≠
      (Run.steps Sample.setup 12 (.start Sample.job) Sample.overtakenWorld).2.pointer "w" "d" ∧
    ∃ holder l, (Run.steps Sample.setup 12 (.start Sample.job) Sample.overtakenWorld).1.holder =
        some holder ∧
      (Run.steps Sample.setup 12 (.start Sample.job) Sample.overtakenWorld).2.db.locks.lock?
        "w" "d" = some l ∧ l.holder ≠ holder ∧
      (1801000 : Int) ≤
        (Run.takeovers Sample.setup 12 (.start Sample.job) Sample.overtakenWorld).headD 0 := by
  obtain ⟨_, _, holder, l, held, found, own, expired⟩ :=
    switchover_guarded Sample.setup Sample.overtakenWorld Sample.job 12 "w" "d"
      Sample.overtaken_moves
  have taken : Run.takeovers Sample.setup 12 (.start Sample.job) Sample.overtakenWorld =
      [1801000] := by decide +kernel
  rw [taken] at own expired ⊢
  exact ⟨Sample.overtaken_moves, holder, l, held, found, by simp [own], expired _ rfl⟩

/-- That a run switches its revision in is no sign that it still has the lock. -/
theorem switchover_unfenced :
    ¬ ∀ (s : Setup) (w : World) (job : Job) (n : Nat) (workspace document : String),
      ((Run.steps s n (.start job) w).1.step s (Run.steps s n (.start job) w).2).2.pointer
        workspace document ≠ (Run.steps s n (.start job) w).2.pointer workspace document →
      ((Run.steps s n (.start job) w).2.db.locks.lock? workspace document).map (·.holder) =
        (Run.steps s n (.start job) w).1.holder := by
  intro fenced
  have own := fenced Sample.setup Sample.overtakenWorld Sample.job 12 "w" "d"
    Sample.overtaken_moves
  exact absurd own (by decide +kernel)

end IndexingPipeline
