import Mathlib.Data.List.Nodup
import IndexingPipeline.Proofs.Edition

/-!
# The policies that revisions were opened under

A ledger lists the revisions in the order in which they were opened, each with the policy of the
run that opened it. It says at once which digest a revision carries and under which policy a run
has worked at it, and no revision stands in it twice. A step of a run leaves it as it is or adds
one line, so whoever does such steps, in whatever order, the revisions have a ledger.
-/

namespace IndexingPipeline

open Identifier (Ahead ahead_ofNat)

namespace Revisions

def stamps (rs : Revisions) : List (String × String) := rs.map fun a => (a.id, a.policyDigest)

theorem stamps_map {f : Revision → Revision} (origin : ∀ r : Revision, r.SameOrigin (f r))
    (rs : Revisions) : stamps (rs.map f) = stamps rs := by
  simp [stamps, (origin _).id, (origin _).policyDigest]

end Revisions

namespace Run

variable {s : Setup} {r r' : Run} {w w' : World}

/-- Whether a run works at a revision under a policy. -/
def WorksAt (r : Run) (id : String) (p : Policy) : Prop :=
  ∃ d, r.stage.draft? = some d ∧ d.revisionId = id ∧ d.policy = p

theorem WorksAt.of_draft {d : Draft} (draft : r.stage.draft? = some d) :
    r.WorksAt d.revisionId d.policy := ⟨d, draft, rfl, rfl⟩

/-- A move leads on with the revision and the policy of the draft that it found, or it opens a
revision, which gets the digest of the policy of the new draft. Only four other moves touch the
revisions at all, and none of them the digests. -/
theorem Move.stamps (m : Move s r w r' w') :
    (w'.db.revisions.stamps = w.db.revisions.stamps ∧
      ∀ id p, r'.WorksAt id p → r.WorksAt id p) ∨
    ∃ p, w'.db.revisions.stamps =
        w.db.revisions.stamps ++ [(Identifier.ofNat w.drawn, p.digest)] ∧
      ∀ id q, r'.WorksAt id q ↔ (id, q) = (Identifier.ofNat w.drawn, p) := by
  have kept := m.revisions_kept
  -- the draft is what it was as far as its revision and its policy go
  have onward : (∀ d', r'.stage.draft? = some d' →
      ∃ d, r.stage.draft? = some d ∧ d.revisionId = d'.revisionId ∧ d.policy = d'.policy) →
      ∀ id p, r'.WorksAt id p → r.WorksAt id p := by
    rintro same id p ⟨d', draft', rfl, rfl⟩
    exact same d' draft'
  cases m with
  | opened settings policy =>
    refine .inr ⟨policy, ?_, fun id q => ⟨?_, ?_⟩⟩
    · simp [Revisions.stamps, World.openRevision, World.onRevisions, World.draw, Revision.fresh]
    · rintro ⟨_, ⟨⟩, rfl, rfl⟩
      rfl
    · rintro ⟨⟩
      exact ⟨_, rfl, rfl, rfl⟩
  | sized | accounted | switched =>
    refine .inl ⟨Revisions.stamps_map (.update _ _) _, onward fun d draft => ?_⟩
    first
    | exact ⟨_, rfl, by cases draft; rfl, by cases draft; rfl⟩
    | cases draft
  | failed =>
    exact .inl ⟨Revisions.stamps_map (.failed _ _ _) _, onward fun d draft => by cases draft⟩
  | @refreshed _ holder =>
    refine .inl ⟨rfl, onward fun d draft => ?_⟩
    cases holder <;> cases draft
  | unplanned | missing | blank | unaccounted | vanished | unopened =>
    refine .inl ⟨rfl, onward fun d draft => ?_⟩
    first
    | exact ⟨_, rfl, by cases draft; rfl, by cases draft; rfl⟩
    | cases draft
  | _ =>
    refine .inl ⟨congrArg Revisions.stamps (kept (by simp [Stage.writes])),
      onward fun d draft => ?_⟩
    first
    | exact ⟨_, rfl, by cases draft; rfl, by cases draft; rfl⟩
    | cases draft

end Run

/-- Which revisions have been opened, and under which policy a run has worked at each. -/
structure Ledger (rs : Revisions) (worked : String → Policy → Prop)
    (opened : List (String × Policy)) : Prop where
  stamps : rs.stamps = opened.map fun e => (e.1, e.2.digest)
  once : (opened.map (·.1)).Nodup
  worked : ∀ id p, worked id p ↔ (id, p) ∈ opened

namespace Ledger

variable {rs rs' : Revisions} {worked worked' : String → Policy → Prop}
  {opened : List (String × Policy)}

theorem empty (nobody : ∀ id p, ¬ worked id p) : Ledger [] worked [] :=
  ⟨rfl, List.nodup_nil, fun id p => by simp [nobody id p]⟩

theorem kept (h : Ledger rs worked opened) (stamps : rs'.stamps = rs.stamps)
    (same : ∀ id p, worked' id p ↔ worked id p) : Ledger rs' worked' opened :=
  ⟨stamps.trans h.stamps, h.once, fun id p => (same id p).trans (h.worked id p)⟩

theorem ids (h : Ledger rs worked opened) : opened.map (·.1) = rs.map (·.id) := by
  simpa [Revisions.stamps, Function.comp_def] using (congrArg (List.map (·.1)) h.stamps).symm

/-- A revision is opened with an identifier that no other one has. -/
theorem add (h : Ledger rs worked opened) {id : String} {p : Policy} (fresh : ∀ a ∈ rs, a.id ≠ id)
    (stamps : rs'.stamps = rs.stamps ++ [(id, p.digest)])
    (more : ∀ x q, worked' x q ↔ worked x q ∨ (x, q) = (id, p)) :
    Ledger rs' worked' (opened ++ [(id, p)]) where
  stamps := by
    rw [stamps, h.stamps, List.map_append]
    rfl
  once := by
    rw [List.map_append, List.nodup_append, h.ids]
    refine ⟨h.ids ▸ h.once, List.nodup_singleton _, ?_⟩
    rintro _ old _ new rfl
    obtain ⟨a, row, rfl⟩ := List.mem_map.mp old
    exact fresh a row (List.mem_singleton.mp new)
  worked := fun x q => by rw [more, h.worked, List.mem_append, List.mem_singleton]

/-- A revision has a policy that a run has worked at it under, and carries its digest. -/
theorem of_row (h : Ledger rs worked opened) {a : Revision} (row : a ∈ rs) :
    ∃ p, worked a.id p ∧ a.policyDigest = p.digest := by
  have stamped : (a.id, a.policyDigest) ∈ rs.stamps := List.mem_map_of_mem row
  rw [h.stamps] at stamped
  obtain ⟨⟨id, p⟩, there, same⟩ := List.mem_map.mp stamped
  obtain ⟨rfl, digest⟩ := Prod.mk.inj same
  exact ⟨p, (h.worked _ p).mpr there, digest.symm⟩

/-- No run works at the revision of another one under another policy. -/
theorem unique (h : Ledger rs worked opened) {id : String} {p q : Policy} (hp : worked id p)
    (hq : worked id q) : p = q := by
  have inP := (h.worked id p).mp hp
  have inQ := (h.worked id q).mp hq
  exact congrArg Prod.snd (List.inj_on_of_nodup_map h.once inP inQ rfl)

/-- One step of a run that is known to work at what it works at. -/
theorem step {s : Setup} {r : Run} {w : World} (h : Ledger w.db.revisions worked opened)
    (sound : w.Sound) (known : ∀ id p, r.WorksAt id p → worked id p) :
    ∃ opened', Ledger (r.step s w).2.db.revisions
      (fun id p => worked id p ∨ (r.step s w).1.WorksAt id p) opened' := by
  by_cases ended : r.stage.isOver = true
  · rw [Run.step_over s r w ended]
    exact ⟨opened, h.kept rfl fun id p => or_iff_left_of_imp (known id p)⟩
  · rcases (Run.step_move s r w (by simpa using ended)).stamps with
      ⟨same, onward⟩ | ⟨p, stamped, works⟩
    · exact ⟨opened, h.kept same fun id p =>
        or_iff_left_of_imp fun works => known id p (onward id p works)⟩
    · refine ⟨_, h.add ?_ stamped fun id q => by rw [works]⟩
      intro a row same
      exact sound.revisions a row (same ▸ ahead_ofNat.mpr (Nat.le_refl _))

theorem steps {w : World} (h : Ledger w.db.revisions worked opened) (sound : w.Sound) (s : Setup)
    (job : Job) (n : Nat) :
    ∃ opened', Ledger (Run.steps s n (.start job) w).2.db.revisions
      (fun id p => worked id p ∨ ∃ k ≤ n, (Run.steps s k (.start job) w).1.WorksAt id p)
      opened' := by
  induction n with
  | zero =>
    refine ⟨opened, h.kept rfl fun id p => or_iff_left_of_imp ?_⟩
    rintro ⟨k, least, d, draft, _⟩
    obtain rfl := Nat.le_zero.mp least
    cases draft
  | succ n ih =>
    obtain ⟨before, h⟩ := ih
    obtain ⟨sound', _⟩ := Run.steps_keeps (s := s) (I := fun r v => v.Sound ∧ r.Known v)
      (fun _ _ _ _ h m => ⟨m.sound h.1 h.2, m.known h.2⟩) n ⟨sound, .start job w⟩
    obtain ⟨after, next⟩ := h.step (s := s) sound' fun id p works => .inr ⟨n, Nat.le_refl n, works⟩
    rw [← Run.steps_succ] at next
    refine ⟨after, next.kept rfl fun id p => ?_⟩
    simp only [Nat.le_succ_iff, or_and_right, exists_or, exists_eq_left, or_assoc]

end Ledger

end IndexingPipeline
