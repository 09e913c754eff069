import IndexingPipeline.Proofs.Incidents
import IndexingPipeline.Proofs.Stock

/-!
# Taking over from a dead run

A run that gets no further leaves a lock behind that expires, and a revision that is taken to be
abandoned some time after it was opened. Until the lock expires, a poll opens no revision of the
document; from some moment on, it has failed the one that was left behind before it opens another.
The lock was taken before the revision was opened, and the moments at which both run out count
differently, so there are moments in between: a poll then opens a revision beside the old one.
-/

namespace IndexingPipeline

open Identifier (Ahead ahead_ofNat)

namespace Revision

def key (r : Revision) : String × String × String := (r.id, r.workspaceId, r.documentId)

theorem key_change (r : Revision) (c : RevisionChange) : (r.change c).key = r.key := rfl

theorem key_failed (r : Revision) (now : Int) (reason : String) :
    (r.failed now reason).key = r.key := rfl

end Revision

namespace Revisions

/-- What becomes of a revision that is under way, and no document's, when abandoned ones are
failed. -/
theorem revision?_left {rs : Revisions} {ds : Documents} {id : String} {a : Revision}
    (found : rs.revision? id = some a) (processing : a.status = .processing)
    (unpointed : ds.isCurrent id = false) (now olderThan : Int) :
    (rs.failAbandoned ds now olderThan).2.revision? id =
      some (if a.startedAt < olderThan then
        a.failed now "abandoned: indexing run did not finish" else a) := by
  unfold failAbandoned
  rw [revision?_map (by intro r; simp only; split <;> rfl), found]
  have open_ : isOpen ds a = true := by
    rw [isOpen, processing, id_of_revision? found, unpointed]
    rfl
  simp [open_]

end Revisions

/-- No revision of a document has been opened meanwhile. -/
def World.NoneOpened (workspace document : String) (w w' : World) : Prop :=
  ∀ b ∈ w'.db.revisions, b.workspaceId = workspace → b.documentId = document →
    ∃ a ∈ w.db.revisions, a.key = b.key

namespace Run

/-- A run that finds the lock of its document in the hands of somebody else. -/
structure Barred (l : Lock) (r : Run) (w : World) : Prop where
  unlocked : r.holder = none
  outside : r.stage.isWithin = false
  lock : w.db.locks.lock? r.job.workspaceId r.job.documentId = some l
  unexpired : w.now < l.expiresAt

namespace Move

variable {s : Setup} {r r' : Run} {w w' : World} (m : Move s r w r' w')
include m

/-- A revision that a run has not opened it leaves as it is. -/
theorem revision?_other {id : String} {a : Revision}
    (found : w.db.revisions.revision? id = some a) (other : r.stage.open? ≠ some id) :
    w'.db.revisions.revision? id = some a := by
  have kept := m.revisions_kept
  cases m with
  | opened => exact Revisions.revision?_append_of_some found
  | sized d | accounted d | switched d =>
    have ne : id ≠ d.revisionId := fun same => other (congrArg some same.symm)
    exact (Revisions.revision?_update_ne ne _).trans found
  | failed id' =>
    have ne : a.id ≠ id' := by
      rw [Revisions.id_of_revision? found]
      exact fun same => other (congrArg some same.symm)
    refine (Revisions.revision?_map (by intro r; simp only; split <;> rfl) id).trans ?_
    rw [found]
    simp [ne]
  | unplanned | blank | unaccounted | vanished | unopened => exact found
  | _ => rw [kept (by simp [Stage.writes]), found]

/-- Where a revision comes from: it was there before, or the run has opened it. -/
theorem revision_origin {b : Revision} (member : b ∈ w'.db.revisions) :
    (∃ a ∈ w.db.revisions, a.key = b.key) ∨
    r.stage.isWithin = true ∧ b.workspaceId = r.job.workspaceId ∧
      b.documentId = r.job.documentId := by
  have kept := m.revisions_kept
  have changed : ∀ f : Revision → Revision, (∀ a, (f a).key = a.key) →
      b ∈ w.db.revisions.map f → ∃ a ∈ w.db.revisions, a.key = b.key := by
    rintro f keeps member
    obtain ⟨a, old, rfl⟩ := List.mem_map.mp member
    exact ⟨a, old, (keeps a).symm⟩
  cases m with
  | opened settings =>
    rcases List.mem_append.mp member with old | new
    · exact .inl ⟨b, old, rfl⟩
    · rw [List.mem_singleton.mp new]
      exact .inr ⟨rfl, rfl, rfl⟩
  | sized | accounted | switched =>
    refine .inl (changed _ (fun a => ?_) member)
    split
    · exact a.key_change _
    · rfl
  | failed =>
    refine .inl (changed _ (fun a => ?_) member)
    dsimp only
    split
    · exact a.key_failed _ _
    · rfl
  | unplanned | blank | unaccounted | vanished | unopened => exact .inl ⟨b, member, rfl⟩
  | _ =>
    rw [kept (by simp [Stage.writes])] at member
    exact .inl ⟨b, member, rfl⟩

/-- A run that does not get its lock ends without it. -/
theorem barred {l : Lock} (h : r.Barred l w) : r'.Barred l w' := by
  obtain ⟨unlocked, outside, lock, unexpired⟩ := h
  cases m with
  | locked settings holder taken =>
    rw [World.refused_of_unexpired lock unexpired] at taken
    cases taken
  | busy settings refused =>
    refine ⟨rfl, rfl, ?_, unexpired⟩
    rw [World.locks_of_refused refused]
    exact lock
  | refreshed =>
    cases unlocked
    exact ⟨rfl, rfl, lock, unexpired⟩
  | released => cases unlocked
  | free | watched | ended | paused | canceled | deferred | unopened | failed | retried | exhausted
  | final | marked | unnoted | noted | unlocked => exact ⟨unlocked, rfl, lock, unexpired⟩
  | _ => cases outside

end Move

end Run

namespace World

variable {s : Setup} {w : World} {l : Lock} {workspace document id : String} {a : Revision}

/-- Whoever polls while the lock of a document is held opens no revision of it. -/
theorem attend_barred (found : w.db.locks.lock? workspace document = some l)
    (unexpired : w.now < l.expiresAt) :
    NoneOpened workspace document w (w.poll s).2 ∧
      ∀ n, NoneOpened workspace document w (w.incur s (.death n)) := by
  have idle : NoneOpened workspace document w (w.housekeeping s.config).claim.2 := by
    intro b member _ _
    obtain ⟨a, old, rfl⟩ := List.mem_map.mp member
    refine ⟨a, old, ?_⟩
    dsimp only
    split
    · exact (a.key_failed _ _).symm
    · rfl
  refine attend_keeps (I := fun r v => NoneOpened workspace document w v ∧
    (r.job.workspaceId = workspace → r.job.documentId = document → r.Barred l v)) idle
    ?_ ?_ fun _ _ h => h.1
  · intro job _
    refine ⟨idle, ?_⟩
    rintro rfl rfl
    exact ⟨rfl, rfl, found, unexpired⟩
  · rintro r v r' v' ⟨none_opened, barred⟩ m
    constructor
    · intro b member here there
      rcases m.revision_origin member with ⟨a, old, same⟩ | ⟨within, job, document'⟩
      · obtain ⟨c, older, before⟩ := none_opened a old ((congrArg (·.2.1) same).trans here)
          ((congrArg (·.2.2) same).trans there)
        exact ⟨c, older, before.trans same⟩
      · have outside := (barred (job.symm.trans here) (document'.symm.trans there)).outside
        rw [within] at outside
        cases outside
    · intro here there
      exact m.barred (barred (m.same_job ▸ here) (m.same_job ▸ there))

/-- What a poll makes of a revision that is under way, and that nobody works on any more. -/
theorem attend_left (sound : w.Sound) (found : w.db.revisions.revision? id = some a)
    (processing : a.status = .processing)
    (unpointed : ∀ x ∈ w.db.documents.standings, x.revision ≠ some id) :
    let left := if a.startedAt < before w.now s.config.worker.lockTtlSeconds then
      a.failed w.now "abandoned: indexing run did not finish" else a
    (w.poll s).2.db.revisions.revision? id = some left ∧
      ∀ n, (w.incur s (.death n)).db.revisions.revision? id = some left := by
  intro left
  have kept := (w.housekeeping_around s.config).trans (claim_around _)
  have drawn : ¬ Ahead w.drawn id :=
    Revisions.id_of_revision? found ▸ sound.revisions a (List.mem_of_find?_eq_some found)
  have current : w.db.documents.isCurrent id = false := by
    rw [← Bool.not_eq_true, Documents.isCurrent_iff]
    rintro ⟨x, member, points⟩
    exact unpointed x member points
  have idle : (w.housekeeping s.config).claim.2.db.revisions.revision? id = some left :=
    Revisions.revision?_left found processing current w.now _
  refine attend_keeps (I := fun r v => v.db.revisions.revision? id = some left ∧
    r.stage.open? ≠ some id ∧ ¬ Ahead v.drawn id) idle ?_ ?_ fun _ _ h => h.1
  · exact fun job _ => ⟨idle, nofun, fun ahead => drawn (ahead.mono kept.drawn)⟩
  · rintro r v r' v' ⟨found, other, drawn⟩ m
    refine ⟨m.revision?_other found other, ?_, fun ahead => drawn (ahead.mono m.drawn_le)⟩
    exact fun opened => (m.opens opened).elim other drawn

end World

namespace Watch

variable {s : Setup} {v v' : Watch}

/-- What is known of the run at a place, whether its worker lives or not: nobody else has its
holder, its lock is its own until it expires, and what it has open was opened since it took it. -/
structure Tenure (s : Setup) (place : Nat) (v : Watch) : Prop where
  good : v.crew.Good
  post : (v.posts place).Right v.world
  noted : ∀ r, v.crew.runs[place]? = some r → ∀ id, r.stage.open? = some id →
    (v.posts place).opened = some id
  alone : ∀ r h, v.crew.runs[place]? = some r → r.holder = some h →
    ∀ j b, v.crew.runs[j]? = some b → b.holder = some h → j = place
  held : ∀ r h, v.crew.runs[place]? = some r → r.holder = some h → r.stage.isOver = false →
    v.world.now < (v.posts place).since + s.config.lockMillis →
    v.world.db.locks.lock? r.job.workspaceId r.job.documentId =
      some ⟨r.job.workspaceId, r.job.documentId, h, (v.posts place).since + s.config.lockMillis⟩

theorem initial_tenure (s : Setup) (place : Nat) (now : Int) (env : Environment) (peer : Peer) :
    Tenure s place (initial now env peer) where
  good := Crew.initial_good now env peer
  post := ⟨Int.le_refl now, fun _ opened => by cases opened⟩
  noted := fun _ there => by cases there
  alone := fun _ _ there => by cases there
  held := fun _ _ there => by cases there

namespace Tenure

variable {place : Nat} (h : Tenure s place v)
include h

theorem around {c : Crew} (b : v.Beside c) (dead : List Nat) :
    Tenure s place ⟨c, v.posts, dead⟩ where
  good := b.good h.good
  post := h.post.later b.now b.births
  noted := by
    intro r there id opened
    rcases Crew.getElem?_started b.began there with old | ⟨job, rfl⟩
    · exact h.noted r old id opened
    · cases opened
  alone := by
    intro r holder there held j x there' held'
    rcases Crew.getElem?_started b.began there with old | ⟨job, rfl⟩
    · rcases Crew.getElem?_started b.began there' with old' | ⟨job, rfl⟩
      · exact h.alone r holder old held j x old' held'
      · cases held'
    · cases held
  held := by
    intro r holder there held going unexpired
    rcases Crew.getElem?_started b.began there with old | ⟨job, rfl⟩
    · have before : v.world.now < (v.posts place).since + s.config.lockMillis :=
        Int.lt_of_le_of_lt b.now unexpired
      exact b.locks _ _ _ (h.held r holder old held going before) before
    · cases held

theorem move {mover : Nat} {r r' : Run} {w : World} (quiet : v.world.Quiet)
    (here : v.crew.runs[mover]? = some r) (m : Run.Move s r v.world r' w)
    (low : -(Number.twoTo 63 : Int) ≤ v.world.now - s.config.lockMillis)
    (high : v.world.now + s.config.lockMillis < Number.twoTo 63) :
    Tenure s place ⟨⟨w, v.crew.runs.set mover r'⟩,
      fun i => if i = mover then (v.posts mover).next v.world.now r.stage r'.stage
        else v.posts i, v.dead⟩ where
  good := h.good.move here m
  post := by
    simp only
    split
    · subst mover
      exact h.post.move m quiet h.good.sound
    · exact h.post.beside m quiet
  noted := by
    intro b there id opened
    rcases Crew.getElem?_moved there with ⟨rfl, rfl⟩ | ⟨ne, old⟩
    · simp only [if_true]
      exact m.open_noted (h.noted r here id) opened
    · simp only [if_neg ne]
      exact h.noted b old id opened
  alone := by
    intro a holder there held j b there' held'
    have known : ∀ (k : Nat) (x : Run), v.crew.runs[k]? = some x → x.holder = some holder →
        ¬ Ahead v.world.drawn holder := fun k x old held => (h.good.known k x old).holder _ held
    rcases Crew.getElem?_moved there with ⟨rfl, rfl⟩ | ⟨_, old⟩
    · rcases Crew.getElem?_moved there' with ⟨rfl, _⟩ | ⟨_, old'⟩
      · rfl
      · exact h.alone r holder here (m.holder_before held (known j b old' held')) j b old' held'
    · rcases Crew.getElem?_moved there' with ⟨rfl, rfl⟩ | ⟨_, old'⟩
      · exact h.alone a holder old held j r here (m.holder_before held' (known place a old held))
      · exact h.alone a holder old held j b old' held'
  held := by
    intro b holder there held going unexpired
    change w.now < _ at unexpired
    rw [m.now_kept quiet] at unexpired
    rcases Crew.getElem?_moved there with ⟨rfl, rfl⟩ | ⟨ne, old⟩
    · simp only [if_true] at unexpired ⊢
      refine m.own_lock quiet low high (fun unlocking had => ?_) held going
      rw [Post.since_next _ _ unlocking] at unexpired
      exact ⟨unexpired, h.held r holder here had m.going unexpired⟩
    · simp only [if_neg ne] at unexpired ⊢
      refine m.lock?_stays quiet (h.held b holder old held going unexpired) unexpired ?_
      intro _ _ mine
      exact ne (h.alone b holder old held mover r here mine).symm

theorem change (low : -(Number.twoTo 63 : Int) ≤ v.world.now - s.config.lockMillis)
    (high : v.world.now + s.config.lockMillis < Number.twoTo 63) (c : Change s v v') :
    Tenure s place v' := by
  cases c with
  | around c dead b => exact h.around b dead
  | moved mover r r' w here _ m =>
    exact (h.around (.hushed v) v.dead).move v.world.hushed_quiet here m low high

theorem play (low : -(Number.twoTo 63 : Int) ≤ v.world.now - s.config.lockMillis)
    (events : List Event)
    (high : (v.play s events).world.now + s.config.lockMillis < Number.twoTo 63) :
    Tenure s place (v.play s events) := by
  induction events generalizing v with
  | nil => exact h
  | cons e rest ih =>
    have change := v.turn_change s e
    have first := change.now_le
    have later := (v.turn s e).now_le_play s rest
    refine ih (h.change low ?_ change) ?_ high
    · change ((v.turn s e).play s rest).world.now + s.config.lockMillis < _ at high
      omega
    · omega

end Tenure

end Watch

/-- Begin with an empty database and let anything happen in any order, while the clock is in range.
Let a run have its document's lock and a revision that is under way, and get no further. It opened
the revision no earlier than it took the lock. A poll fails the revision as abandoned, before it
runs a job, when it was opened longer ago than a lock lives, and leaves it under way otherwise. And
no poll opens a revision of the document as long as the lock, by the moment when it was taken, has
not expired. -/
theorem takeover_repaired (s : Setup) (now : Int) (env : Environment) (peer : Peer)
    (events : List Event) :
    let v := (Watch.initial now env peer).play s events
    let lifetime := s.config.lockMillis
    lifetime - Number.twoTo 63 ≤ now → v.world.now + lifetime < Number.twoTo 63 →
    ∀ (place : Nat) (r : Run) (id : String) (a : Revision), v.crew.runs[place]? = some r →
      r.isInside = true → r.stage.open? = some id →
      v.world.db.revisions.revision? id = some a → a.status = .processing →
      let since := (v.posts place).since
      since ≤ a.startedAt ∧
      ∀ u, (u = (v.world.poll s).2 ∨ ∃ n, u = v.world.incur s (.death n)) →
        u.db.revisions.revision? id = some (if a.startedAt + lifetime < v.world.now then
          a.failed v.world.now "abandoned: indexing run did not finish" else a) ∧
        (v.world.now < since + lifetime →
          v.world.NoneOpened r.job.workspaceId r.job.documentId u) := by
  intro v lifetime low high place r id a there inside opened found processing since
  have past : -(Number.twoTo 63 : Int) ≤ now - lifetime := by omega
  have tenure := (Watch.initial_tenure s place now env peer).play past events high
  have going : r.holder.isSome = true ∧ r.stage.isOver = false := by
    simpa [Run.isInside] using inside
  obtain ⟨holder, held⟩ := Option.isSome_iff_exists.mp going.1
  have cutoff : before v.world.now s.config.worker.lockTtlSeconds = v.world.now - lifetime := by
    have later : now ≤ v.world.now := (Watch.initial now env peer).now_le_play s events
    exact Config.cutoff_eq (by omega) high
  have born : (id, a.startedAt) ∈ v.world.db.revisions.births := by
    rw [← Revisions.id_of_revision? found]
    exact List.mem_map_of_mem (List.mem_of_find?_eq_some found)
  have left := World.attend_left (s := s) tenure.good.sound found processing
    ((tenure.good.drafted place r there).unpointed id opened)
  have abandoned : a.startedAt + lifetime < v.world.now ↔
      a.startedAt < before v.world.now s.config.worker.lockTtlSeconds := by
    rw [cutoff]
    omega
  refine ⟨tenure.post.opened id (tenure.noted r there id opened) _ born, ?_⟩
  rintro u attended
  constructor
  · simp only [abandoned]
    rcases attended with rfl | ⟨n, rfl⟩
    · exact left.1
    · exact left.2 n
  · intro unexpired
    have barred := World.attend_barred (s := s)
      (tenure.held r holder there held going.2 unexpired) unexpired
    rcases attended with rfl | ⟨n, rfl⟩
    · exact barred.1
    · exact barred.2 n

namespace Sample

/-- What is there so many milliseconds after a run has opened a revision, a millisecond after it
took its lock, and its worker has died. -/
def stranded (ms : Nat) : Watch :=
  (Watch.initial 1000 [] {}).play setup
    [.outside { World.initial 0 [] {} with usualTurn := turn },
      .put "w" "b" "d" "v1" "hello world", .enqueue "w" "b" "d" "v1",
      .claim, .step 0, .step 0, .advance 1, .step 0, .die 0, .advance ms]

/-- The dead run has a revision of the document open, which is under way. -/
def isUnfinished (v : Watch) : Bool :=
  (v.crew.runs[0]?).any (fun r => r.isInside && r.stage.open? = some (Identifier.ofNat 2)) &&
    (v.world.db.revisions.revision? (Identifier.ofNat 2)).any fun a =>
      a.status = .processing && a.startedAt = 1001

end Sample

theorem takeover_repaired_sample :
    let v := Sample.stranded 1800001
    ∃ a, v.world.db.revisions.revision? (Identifier.ofNat 2) = some a ∧ a.status = .processing ∧
      (v.world.poll Sample.setup).2.db.revisions.revision? (Identifier.ofNat 2) =
        some (a.failed v.world.now "abandoned: indexing run did not finish") := by
  intro v
  have there : Sample.isUnfinished v = true := by decide +kernel
  unfold Sample.isUnfinished at there
  obtain ⟨run, row⟩ := Bool.and_eq_true_iff.mp there
  obtain ⟨r, here, run⟩ := (Option.any_eq_true _ _).mp run
  obtain ⟨a, found, row⟩ := (Option.any_eq_true _ _).mp row
  simp only [Bool.and_eq_true, decide_eq_true_eq] at run row
  obtain ⟨_, attended⟩ := takeover_repaired Sample.setup 1000 [] {} _ (by decide +kernel)
    (by decide +kernel) 0 r (Identifier.ofNat 2) a here run.1 run.2 found row.1
  obtain ⟨repaired, _⟩ := attended _ (.inl rfl)
  have late : a.startedAt + Sample.setup.config.lockMillis < v.world.now := by
    rw [row.2]
    decide +kernel
  exact ⟨a, found, row.1, repaired.trans (congrArg some (if_pos late))⟩

/-- The lock of a dead run has expired when its revision has not yet been there for as long as a
lock lives: a poll takes the lock over, and the document has two revisions under way. -/
theorem takeover_unrepaired :
    let v := Sample.stranded 1800000
    let u := v.world.incur Sample.setup (.death 3)
    Sample.setup.config.check = .ok () ∧ 0 ∈ v.dead ∧ Sample.isUnfinished v = true ∧
    ∃ a ∈ u.db.revisions, ∃ b ∈ u.db.revisions, a.id = Identifier.ofNat 2 ∧
      a.status = .processing ∧ b.status = .processing ∧
      (a.workspaceId = "w" ∧ a.documentId = "d") ∧ (b.workspaceId = "w" ∧ b.documentId = "d") ∧
      ∀ c ∈ v.world.db.revisions, c.id ≠ b.id :=
  ⟨rfl, by decide +kernel⟩

end IndexingPipeline
