import IndexingPipeline.Proofs.Supply
import IndexingPipeline.Proofs.Tables
import IndexingPipeline.World

/-!
# What others do while a provider is at work

A world is sound when every job has one row and nothing that it keeps carries an identifier
that is still ahead. Others may move the clock, control actions, write documents and take locks;
whatever they do, no revision, chunk set or point changes, no document points elsewhere, and the
row of a job that does not wait stays as it is.
-/

namespace IndexingPipeline

open Identifier (Ahead ahead_ofNat)

namespace World

/-- No row has an identifier that is yet to be drawn, and no two jobs have the same one. -/
structure Sound (w : World) : Prop where
  jobs_once : w.db.jobs.ids.Nodup
  jobs : ∀ id ∈ w.db.jobs.ids, ¬ Ahead w.drawn id
  revisions : ∀ r ∈ w.db.revisions, ¬ Ahead w.drawn r.id
  standings : ∀ x ∈ w.db.documents.standings, ∀ id, x.revision = some id → ¬ Ahead w.drawn id
  locks : ∀ l ∈ w.db.locks, ¬ Ahead w.drawn l.holder

namespace Sound

/-- A world is sound when it keeps no identifier that a sound one with no more drawn does not
keep. -/
theorem of_same {w w' : World} (h : w.Sound) (drawn : w.drawn ≤ w'.drawn)
    (jobs : w'.db.jobs.ids = w.db.jobs.ids)
    (revisions : ∀ r' ∈ w'.db.revisions, ∃ r ∈ w.db.revisions, r.id = r'.id)
    (standings : ∀ x' ∈ w'.db.documents.standings, ∀ id, x'.revision = some id →
      ∃ x ∈ w.db.documents.standings, x.revision = some id)
    (locks : ∀ l ∈ w'.db.locks, l ∈ w.db.locks) : w'.Sound where
  jobs_once := jobs ▸ h.jobs_once
  jobs := fun id member ahead => h.jobs id (jobs ▸ member) (ahead.mono drawn)
  revisions := by
    intro r' member ahead
    obtain ⟨r, old, same⟩ := revisions r' member
    exact h.revisions r old (same ▸ ahead.mono drawn)
  standings := by
    intro x' member id points ahead
    obtain ⟨x, old, points⟩ := standings x' member id points
    exact h.standings x old id points (ahead.mono drawn)
  locks := fun l member ahead => h.locks l (locks l member) (ahead.mono drawn)

variable {w : World} (h : w.Sound)
include h

theorem of_tables {w' : World} (drawn : w.drawn ≤ w'.drawn) (jobs : w'.db.jobs = w.db.jobs)
    (documents : w'.db.documents = w.db.documents) (revisions : w'.db.revisions = w.db.revisions)
    (locks : w'.db.locks = w.db.locks) : w'.Sound := by
  refine h.of_same drawn (by rw [jobs]) ?_ ?_ ?_
  · rw [revisions]
    exact fun r member => ⟨r, member, rfl⟩
  · rw [documents]
    exact fun x member _ points => ⟨x, member, points⟩
  · rw [locks]
    exact fun _ member => member

theorem of_db {w' : World} (drawn : w.drawn ≤ w'.drawn) (db : w'.db = w.db) : w'.Sound :=
  h.of_tables drawn (by rw [db]) (by rw [db]) (by rw [db]) (by rw [db])

theorem onJobs {f : Queue → Queue} (same : (f w.db.jobs).ids = w.db.jobs.ids) :
    (w.onJobs f).Sound :=
  h.of_same (Nat.le_refl _) same (fun r member => ⟨r, member, rfl⟩)
    (fun x member _ points => ⟨x, member, points⟩) (fun _ member => member)

theorem onDocuments {f : Documents → Documents}
    (same : (f w.db.documents).standings = w.db.documents.standings) :
    (w.onDocuments f).Sound := by
  refine h.of_same (Nat.le_refl _) rfl (fun r member => ⟨r, member, rfl⟩) ?_
    (fun _ member => member)
  intro x member id points
  exact ⟨x, same ▸ member, points⟩

theorem onRevisions {f : Revision → Revision} (keeps : ∀ r, (f r).id = r.id) :
    (w.onRevisions (·.map f)).Sound := by
  refine h.of_same (Nat.le_refl _) rfl ?_ (fun x member _ points => ⟨x, member, points⟩)
    (fun _ member => member)
  intro r' member
  obtain ⟨r, old, rfl⟩ := List.mem_map.mp member
  exact ⟨r, old, (keeps r).symm⟩

theorem onLocks {f : Locks → Locks} (fewer : ∀ l ∈ f w.db.locks, l ∈ w.db.locks) :
    (w.onLocks f).Sound :=
  h.of_same (Nat.le_refl _) rfl (fun r member => ⟨r, member, rfl⟩)
    (fun x member _ points => ⟨x, member, points⟩) fewer

end Sound

def pointer (w : World) (workspace id : String) : Option String :=
  (w.db.documents.document? workspace id).bind (·.currentRevisionId)

theorem pointer_eq (w : World) (workspace id : String) :
    w.pointer workspace id = pointer? w.db.documents.standings workspace id :=
  (w.db.documents.pointer?_standings workspace id).symm

theorem pointer_congr {w w' : World} (documents : w'.db.documents = w.db.documents)
    (workspace id : String) : w'.pointer workspace id = w.pointer workspace id := by
  unfold pointer
  rw [documents]

/-- What may have become of a world while others were at it. -/
structure Meanwhile (w w' : World) : Prop where
  sound : w.Sound → w'.Sound
  drawn : w.drawn ≤ w'.drawn
  revisions : w'.db.revisions = w.db.revisions
  chunkSets : w'.db.chunkSets = w.db.chunkSets
  store : w'.store = w.store
  standings : Grown w.db.documents.standings w'.db.documents.standings
  jobs : w.Sound → ∀ j : Job, j.status ≠ .pending → w.db.jobs.job? j.id = some j →
    w'.db.jobs.job? j.id = some j
  locks : ∀ l ∈ w'.db.locks, l ∈ w.db.locks ∨ Ahead w.drawn l.holder

namespace Meanwhile

theorem refl (w : World) : Meanwhile w w where
  sound := id
  drawn := Nat.le_refl _
  revisions := rfl
  chunkSets := rfl
  store := rfl
  standings := .refl _
  jobs := fun _ _ _ found => found
  locks := fun _ member => .inl member

theorem trans {a b c : World} (ab : Meanwhile a b) (bc : Meanwhile b c) : Meanwhile a c where
  sound := fun sound => bc.sound (ab.sound sound)
  drawn := Nat.le_trans ab.drawn bc.drawn
  revisions := bc.revisions.trans ab.revisions
  chunkSets := bc.chunkSets.trans ab.chunkSets
  store := bc.store.trans ab.store
  standings := ab.standings.trans bc.standings
  jobs := fun sound j busy found => bc.jobs (ab.sound sound) j busy (ab.jobs sound j busy found)
  locks := by
    intro l member
    rcases bc.locks l member with old | ahead
    · exact ab.locks l old
    · exact .inr (ahead.mono ab.drawn)

theorem of_same {w w' : World} (drawn : w.drawn ≤ w'.drawn) (jobs : w'.db.jobs = w.db.jobs)
    (documents : w'.db.documents = w.db.documents) (revisions : w'.db.revisions = w.db.revisions)
    (locks : w'.db.locks = w.db.locks) (chunkSets : w'.db.chunkSets = w.db.chunkSets)
    (store : w'.store = w.store) : Meanwhile w w' where
  sound := fun sound => sound.of_tables drawn jobs documents revisions locks
  drawn := drawn
  revisions := revisions
  chunkSets := chunkSets
  store := store
  standings := documents ▸ .refl _
  jobs := fun _ _ _ found => jobs ▸ found
  locks := fun _ member => .inl (locks ▸ member)

end Meanwhile

theorem holder_of_acquire {w : World} {lifetime : Int} {workspace document holder : String}
    (h : (w.acquire lifetime workspace document).1 = some holder) :
    holder = Identifier.ofNat w.drawn := by
  unfold acquire at h
  by_cases got : (w.db.locks.acquire w.now lifetime workspace document
      (Identifier.ofNat w.drawn)).1 = true
  · exact (Option.some.inj ((if_pos got).symm.trans h)).symm
  · exact absurd ((if_neg got).symm.trans h) (by simp)

theorem locks_of_refused {w : World} {lifetime : Int} {workspace document : String}
    (h : (w.acquire lifetime workspace document).1 = none) :
    (w.acquire lifetime workspace document).2.db.locks = w.db.locks := by
  unfold acquire at h ⊢
  by_cases got : (w.db.locks.acquire w.now lifetime workspace document
      (Identifier.ofNat w.drawn)).1 = true
  · exact absurd ((if_pos got).symm.trans h) (by simp)
  · exact Locks.acquire_refused (Bool.eq_false_iff.mpr got)

/-- A lock is taken for a holder that was not drawn before. -/
theorem acquire_holder (w : World) (lifetime : Int) (workspace document : String) :
    (w.acquire lifetime workspace document).1 =
      if (w.db.locks.acquire w.now lifetime workspace document (Identifier.ofNat w.drawn)).1
      then some (Identifier.ofNat w.drawn) else none := rfl

theorem locks_acquired {w : World} {lifetime : Int} {workspace document holder : String}
    (taken : (w.acquire lifetime workspace document).1 = some holder) :
    (w.acquire lifetime workspace document).2.db.locks.lock? workspace document =
      some ⟨workspace, document, holder, wrap64 (w.now + lifetime)⟩ := by
  rw [acquire_holder] at taken
  split at taken
  · cases taken
    exact Locks.lock?_acquired ‹_›
  · cases taken

theorem refused_of_unexpired {w : World} {workspace document : String} {l : Lock}
    (found : w.db.locks.lock? workspace document = some l) (unexpired : w.now < l.expiresAt)
    (lifetime : Int) : (w.acquire lifetime workspace document).1 = none := by
  rw [acquire_holder, Locks.acquire_of_unexpired found unexpired]
  rfl

variable (w : World)

theorem acquire_meanwhile (lifetime : Int) (workspace document : String) :
    Meanwhile w (w.acquire lifetime workspace document).2 := by
  have locks : ∀ l ∈ (w.acquire lifetime workspace document).2.db.locks,
      l ∈ w.db.locks ∨ l.holder = Identifier.ofNat w.drawn := by
    intro l member
    rcases Locks.mem_acquire member with old | rfl
    · exact .inl old
    · exact .inr rfl
  refine { Meanwhile.refl w with sound := ?_, drawn := Nat.le_succ _, locks := ?_ }
  · intro h
    have kept : World.Sound { w with drawn := w.drawn + 1 } :=
      h.of_tables (Nat.le_succ _) rfl rfl rfl rfl
    refine { kept with locks := ?_ }
    intro l member ahead
    rcases locks l member with old | new
    · exact kept.locks l old ahead
    · rw [new] at ahead
      exact Nat.not_succ_le_self _ (ahead_ofNat.mp ahead)
  · intro l member
    exact (locks l member).imp_right fun new => ⟨w.drawn, Nat.le_refl _, new⟩

theorem put_meanwhile (workspace base document version body : String) :
    Meanwhile w (w.onDocuments (·.put w.now workspace base document version body)) := by
  have grown := w.db.documents.grown_put w.now workspace base document version body
  refine { Meanwhile.refl w with sound := ?_, standings := grown }
  intro h
  refine h.of_same (Nat.le_refl _) rfl (fun r member => ⟨r, member, rfl⟩) ?_
    (fun _ member => member)
  intro x member id points
  exact ⟨x, (grown.mem_iff (by simp [points])).mp member, points⟩

theorem enqueue_meanwhile (workspace base document version : String) :
    Meanwhile w (w.enqueue workspace base document version).2 := by
  have ids : (w.enqueue workspace base document version).2.db.jobs.ids = w.db.jobs.ids ∨
      (w.enqueue workspace base document version).2.db.jobs.ids =
        w.db.jobs.ids ++ [Identifier.ofNat w.drawn] :=
    w.db.jobs.ids_enqueue w.now (Identifier.ofNat w.drawn) workspace base document version
  refine { Meanwhile.refl w with
    sound := ?_
    drawn := Nat.le_succ _
    jobs := fun h j busy found => Queue.job?_enqueue h.jobs_once found busy _ _ _ _ _ _ }
  intro h
  have kept : World.Sound { w with drawn := w.drawn + 1 } :=
    h.of_tables (Nat.le_succ _) rfl rfl rfl rfl
  rcases ids with ids | ids
  · exact { kept with jobs_once := ids ▸ kept.jobs_once, jobs := ids ▸ kept.jobs }
  · refine { kept with jobs_once := ?_, jobs := ?_ }
    · rw [ids, List.nodup_append]
      refine ⟨h.jobs_once, by simp, ?_⟩
      intro a old b hb same
      rw [List.mem_singleton.mp hb] at same
      exact h.jobs a old (same ▸ ahead_ofNat.mpr (Nat.le_refl _))
    · intro id member ahead
      rw [ids] at member
      rcases List.mem_append.mp member with old | new
      · exact kept.jobs id old ahead
      · rw [List.mem_singleton.mp new] at ahead
        exact Nat.not_succ_le_self _ (ahead_ofNat.mp ahead)

theorem submit_meanwhile (workspace base document version body : String) :
    Meanwhile w (w.submit workspace base document version body).2 :=
  (w.put_meanwhile workspace base document version body).trans
    (enqueue_meanwhile _ workspace base document version)

theorem interfere_meanwhile (cfg : Config) (i : Interference) :
    Meanwhile w (w.interfere cfg i) := by
  cases i with
  | advance ms => exact .of_same (Nat.le_refl _) rfl rfl rfl rfl rfl rfl
  | control action c => exact .of_same (Nat.le_refl _) rfl rfl rfl rfl rfl rfl
  | submit workspace base document version body =>
    exact w.submit_meanwhile workspace base document version body
  | lock workspace document =>
    exact (w.acquire_meanwhile (lockLifetime cfg) workspace document).trans
      (.of_same (Nat.le_refl _) rfl rfl rfl rfl rfl rfl)

theorem interfereAll_meanwhile (cfg : Config) (is : List Interference) :
    Meanwhile w (is.foldl (interfere cfg) w) := by
  induction is generalizing w with
  | nil => exact .refl w
  | cons i rest ih => exact (w.interfere_meanwhile cfg i).trans (ih (w.interfere cfg i))

/-- Whatever a provider answers and others do meanwhile. -/
theorem embed_meanwhile (s : Setup) (p : Provider) (token : Option String) (text : String) :
    Meanwhile w (w.embed s p token text).2 := by
  unfold embed
  split
  · exact .of_same (Nat.le_refl _) rfl rfl rfl rfl rfl rfl
  · let asked : World := { w with
      turns := w.turns.drop 1, notes := w.notes ++ [.asked p.id p.model token text] }
    have first : Meanwhile w asked := .of_same (Nat.le_refl _) rfl rfl rfl rfl rfl rfl
    exact first.trans
      (interfereAll_meanwhile asked s.config (w.turns.headD w.usualTurn).meanwhile)

end World

end IndexingPipeline
