import IndexingPipeline.Proofs.Switchover

/-!
# Runs under watch

Workers of one setup take turns in one world while the clock goes on. A worker may die at any
point; its run then gets no further, and other workers recover its job and fail its revision.
What others do while a provider is at work comes in turns of its own. For each run it is written
down when it took its lock and which revision it has opened. As long as no live run keeps its
lock for as long as a lock lives, the lock is still its own: no two live runs are at work on one
document, and the repairs leave alone whatever a live run has opened.
-/

namespace IndexingPipeline

open Identifier (Ahead ahead_ofNat)

namespace Config

def lockMillis (cfg : Config) : Int := cfg.worker.lockTtlSeconds * 1000

variable {cfg : Config} {now : Int} (low : -(Number.twoTo 63 : Int) ≤ now - cfg.lockMillis)
  (high : now + cfg.lockMillis < Number.twoTo 63)
include low high

theorem lockLifetime_eq : World.lockLifetime cfg = cfg.lockMillis := by
  unfold World.lockLifetime lockMillis at *
  exact wrap64_of_inRange (by omega) (by omega)

/-- A lock that is taken now expires when it has lived that long. -/
theorem expiry_eq : wrap64 (now + World.lockLifetime cfg) = now + cfg.lockMillis := by
  rw [lockLifetime_eq low high]
  unfold lockMillis at *
  exact wrap64_of_inRange (by omega) high

/-- What was opened before this moment is taken to be abandoned now. -/
theorem cutoff_eq : before now cfg.worker.lockTtlSeconds = now - cfg.lockMillis := by
  unfold lockMillis at *
  exact before_of_inRange (by omega) low (by omega)

end Config

namespace Revisions

/-- Which revisions there are, and when each was opened. -/
def births (rs : Revisions) : List (String × Int) := rs.map fun r => (r.id, r.startedAt)

theorem births_map {rs : Revisions} {f : Revision → Revision}
    (keeps : ∀ r, (f r).id = r.id ∧ (f r).startedAt = r.startedAt) :
    births (rs.map f) = births rs := by
  unfold births
  rw [List.map_map]
  apply List.map_congr_left
  intro r _
  simp [keeps r]

theorem births_update (rs : Revisions) (id : String) (c : RevisionChange) :
    births (rs.update id c) = births rs := by
  refine births_map fun r => ?_
  split <;> exact ⟨rfl, rfl⟩

theorem births_failed (rs : Revisions) (hit : Revision → Bool) (now : Int) (reason : String) :
    births (rs.map fun r => if hit r then r.failed now reason else r) = births rs := by
  refine births_map fun r => ?_
  split <;> exact ⟨rfl, rfl⟩

/-- A revision that was opened after the moment is not taken to be abandoned. -/
theorem revision?_failAbandoned {rs : Revisions} {ds : Documents} {id : String}
    {olderThan : Int} (young : ∀ t, (id, t) ∈ rs.births → olderThan ≤ t) (now : Int) :
    (rs.failAbandoned ds now olderThan).2.revision? id = rs.revision? id := by
  unfold failAbandoned
  rw [revision?_map (by intro r; simp only; split <;> rfl)]
  cases found : rs.revision? id with
  | none => rfl
  | some a =>
    have member : (id, a.startedAt) ∈ rs.births := by
      rw [← id_of_revision? found]
      exact List.mem_map_of_mem (List.mem_of_find?_eq_some found)
    have late : ¬ a.startedAt < olderThan := by
      have := young _ member
      omega
    simp [late]

end Revisions

namespace World

def Quiet (w : World) : Prop :=
  w.usualTurn.meanwhile = [] ∧ ∀ t ∈ w.turns, t.meanwhile = []

/-- The world with everybody told to be quiet while a provider is at work. -/
def hushed (w : World) : World :=
  { w with
    turns := w.turns.map fun t => { t with meanwhile := [] }
    usualTurn := { w.usualTurn with meanwhile := [] } }

theorem hushed_quiet (w : World) : w.hushed.Quiet := by
  refine ⟨rfl, ?_⟩
  intro t member
  obtain ⟨_, _, rfl⟩ := List.mem_map.mp member
  rfl

variable {w : World}

theorem embed_quiet (quiet : w.Quiet) (s : Setup) (p : Provider) (token : Option String)
    (text : String) :
    (w.embed s p token text).2.db = w.db ∧ (w.embed s p token text).2.now = w.now := by
  obtain ⟨usual, played⟩ := quiet
  have nothing : (w.turns.headD w.usualTurn).meanwhile = [] := by
    cases turns : w.turns with
    | nil => exact usual
    | cons t rest => exact played t (turns ▸ List.mem_cons_self)
  unfold embed
  split
  · exact ⟨rfl, rfl⟩
  · simp only [nothing, List.foldl_nil, and_self]

end World

namespace Run

/-- Whether a run is between taking its lock and giving it back. -/
def isInside (r : Run) : Bool := r.holder.isSome && !r.stage.isOver

def SameDocument (a b : Run) : Prop :=
  a.job.workspaceId = b.job.workspaceId ∧ a.job.documentId = b.job.documentId

namespace Move

variable {s : Setup} {r r' : Run} {w w' : World} (m : Move s r w r' w')
include m

theorem going : r.stage.isOver = false := by cases m <;> rfl

/-- A run changes hands only where it takes its lock. -/
theorem holder_moves :
    (r'.holder = r.holder ∧ ∀ settings, r.stage ≠ .locking settings) ∨
    (∃ settings, r.stage = .locking settings ∧ r'.holder = none) ∨
    ∃ settings, r.stage = .locking settings ∧ r'.holder = some (Identifier.ofNat w.drawn) ∧
      w'.db.locks.lock? r.job.workspaceId r.job.documentId =
        some ⟨r.job.workspaceId, r.job.documentId, Identifier.ofNat w.drawn,
          wrap64 (w.now + World.lockLifetime s.config)⟩ := by
  cases m with
  | locked settings holder taken =>
    have mine := World.locks_acquired taken
    rw [World.holder_of_acquire taken] at mine
    exact .inr (.inr ⟨settings, rfl, congrArg some (World.holder_of_acquire taken), mine⟩)
  | busy settings => exact .inr (.inl ⟨settings, rfl, rfl⟩)
  | _ => exact .inl ⟨rfl, by simp⟩

theorem births_moves :
    w'.db.revisions.births = w.db.revisions.births ∨
    (∃ settings, r.stage = .opening settings) ∧
      w'.db.revisions.births = w.db.revisions.births ++ [(Identifier.ofNat w.drawn, w.now)] := by
  have kept := m.revisions_kept
  cases m with
  | opened settings => exact .inr ⟨⟨settings, rfl⟩, List.map_append⟩
  | sized | accounted | switched => exact .inl (Revisions.births_update _ _ _)
  | failed => exact .inl (Revisions.births_failed _ _ _ _)
  | unplanned | blank | unaccounted | vanished | unopened => exact .inl rfl
  | _ => exact .inl (by rw [kept (by simp [Stage.writes])])

variable (quiet : w.Quiet)
include quiet

theorem now_kept : w'.now = w.now := by
  cases m with
  | kept | mismatched | unembedded | unaccepted => exact (World.embed_quiet quiet s _ _ _).2
  | ensured | unensured => exact (w.ensureCollection_inside s _ _).now
  | written | unwritten => exact (w.writePoints_inside s _ _).now
  | cleaned => exact (w.deletePoints_inside s _ _).now
  | _ => rfl

/-- A lock that has not expired stays as it is, unless it is the one that the run gives back. -/
theorem lock?_stays {workspace document : String} {l : Lock}
    (found : w.db.locks.lock? workspace document = some l) (unexpired : w.now < l.expiresAt)
    (kept : ∀ outcome, r.stage = .releasing outcome → r.holder ≠ some l.holder) :
    w'.db.locks.lock? workspace document = some l := by
  have same := m.locks_kept
  cases m with
  | locked | busy => exact Locks.lock?_acquire_unexpired found unexpired _ _ _ _
  | released holder outcome =>
    refine Locks.lock?_release found ?_ _ _
    rintro rfl
    exact kept outcome rfl rfl
  | unlocked => exact found
  | kept | mismatched | unembedded | unaccepted =>
    simp only [(World.embed_quiet quiet s _ _ _).1]
    exact found
  | _ =>
    rw [same (by simp [Stage.writes])]
    exact found

end Move

end Run

theorem Crew.claim_world (c : Crew) : (c.turn .claim).world = c.world.claim.2 := by
  simp only [Crew.turn]
  split <;> rename_i answer <;> exact (congrArg Prod.snd answer).symm

/-- What is written down of a run: when it took its lock, and the revision it has opened. -/
structure Post where
  since : Int
  opened : Option String

/-- What is written down when a run has moved on from a stage. -/
def Post.next (p : Post) (now : Int) (before after : Stage) : Post :=
  match before with
  | .locking _ => ⟨now, none⟩
  | .opening _ => { p with opened := after.open? }
  | _ => p

/-- What is written down is of the past: what was opened was opened since. -/
structure Post.Right (p : Post) (w : World) : Prop where
  past : p.since ≤ w.now
  opened : ∀ id, p.opened = some id → ∀ t, (id, t) ∈ w.db.revisions.births → p.since ≤ t

namespace Post.Right

variable {p : Post} {w w' : World} (h : p.Right w)
include h

theorem later (now : w.now ≤ w'.now)
    (births : w'.db.revisions.births = w.db.revisions.births) : p.Right w' where
  past := Int.le_trans h.past now
  opened := fun id opened t born => h.opened id opened t (births ▸ born)

variable {s : Setup} {r r' : Run} (m : Run.Move s r w r' w') (quiet : w.Quiet)
include m quiet

/-- Whatever is opened now is opened since any moment of the past. -/
theorem beside : p.Right w' where
  past := m.now_kept quiet ▸ h.past
  opened := by
    intro id opened t born
    rcases m.births_moves with same | ⟨_, new⟩
    · exact h.opened id opened t (same ▸ born)
    · rw [new] at born
      rcases List.mem_append.mp born with old | now
      · exact h.opened id opened t old
      · cases List.mem_singleton.mp now
        exact h.past

theorem move (sound : w.Sound) : (p.next w.now r.stage r'.stage).Right w' := by
  unfold Post.next
  split
  · constructor
    · exact Int.le_of_eq (m.now_kept quiet).symm
    · intro id opened
      cases opened
  · rename_i stage
    constructor
    · exact m.now_kept quiet ▸ h.past
    · intro id opened t born
      have ahead : Ahead w.drawn id :=
        (m.opens opened).resolve_left (by simp [stage, Stage.open?, Stage.draft?])
      have unborn : (id, t) ∉ w.db.revisions.births := by
        intro old
        obtain ⟨a, member, same⟩ := List.mem_map.mp old
        cases same
        exact sound.revisions a member ahead
      rcases m.births_moves with same | ⟨_, new⟩
      · exact absurd (same ▸ born) unborn
      · rw [new] at born
        rcases List.mem_append.mp born with old | now
        · exact absurd old unborn
        · cases List.mem_singleton.mp now
          exact h.past
  · exact h.beside m quiet

end Post.Right

theorem Post.since_next (p : Post) (now : Int) {before after : Stage}
    (unlocking : ∀ settings, before ≠ .locking settings) :
    (p.next now before after).since = p.since := by
  unfold Post.next
  split
  · exact absurd rfl (unlocking _)
  · rfl
  · rfl

namespace Run.Move

variable {s : Setup} {r r' : Run} {w w' : World} (m : Move s r w r' w')
include m

theorem holder_before {holder : String} (held : r'.holder = some holder)
    (drawn : ¬ Ahead w.drawn holder) : r.holder = some holder := by
  rcases m.holder_moves with ⟨same, _⟩ | ⟨_, _, none_held⟩ | ⟨_, _, new, _⟩
  · exact same ▸ held
  · rw [none_held] at held
    cases held
  · rw [new] at held
    cases held
    exact absurd (ahead_ofNat.mpr (Nat.le_refl _)) drawn

theorem open_noted {p : Post} {id : String} (before : r.stage.open? = some id → p.opened = some id)
    (opened : r'.stage.open? = some id) :
    (p.next w.now r.stage r'.stage).opened = some id := by
  cases m with
  | opened | unplanned => exact opened
  | locked | busy => cases opened
  | @refreshed _ holder => cases holder <;> cases opened
  | _ => first | exact before opened | cases opened

/-- A run that has its document's lock for as long as is written down still has it after a move,
unless it has given it back, and so has one that has just taken it. -/
theorem own_lock (quiet : w.Quiet) (low : -(Number.twoTo 63 : Int) ≤ w.now - s.config.lockMillis)
    (high : w.now + s.config.lockMillis < Number.twoTo 63) {p : Post} {holder : String}
    (before : (∀ settings, r.stage ≠ .locking settings) → r.holder = some holder →
      w.now < p.since + s.config.lockMillis ∧
      w.db.locks.lock? r.job.workspaceId r.job.documentId =
        some ⟨r.job.workspaceId, r.job.documentId, holder, p.since + s.config.lockMillis⟩)
    (held : r'.holder = some holder) (going : r'.stage.isOver = false) :
    w'.db.locks.lock? r'.job.workspaceId r'.job.documentId =
      some ⟨r'.job.workspaceId, r'.job.documentId, holder,
        (p.next w.now r.stage r'.stage).since + s.config.lockMillis⟩ := by
  rw [m.same_job]
  rcases m.holder_moves with
    ⟨same, unlocking⟩ | ⟨_, _, none_held⟩ | ⟨settings, stage, drawn, taken⟩
  · obtain ⟨unexpired, lock⟩ := before unlocking (same ▸ held)
    rw [p.since_next w.now unlocking]
    refine m.lock?_stays quiet lock unexpired ?_
    intro outcome releasing
    cases m <;> cases releasing <;> cases going
  · rw [none_held] at held
    cases held
  · rw [drawn] at held
    cases held
    rw [Config.expiry_eq low high] at taken
    simp only [stage, Post.next]
    exact taken

end Run.Move

/-- Runs under way, what is written down of each, and those whose worker has died. -/
structure Watch where
  crew : Crew
  posts : Nat → Post
  dead : List Nat

/-- What can happen next. Workers die without a word. -/
inductive Event where
  | start (job : Job)
  | claim
  /-- Do the next step of a run, unless its worker has died. -/
  | step (place : Nat)
  | die (place : Nat)
  | recover
  /-- Fail abandoned revisions, as of now or of an earlier moment. -/
  | failAbandoned (olderThan : Int)
  | put (workspace base document version body : String)
  | enqueue (workspace base document version : String)
  | onActions (f : Actions → Actions)
  /-- Another party tries to lock a document. -/
  | lock (workspace document : String)
  | advance (ms : Nat)
  /-- Switch failures of writing and of deleting points on or off. -/
  | inject (failWrites failDeletes : Bool)
  /-- The services become as they are elsewhere. -/
  | outside (elsewhere : World)

namespace Watch

def initial (now : Int) (env : Environment) (peer : Peer) : Watch :=
  ⟨Crew.initial now env peer, fun _ => ⟨now, none⟩, []⟩

abbrev world (v : Watch) : World := v.crew.world

/-- A run that a live worker has between taking its lock and giving it back. -/
def Inside (v : Watch) (place : Nat) (r : Run) : Prop :=
  v.crew.runs[place]? = some r ∧ place ∉ v.dead ∧ r.isInside = true

def on (v : Watch) (t : Turn) : Watch := { v with crew := v.crew.turn t }

/-- The run at a place does its next step, while everybody else is quiet. -/
def step (s : Setup) (v : Watch) (place : Nat) : Watch :=
  match v.crew.runs[place]? with
  | none => v
  | some r =>
    let (r', w) := r.step s v.world.hushed
    let post := (v.posts place).next v.world.now r.stage r'.stage
    { v with
      crew := ⟨w, v.crew.runs.set place r'⟩
      posts := fun i => if i = place then post else v.posts i }

def turn (s : Setup) (v : Watch) : Event → Watch
  | .start job => v.on (.start job)
  | .claim => v.on .claim
  | .step place => if place ∈ v.dead then v else v.step s place
  | .die place => { v with dead := place :: v.dead }
  | .recover => v.on (.recover s.config.worker)
  | .failAbandoned olderThan =>
    v.on (.failAbandoned (min olderThan (before v.world.now s.config.worker.lockTtlSeconds)))
  | .put workspace base document version body =>
    v.on (.put workspace base document version body)
  | .enqueue workspace base document version => v.on (.enqueue workspace base document version)
  | .onActions f => v.on (.onActions f)
  | .lock workspace document => v.on (.interfere s.config (.lock workspace document))
  | .advance ms => v.on (.outside { v.world with now := v.world.now + ms })
  | .inject failWrites failDeletes =>
    v.on (.outside { v.world with store := { v.world.store with failWrites, failDeletes } })
  | .outside elsewhere =>
    v.on (.outside { elsewhere with now := v.world.now, store := v.world.store })

def play (s : Setup) (v : Watch) (events : List Event) : Watch := events.foldl (turn s) v

/-- The clock is in range, and no live run has kept its lock for as long as a lock lives. -/
structure InTime (s : Setup) (v : Watch) : Prop where
  low : -(Number.twoTo 63 : Int) ≤ v.world.now - s.config.lockMillis
  high : v.world.now + s.config.lockMillis < Number.twoTo 63
  inside : ∀ i r, v.Inside i r → v.world.now < (v.posts i).since + s.config.lockMillis

/-- At every moment of what happens everything is in time. -/
def Timely (s : Setup) (v : Watch) : List Event → Prop
  | [] => v.InTime s
  | e :: rest => v.InTime s ∧ (v.turn s e).Timely s rest

theorem inTime_iff {s : Setup} {v : Watch} :
    v.InTime s ↔ -(Number.twoTo 63 : Int) ≤ v.world.now - s.config.lockMillis ∧
      v.world.now + s.config.lockMillis < Number.twoTo 63 ∧
      ∀ i < v.crew.runs.length, i ∉ v.dead → (v.crew.runs[i]?).any Run.isInside = true →
        v.world.now < (v.posts i).since + s.config.lockMillis := by
  constructor
  · rintro ⟨low, high, inside⟩
    refine ⟨low, high, fun i _ alive any => ?_⟩
    obtain ⟨r, there, isInside⟩ := (Option.any_eq_true _ _).mp any
    exact inside i r ⟨there, alive, isInside⟩
  · rintro ⟨low, high, inside⟩
    refine ⟨low, high, ?_⟩
    rintro i r ⟨there, alive, isInside⟩
    exact inside i (List.getElem?_eq_some_iff.mp there).1 alive (by rw [there]; exact isInside)

instance (s : Setup) (v : Watch) : Decidable (v.InTime s) := decidable_of_iff _ inTime_iff.symm

/-- Whether everything is in time can be found out by playing it. -/
instance decidableTimely (s : Setup) :
    (v : Watch) → (events : List Event) → Decidable (v.Timely s events)
  | v, [] => inferInstanceAs (Decidable (v.InTime s))
  | v, e :: rest =>
    have := decidableTimely s (v.turn s e) rest
    inferInstanceAs (Decidable (v.InTime s ∧ (v.turn s e).Timely s rest))

namespace InTime

variable {s : Setup} {v : Watch} (h : v.InTime s)
include h

theorem cutoff_eq : before v.world.now s.config.worker.lockTtlSeconds =
    v.world.now - s.config.lockMillis := Config.cutoff_eq h.low h.high

end InTime

/-- The lock of every live run is its own and lives as long as is written down, no two runs have
one holder, and what a run has opened was opened after it took its lock. -/
structure Kept (s : Setup) (v : Watch) : Prop where
  good : v.crew.Good
  posts : ∀ i, (v.posts i).Right v.world
  noted : ∀ (i : Nat) (r : Run), v.crew.runs[i]? = some r → ∀ id, r.stage.open? = some id →
    (v.posts i).opened = some id
  held : ∀ i r, v.Inside i r → ∀ h, r.holder = some h →
    v.world.db.locks.lock? r.job.workspaceId r.job.documentId =
      some ⟨r.job.workspaceId, r.job.documentId, h, (v.posts i).since + s.config.lockMillis⟩
  alone : ∀ (i j : Nat) (a b : Run), v.crew.runs[i]? = some a → v.crew.runs[j]? = some b →
    ∀ h, a.holder = some h → b.holder = some h → i = j

theorem initial_kept (s : Setup) (now : Int) (env : Environment) (peer : Peer) :
    (initial now env peer).Kept s where
  good := Crew.initial_good now env peer
  posts := fun _ => ⟨Int.le_refl now, fun _ opened => by cases opened⟩
  noted := fun _ _ there => by cases there
  held := fun _ _ inside => by cases inside.1
  alone := fun _ _ _ _ there => by cases there

/-- Every event but a step only begins runs. -/
theorem turn_runs (s : Setup) (v : Watch) (e : Event) (idle : ∀ place, e ≠ .step place) :
    ∃ jobs : List Job, (v.turn s e).crew.runs = v.crew.runs ++ jobs.map Run.start := by
  cases e with
  | start job => exact ⟨[job], rfl⟩
  | claim =>
    simp only [turn, on, Crew.turn]
    split
    · exact ⟨[], (List.append_nil _).symm⟩
    · exact ⟨[_], rfl⟩
  | step place => exact absurd rfl (idle place)
  | _ => exact ⟨[], (List.append_nil _).symm⟩

theorem step_over (s : Setup) {v : Watch} {place : Nat} {r : Run}
    (here : v.crew.runs[place]? = some r) (ended : r.stage.isOver = true) :
    v.step s place = ⟨⟨v.world.hushed, v.crew.runs⟩, v.posts, v.dead⟩ := by
  have post : (v.posts place).next v.world.now r.stage r.stage = v.posts place := by
    generalize r.stage = stage at ended
    cases stage <;> first | rfl | cases ended
  have posts : (fun i => if i = place then v.posts place else v.posts i) = v.posts := by
    funext i
    split
    · rw [‹i = place›]
    · rfl
  obtain ⟨inside, same⟩ := List.getElem?_eq_some_iff.mp here
  unfold step
  rw [here]
  simp only [Run.step_over s r v.world.hushed ended, post, posts]
  rw [← same, List.set_getElem_self]

/-- What is done around the runs, some of which may begin: the clock goes on, nothing is opened, and
a lock that has not expired stays as it is. -/
structure Beside (v : Watch) (c : Crew) : Prop where
  good : v.crew.Good → c.Good
  began : ∃ jobs : List Job, c.runs = v.crew.runs ++ jobs.map Run.start
  now : v.world.now ≤ c.world.now
  births : c.world.db.revisions.births = v.world.db.revisions.births
  locks : ∀ workspace document l, v.world.db.locks.lock? workspace document = some l →
    v.world.now < l.expiresAt → c.world.db.locks.lock? workspace document = some l

namespace Beside

theorem refl (v : Watch) : v.Beside v.crew where
  good := id
  began := ⟨[], (List.append_nil _).symm⟩
  now := Int.le_refl _
  births := rfl
  locks := fun _ _ _ found _ => found

theorem hushed (v : Watch) : v.Beside ⟨v.world.hushed, v.crew.runs⟩ :=
  { Beside.refl v with good := fun good => good.around (v.world.outside_around v.world.hushed) }

end Beside

/-- What an event does: it is something around the runs, or the next move of a live one. -/
inductive Change (s : Setup) (v : Watch) : Watch → Prop
  | around (c : Crew) (dead : List Nat) : v.Beside c → (∀ i ∈ v.dead, i ∈ dead) →
      Change s v ⟨c, v.posts, dead⟩
  | moved (place : Nat) (r r' : Run) (w : World) : v.crew.runs[place]? = some r →
      place ∉ v.dead → Run.Move s r v.world.hushed r' w →
      Change s v ⟨⟨w, v.crew.runs.set place r'⟩,
        fun i => if i = place then (v.posts place).next v.world.now r.stage r'.stage
          else v.posts i, v.dead⟩

theorem Change.on {s : Setup} {v : Watch} {t : Turn} (beside : v.Beside (v.crew.turn t)) :
    Change s v (v.on t) := .around _ _ beside fun _ dead => dead

theorem step_change (s : Setup) (v : Watch) {place : Nat} (alive : place ∉ v.dead) :
    Change s v (v.step s place) := by
  cases here : v.crew.runs[place]? with
  | none =>
    unfold step
    rw [here]
    exact .around _ _ (.refl v) fun _ dead => dead
  | some r =>
    by_cases ended : r.stage.isOver = true
    · rw [step_over s here ended]
      exact .around _ _ (.hushed v) fun _ dead => dead
    · have m := Run.step_move s r v.world.hushed (by simpa using ended)
      unfold step
      rw [here]
      exact .moved place r _ _ here alive m

theorem turn_change (s : Setup) (v : Watch) (e : Event) : Change s v (v.turn s e) := by
  have began := v.turn_runs s e
  have good : ∀ t : Turn, v.crew.Good → (v.crew.turn t).Good := fun t good => (good.turn t).1
  cases e with
  | step place =>
    simp only [turn]
    split
    · exact .around _ _ (.refl v) fun _ dead => dead
    · exact v.step_change s ‹_›
  | die place => exact .around _ _ (.refl v) fun _ dead => List.mem_cons_of_mem _ dead
  | claim =>
    have world : (v.on .claim).world = v.world.claim.2 := v.crew.claim_world
    refine .on ⟨good .claim, began (by simp), ?_, ?_, ?_⟩
    · exact Int.le_of_eq (congrArg World.now world).symm
    · exact congrArg (·.db.revisions.births) world
    · intro workspace document l found _
      exact (congrArg (·.db.locks.lock? workspace document) world).trans found
  | failAbandoned olderThan =>
    exact .on ⟨good _, began (by simp), Int.le_refl _, Revisions.births_failed _ _ _ _,
      fun _ _ _ found _ => found⟩
  | lock workspace document =>
    exact .on ⟨good _, began (by simp), Int.le_refl _, rfl, fun _ _ _ found unexpired =>
      Locks.lock?_acquire_unexpired found unexpired _ _ _ _⟩
  | advance ms =>
    exact .on ⟨good _, began (by simp), Int.le_add_of_nonneg_right (Int.natCast_nonneg ms), rfl,
      fun _ _ _ found _ => found⟩
  | _ => exact .on ⟨good _, began (by simp), Int.le_refl _, rfl, fun _ _ _ found _ => found⟩

theorem Change.now_le {s : Setup} {v v' : Watch} (c : Change s v v') :
    v.world.now ≤ v'.world.now := by
  cases c with
  | around _ _ beside => exact beside.now
  | moved _ _ _ _ _ _ m => exact Int.le_of_eq (m.now_kept v.world.hushed_quiet).symm

theorem now_le_play (s : Setup) (v : Watch) (events : List Event) :
    v.world.now ≤ (v.play s events).world.now := by
  induction events generalizing v with
  | nil => exact Int.le_refl _
  | cons e rest ih => exact Int.le_trans (v.turn_change s e).now_le (ih (v.turn s e))

namespace Kept

variable {s : Setup} {v : Watch} (h : v.Kept s) (inTime : v.InTime s)
include h

theorem lock {i : Nat} {r : Run} (inside : v.Inside i r) :
    ∃ holder, r.holder = some holder ∧
      v.world.db.locks.lock? r.job.workspaceId r.job.documentId =
        some ⟨r.job.workspaceId, r.job.documentId, holder,
          (v.posts i).since + s.config.lockMillis⟩ := by
  have isInside := inside.2.2
  simp only [Run.isInside, Bool.and_eq_true] at isInside
  obtain ⟨holder, held⟩ := Option.isSome_iff_exists.mp isInside.1
  exact ⟨holder, held, h.held i r inside holder held⟩

/-- No two live runs are at work on one document. -/
theorem one_inside {i j : Nat} {a b : Run} (insideA : v.Inside i a) (insideB : v.Inside j b)
    (same : a.SameDocument b) : i = j := by
  obtain ⟨holderA, heldA, lockA⟩ := h.lock insideA
  obtain ⟨holderB, heldB, lockB⟩ := h.lock insideB
  rw [same.1, same.2, lockB] at lockA
  obtain rfl : holderB = holderA := congrArg Lock.holder (Option.some.inj lockA)
  exact h.alone i j a b insideA.1 insideB.1 holderB heldA heldB

include inTime

/-- The repairs leave alone what a live run has opened. -/
theorem spared_abandoned {i : Nat} {r : Run} (inside : v.Inside i r) {id : String}
    (opened : (v.posts i).opened = some id) (olderThan : Int) :
    (v.turn s (.failAbandoned olderThan)).world.db.revisions.revision? id =
      v.world.db.revisions.revision? id := by
  refine Revisions.revision?_failAbandoned ?_ v.world.now
  intro t born
  have since := (h.posts i).opened id opened t born
  have young := inTime.inside i r inside
  rw [inTime.cutoff_eq]
  omega

/-- What is done around the runs, while more workers may die. -/
theorem around {c : Crew} (b : v.Beside c) {dead : List Nat} (more : ∀ i ∈ v.dead, i ∈ dead) :
    Kept s ⟨c, v.posts, dead⟩ where
  good := b.good h.good
  posts := fun i => (h.posts i).later b.now b.births
  noted := by
    intro i r there id opened
    rcases Crew.getElem?_started b.began there with old | ⟨job, rfl⟩
    · exact h.noted i r old id opened
    · cases opened
  held := by
    rintro i r ⟨there, alive, isInside⟩ holder held
    rcases Crew.getElem?_started b.began there with old | ⟨job, rfl⟩
    · have inside : v.Inside i r := ⟨old, fun dead => alive (more i dead), isInside⟩
      exact b.locks _ _ _ (h.held i r inside holder held) (inTime.inside i r inside)
    · cases held
  alone := by
    intro i j a b' thereA thereB holder heldA heldB
    rcases Crew.getElem?_started b.began thereA with oldA | ⟨job, rfl⟩
    · rcases Crew.getElem?_started b.began thereB with oldB | ⟨job, rfl⟩
      · exact h.alone i j a b' oldA oldB holder heldA heldB
      · cases heldB
    · cases heldA

theorem move {place : Nat} {r r' : Run} {w : World} (here : v.crew.runs[place]? = some r)
    (alive : place ∉ v.dead) (quiet : v.world.Quiet) (m : Run.Move s r v.world r' w) :
    Kept s ⟨⟨w, v.crew.runs.set place r'⟩,
      fun i => if i = place then (v.posts place).next v.world.now r.stage r'.stage
        else v.posts i, v.dead⟩ where
  good := h.good.move here m
  posts := by
    intro i
    simp only
    split
    · exact (h.posts place).move m quiet h.good.sound
    · exact (h.posts i).beside m quiet
  noted := by
    intro i b there id opened
    rcases Crew.getElem?_moved there with ⟨rfl, rfl⟩ | ⟨ne, old⟩
    · simp only [if_true]
      exact m.open_noted (h.noted i r here id) opened
    · simp only [if_neg ne]
      exact h.noted i b old id opened
  held := by
    rintro i b ⟨there, alive', isInside⟩ holder held
    rcases Crew.getElem?_moved there with ⟨rfl, rfl⟩ | ⟨ne, old⟩
    · simp only [Run.isInside, Bool.and_eq_true, Bool.not_eq_true'] at isInside
      simp only [if_true]
      refine m.own_lock quiet inTime.low inTime.high (fun _ had => ?_) held isInside.2
      have inside : v.Inside i r := by
        refine ⟨here, alive, ?_⟩
        rw [Run.isInside, had, m.going]
        rfl
      exact ⟨inTime.inside i r inside, h.held i r inside holder had⟩
    · simp only [if_neg ne]
      have inside : v.Inside i b := ⟨old, alive', isInside⟩
      refine m.lock?_stays quiet (h.held i b inside holder held) (inTime.inside i b inside) ?_
      intro _ _ mine
      exact ne (h.alone i place b r old here holder held mine)
  alone := by
    intro i j a b thereA thereB holder heldA heldB
    have known : ∀ (k : Nat) (x : Run), v.crew.runs[k]? = some x → x.holder = some holder →
        ¬ Ahead v.world.drawn holder := fun k x old held => (h.good.known k x old).holder _ held
    rcases Crew.getElem?_moved thereA with ⟨rfl, rfl⟩ | ⟨neA, oldA⟩
    · rcases Crew.getElem?_moved thereB with ⟨rfl, _⟩ | ⟨neB, oldB⟩
      · rfl
      · have before := m.holder_before heldA (known j b oldB heldB)
        exact h.alone i j r b here oldB holder before heldB
    · rcases Crew.getElem?_moved thereB with ⟨rfl, rfl⟩ | ⟨_, oldB⟩
      · have before := m.holder_before heldB (known i a oldA heldA)
        exact h.alone i j a r oldA here holder heldA before
      · exact h.alone i j a b oldA oldB holder heldA heldB

theorem hushed : Kept s ⟨⟨v.world.hushed, v.crew.runs⟩, v.posts, v.dead⟩ :=
  h.around inTime (.hushed v) fun _ dead => dead

theorem change {v' : Watch} (c : Change s v v') : v'.Kept s := by
  cases c with
  | around c dead b more => exact h.around inTime b more
  | moved place r r' w here alive m =>
    exact (h.hushed inTime).move ⟨inTime.low, inTime.high, inTime.inside⟩ here alive
      v.world.hushed_quiet m

theorem step {place : Nat} (alive : place ∉ v.dead) : (v.step s place).Kept s :=
  h.change inTime (v.step_change s alive)

theorem on {t : Turn}
    (began : ∃ jobs : List Job, (v.on t).crew.runs = v.crew.runs ++ jobs.map Run.start)
    (now : v.world.now ≤ (v.on t).world.now)
    (births : (v.on t).world.db.revisions.births = v.world.db.revisions.births)
    (locks : ∀ workspace document l, v.world.db.locks.lock? workspace document = some l →
      v.world.now < l.expiresAt →
      (v.on t).world.db.locks.lock? workspace document = some l) : (v.on t).Kept s :=
  h.change inTime (.on ⟨fun good => (good.turn t).1, began, now, births, locks⟩)

theorem turn (e : Event) : (v.turn s e).Kept s := h.change inTime (v.turn_change s e)

omit inTime in
/-- Whatever happens, as long as everything is in time. -/
theorem play {events : List Event} (timely : v.Timely s events) :
    (v.play s events).Kept s ∧ (v.play s events).InTime s := by
  induction events generalizing v with
  | nil => exact ⟨h, timely⟩
  | cons e rest ih => exact ih (h.turn timely.1 e) timely.2

end Kept

end Watch

end IndexingPipeline
