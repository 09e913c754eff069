import IndexingPipeline.Proofs.Outcome

/-!
# Locks exclude

Parties lock documents, give their locks back and ask whether a document is locked, while the
clock goes on. Whoever takes a lock gets a handle that nobody got before, and a document has at
most one lock. As long as a lock lives and its own handle is not given back, nobody else takes
it, whatever other handles are given back and however often. This needs the moment at which a
lock expires to be a moment: a time to live that leads beyond all moments comes back in at the
other end, and such a lock has expired before it is taken.
-/

namespace IndexingPipeline

open Identifier (Ahead ahead_ofNat)

namespace Locks

def ofDocument (ls : Locks) (workspace document : String) : Locks :=
  ls.filter (isFor workspace document)

variable {ls : Locks} {now lifetime : Int} {workspace document workspace' document' holder : String}

theorem mem_ofDocument {l : Lock} :
    l ∈ ls.ofDocument workspace document ↔ l ∈ ls ∧ isFor workspace document l = true :=
  List.mem_filter

theorem lock?_eq_head? (ls : Locks) (workspace document : String) :
    ls.lock? workspace document = (ls.ofDocument workspace document).head? :=
  List.head?_filter.symm

theorem isHeld_eq_any (ls : Locks) (now : Int) (workspace document : String) :
    ls.isHeld now workspace document =
      (ls.ofDocument workspace document).any fun l => now < l.expiresAt := by
  rw [ofDocument, List.any_filter]
  rfl

theorem ofDocument_of_none (free : ls.lock? workspace document = none) :
    ls.ofDocument workspace document = [] :=
  List.head?_eq_none_iff.mp (lock?_eq_head? ls workspace document ▸ free)

/-- A document that has at most one lock has the one that is found. -/
theorem ofDocument_of_some (one : (ls.ofDocument workspace document).length ≤ 1) {l : Lock}
    (found : ls.lock? workspace document = some l) : ls.ofDocument workspace document = [l] := by
  rw [lock?_eq_head?] at found
  obtain ⟨rest, rows⟩ := List.head?_eq_some_iff.mp found
  rw [rows, List.length_cons] at one
  have last : rest = [] := List.length_eq_zero_iff.mp (by omega)
  rw [rows, last]

theorem acquire_iff (one : (ls.ofDocument workspace document).length ≤ 1) :
    (ls.acquire now lifetime workspace document holder).1 = true ↔
      ∀ l ∈ ls.ofDocument workspace document, l.expiresAt ≤ now := by
  rcases ls.acquire_cases now lifetime workspace document holder with
    ⟨free, added⟩ | ⟨l, found, expired, replaced⟩ | ⟨l, found, held, refused⟩
  · rw [added, ofDocument_of_none free]
    simp
  · rw [replaced, ofDocument_of_some one found]
    simpa using expired
  · rw [refused, ofDocument_of_some one found]
    simpa using held

/-- The locks of a document after one has taken the place of those of its document. -/
theorem ofDocument_replaced (ls : Locks) (mine : Lock) (workspace document : String) :
    ofDocument (ls.map fun l => if isFor mine.workspaceId mine.documentId l then mine else l)
        workspace document =
      (ls.ofDocument workspace document).map fun l =>
        if isFor mine.workspaceId mine.documentId l then mine else l := by
  rw [ofDocument, List.filter_map, isFor_replaced]
  rfl

/-- Whoever takes a document's lock has the only one. -/
theorem ofDocument_acquired (one : (ls.ofDocument workspace document).length ≤ 1)
    (taken : (ls.acquire now lifetime workspace document holder).1 = true) :
    (ls.acquire now lifetime workspace document holder).2.ofDocument workspace document =
      [⟨workspace, document, holder, wrap64 (now + lifetime)⟩] := by
  rcases ls.acquire_cases now lifetime workspace document holder with
    ⟨free, added⟩ | ⟨l, found, _, replaced⟩ | ⟨_, _, _, refused⟩
  · rw [added, ofDocument, List.filter_append, ← ofDocument, ofDocument_of_none free]
    simp [isFor]
  · have mine := ls.ofDocument_replaced
      ⟨workspace, document, holder, wrap64 (now + lifetime)⟩ workspace document
    have here : isFor workspace document l = true := List.find?_some found
    rw [ofDocument_of_some one found, List.map_singleton, if_pos here] at mine
    rw [replaced]
    exact mine
  · rw [refused] at taken
    cases taken

/-- Taking the lock of one document leaves alone the locks of every other. -/
theorem ofDocument_acquire_other (other : ¬ (workspace' = workspace ∧ document' = document)) :
    (ls.acquire now lifetime workspace' document' holder).2.ofDocument workspace document =
      ls.ofDocument workspace document := by
  have elsewhere : isFor workspace document
      ⟨workspace', document', holder, wrap64 (now + lifetime)⟩ = false := by
    rw [← Bool.not_eq_true, isFor_iff]
    exact other
  rcases ls.acquire_cases now lifetime workspace' document' holder with
    ⟨_, added⟩ | ⟨_, _, _, replaced⟩ | ⟨_, _, _, refused⟩
  · rw [added, ofDocument, List.filter_append, ← ofDocument]
    simp [elsewhere]
  · have kept := ls.ofDocument_replaced
      ⟨workspace', document', holder, wrap64 (now + lifetime)⟩ workspace document
    rw [replaced]
    refine kept.trans (Eq.trans (List.map_congr_left ?_) (List.map_id _))
    intro l member
    rw [isFor_ne (mem_ofDocument.mp member).2 other]
    rfl
  · rw [refused]

/-- Giving a lock back takes away those of its holder, if it is one of this document. -/
theorem ofDocument_release (ls : Locks) (workspace' document' holder workspace document : String) :
    (ls.release workspace' document' holder).ofDocument workspace document =
      (ls.ofDocument workspace document).filter fun l =>
        !(isFor workspace' document' l && l.holder = holder) := by
  rw [release, ofDocument, ofDocument, List.filter_filter, List.filter_filter]
  exact List.filter_congr fun l _ => Bool.and_comm _ _

end Locks

/-- What whoever takes a lock is given, to give it back with. -/
structure Handle where
  workspaceId : String
  documentId : String
  holder : String
  deriving DecidableEq, Repr

/-- What a party can ask for, and that time goes by. -/
inductive LockRequest where
  | lock (workspace document : String)
  | unlock (h : Handle)
  | isLocked (workspace document : String)
  | advance (ms : Nat)
  deriving DecidableEq, Repr

def LockRequest.concerns (workspace document : String) : LockRequest → Prop
  | .lock workspace' document' => workspace' = workspace ∧ document' = document
  | .unlock h => h.workspaceId = workspace ∧ h.documentId = document
  | .isLocked workspace' document' => workspace' = workspace ∧ document' = document
  | .advance _ => False

namespace World

def lock (ttl : Nat) (w : World) (workspace document : String) : Option Handle × World :=
  let (holder, w) := w.acquire (wrap64 ttl) workspace document
  (holder.map (⟨workspace, document, ·⟩), w)

def unlock (w : World) (h : Handle) : World :=
  w.onLocks (·.release h.workspaceId h.documentId h.holder)

/-- Whether a document has a lock that has not expired. -/
def isLocked (w : World) (workspace document : String) : Bool :=
  w.db.locks.isHeld w.now workspace document

variable {w : World} {ttl : Nat} {workspace document : String} {h : Handle}

theorem lock_isSome (w : World) (ttl : Nat) (workspace document : String) :
    (w.lock ttl workspace document).1.isSome =
      (w.db.locks.acquire w.now (wrap64 ttl) workspace document
        (Identifier.ofNat w.drawn)).1 := by
  rw [lock, Option.isSome_map, acquire_holder]
  cases (w.db.locks.acquire w.now (wrap64 ttl) workspace document (Identifier.ofNat w.drawn)).1 <;>
    rfl

/-- A handle is for the document that was asked for, and for a holder that was not drawn before. -/
theorem handle_of_lock (taken : (w.lock ttl workspace document).1 = some h) :
    h = ⟨workspace, document, Identifier.ofNat w.drawn⟩ := by
  obtain ⟨holder, got, rfl⟩ := Option.map_eq_some_iff.mp taken
  rw [holder_of_acquire got]

end World

/-- A world, and the handles that were given so far. -/
structure LockDesk where
  world : World
  given : List Handle

namespace LockDesk

def initial (now : Int) (env : Environment) (peer : Peer) : LockDesk :=
  ⟨World.initial now env peer, []⟩

def serve (ttl : Nat) (v : LockDesk) : LockRequest → LockDesk
  | .lock workspace document =>
    let (handle, w) := v.world.lock ttl workspace document
    ⟨w, v.given ++ handle.toList⟩
  | .unlock h => ⟨v.world.unlock h, v.given⟩
  | .isLocked _ _ => v
  | .advance ms => ⟨{ v.world with now := v.world.now + ms }, v.given⟩

def serveAll (ttl : Nat) (v : LockDesk) (rs : List LockRequest) : LockDesk :=
  rs.foldl (serve ttl) v

abbrev locks (v : LockDesk) : Locks := v.world.db.locks

/-- Every document has at most one lock, and all handles that were given have been drawn. -/
structure Orderly (v : LockDesk) : Prop where
  one : ∀ workspace document, (v.locks.ofDocument workspace document).length ≤ 1
  drawn : ∀ h ∈ v.given, ¬ Ahead v.world.drawn h.holder

theorem initial_orderly (now : Int) (env : Environment) (peer : Peer) :
    (initial now env peer).Orderly where
  one := fun _ _ => Nat.zero_le 1
  drawn := fun _ member => absurd member List.not_mem_nil

variable {v : LockDesk} {workspace document : String}

/-- What is asked for one document leaves alone the locks of every other. -/
theorem serve_other (ttl : Nat) {r : LockRequest} (other : ¬ r.concerns workspace document) :
    (v.serve ttl r).locks.ofDocument workspace document =
      v.locks.ofDocument workspace document := by
  cases r with
  | lock => exact Locks.ofDocument_acquire_other other
  | unlock h =>
    refine (v.locks.ofDocument_release _ _ _ _ _).trans (List.filter_eq_self.mpr ?_)
    intro l member
    rw [Locks.isFor_ne (Locks.mem_ofDocument.mp member).2 other]
    rfl
  | isLocked => rfl
  | advance => rfl

theorem serveAll_other (ttl : Nat) {rs : List LockRequest}
    (other : ∀ r ∈ rs, ¬ r.concerns workspace document) :
    (v.serveAll ttl rs).locks.ofDocument workspace document =
      v.locks.ofDocument workspace document := by
  induction rs generalizing v with
  | nil => rfl
  | cons r rest ih =>
    have first := serve_other (v := v) ttl (other r List.mem_cons_self)
    exact (ih fun r' later => other r' (List.mem_cons_of_mem r later)).trans first

theorem serve_now_le (ttl : Nat) (v : LockDesk) (r : LockRequest) :
    v.world.now ≤ (v.serve ttl r).world.now := by
  cases r with
  | advance ms => exact Int.le_add_of_nonneg_right (Int.natCast_nonneg ms)
  | _ => exact Int.le_refl _

theorem serveAll_now_le (ttl : Nat) (v : LockDesk) (rs : List LockRequest) :
    v.world.now ≤ (v.serveAll ttl rs).world.now := by
  induction rs generalizing v with
  | nil => exact Int.le_refl _
  | cons r rest ih => exact Int.le_trans (v.serve_now_le ttl r) (ih (v.serve ttl r))

/-- A lock that lives stays as it is until its own handle is given back. -/
theorem serve_keeps (ttl : Nat) {r : LockRequest} {l : Lock}
    (alone : v.locks.ofDocument workspace document = [l]) (living : v.world.now < l.expiresAt)
    (kept : r ≠ .unlock ⟨workspace, document, l.holder⟩) :
    (v.serve ttl r).locks.ofDocument workspace document = [l] := by
  by_cases own : r.concerns workspace document
  · cases r with
    | lock workspace' document' =>
      obtain ⟨rfl, rfl⟩ := own
      have found : v.locks.lock? workspace' document' = some l := by
        rw [Locks.lock?_eq_head?, alone]
        rfl
      have refused := Locks.acquire_of_unexpired found living (wrap64 ttl)
        (Identifier.ofNat v.world.drawn)
      have same : (v.serve ttl (.lock workspace' document')).locks = v.locks :=
        Locks.acquire_refused refused
      rw [same, alone]
    | unlock h =>
      obtain ⟨rfl, rfl⟩ := own
      have another : l.holder ≠ h.holder := by
        intro same
        exact kept (by rw [same])
      refine (v.locks.ofDocument_release _ _ _ _ _).trans ?_
      rw [alone]
      exact List.filter_eq_self.mpr (by simp [another])
    | isLocked => exact alone
    | advance => cases own
  · exact (serve_other ttl own).trans alone

theorem serveAll_keeps (ttl : Nat) {rs : List LockRequest} {l : Lock}
    (alone : v.locks.ofDocument workspace document = [l])
    (living : (v.serveAll ttl rs).world.now < l.expiresAt)
    (kept : LockRequest.unlock ⟨workspace, document, l.holder⟩ ∉ rs) :
    (v.serveAll ttl rs).locks.ofDocument workspace document = [l] := by
  induction rs generalizing v with
  | nil => exact alone
  | cons r rest ih =>
    obtain ⟨first, others⟩ := not_or.mp (fun member => kept (List.mem_cons.mpr member))
    have now : v.world.now < l.expiresAt :=
      Int.lt_of_le_of_lt (v.serveAll_now_le ttl (r :: rest)) living
    exact ih (serve_keeps ttl alone now fun same => first same.symm) living others

namespace Orderly

variable (orderly : v.Orderly) (ttl : Nat)
include orderly

theorem lock (workspace document : String) :
    (v.serve ttl (.lock workspace document)).Orderly where
  one := by
    intro workspace' document'
    by_cases own : workspace = workspace' ∧ document = document'
    · obtain ⟨rfl, rfl⟩ := own
      have one := orderly.one workspace document
      change ((v.locks.acquire v.world.now (wrap64 ttl) workspace document
        (Identifier.ofNat v.world.drawn)).2.ofDocument workspace document).length ≤ 1
      cases taken : (v.locks.acquire v.world.now (wrap64 ttl) workspace document
          (Identifier.ofNat v.world.drawn)).1 with
      | true =>
        rw [Locks.ofDocument_acquired one taken]
        exact Nat.le_refl 1
      | false =>
        rw [Locks.acquire_refused taken]
        exact one
    · rw [serve_other ttl (r := .lock workspace document) own]
      exact orderly.one workspace' document'
  drawn := by
    intro h member ahead
    rcases List.mem_append.mp member with old | new
    · exact orderly.drawn h old (ahead.mono (Nat.le_succ _))
    · rw [World.handle_of_lock (Option.mem_toList.mp new)] at ahead
      exact Nat.not_succ_le_self _ (ahead_ofNat.mp ahead)

theorem serve (r : LockRequest) : (v.serve ttl r).Orderly := by
  cases r with
  | lock workspace document => exact orderly.lock ttl workspace document
  | unlock h =>
    refine ⟨?_, orderly.drawn⟩
    intro workspace document
    refine Nat.le_trans ?_ (orderly.one workspace document)
    rw [LockDesk.serve, locks, World.unlock, World.onLocks, Locks.ofDocument_release]
    exact List.length_filter_le _ _
  | isLocked => exact orderly
  | advance ms => exact ⟨orderly.one, orderly.drawn⟩

theorem serveAll (rs : List LockRequest) : (v.serveAll ttl rs).Orderly := by
  induction rs generalizing v with
  | nil => exact orderly
  | cons r rest ih => exact ih (orderly.serve ttl r)

/-- A document's lock can be taken when no lock of it lives, and then alone. -/
theorem lock_iff (workspace document : String) :
    (v.world.lock ttl workspace document).1.isSome = true ↔
      ∀ l ∈ v.locks.ofDocument workspace document, l.expiresAt ≤ v.world.now := by
  rw [World.lock_isSome]
  exact Locks.acquire_iff (orderly.one workspace document)

theorem isLocked_eq (workspace document : String) :
    v.world.isLocked workspace document = !(v.world.lock ttl workspace document).1.isSome := by
  have free := orderly.lock_iff ttl workspace document
  rw [World.isLocked, Locks.isHeld_eq_any, Bool.eq_iff_iff, Bool.not_eq_true', ← Bool.not_eq_true,
    free, List.any_eq_true]
  simp only [decide_eq_true_eq, Classical.not_forall, Int.not_le, exists_prop]

/-- Whoever takes a document's lock has the only one, and it lives for so many milliseconds. -/
theorem taken {h : Handle} (taken : (v.world.lock ttl workspace document).1 = some h)
    (low : -(Number.twoTo 63 : Int) ≤ v.world.now)
    (high : v.world.now + ttl < Number.twoTo 63) :
    (v.serve ttl (.lock workspace document)).locks.ofDocument workspace document =
      [⟨workspace, document, h.holder, v.world.now + ttl⟩] := by
  have got : (v.locks.acquire v.world.now (wrap64 ttl) workspace document
      (Identifier.ofNat v.world.drawn)).1 = true := by
    rw [← World.lock_isSome, taken]
    rfl
  have row := Locks.ofDocument_acquired (orderly.one workspace document) got
  have expiry : wrap64 (v.world.now + wrap64 ttl) = v.world.now + ttl := after_of_inRange low high
  rw [expiry] at row
  rw [World.handle_of_lock taken]
  exact row

end Orderly

end LockDesk

/-- Whatever was asked for before, on a database that was empty: a document's lock can be taken if
and only if no lock of it lives, and that is when it is not locked. Whoever takes it gets a handle
that nobody got before, and until this handle is given back, and for so many milliseconds, nobody
else can take the lock and the document is locked, whatever other handles are given back. What is
asked for other documents leaves alone the locks of a document. -/
theorem lock_exclusive (ttl : Nat) (now : Int) (env : Environment) (peer : Peer)
    (earlier : List LockRequest) :
    let v := (LockDesk.initial now env peer).serveAll ttl earlier
    (∀ workspace document,
      ((v.world.lock ttl workspace document).1.isSome = true ↔
        ∀ l ∈ v.locks.ofDocument workspace document, l.expiresAt ≤ v.world.now) ∧
      v.world.isLocked workspace document =
        !(v.world.lock ttl workspace document).1.isSome) ∧
    (∀ workspace document h, (v.world.lock ttl workspace document).1 = some h →
      h ∉ v.given ∧
      (-(Number.twoTo 63 : Int) ≤ v.world.now → v.world.now + ttl < Number.twoTo 63 →
        ∀ later : List LockRequest, .unlock h ∉ later →
          let u := ((v.serve ttl (.lock workspace document)).serveAll ttl later).world
          u.now < v.world.now + ttl →
            (u.lock ttl workspace document).1 = none ∧ u.isLocked workspace document = true)) ∧
    ∀ workspace document (later : List LockRequest),
      (∀ r ∈ later, ¬ r.concerns workspace document) →
      (v.serveAll ttl later).locks.ofDocument workspace document =
        v.locks.ofDocument workspace document := by
  intro v
  have orderly : v.Orderly := (LockDesk.initial_orderly now env peer).serveAll ttl earlier
  refine ⟨?_, ?_, ?_⟩
  · intro workspace document
    exact ⟨orderly.lock_iff ttl workspace document, orderly.isLocked_eq ttl workspace document⟩
  · intro workspace document h taken
    have own := World.handle_of_lock taken
    constructor
    · intro member
      refine orderly.drawn h member ?_
      rw [own]
      exact ahead_ofNat.mpr (Nat.le_refl _)
    · intro low high later kept u living
      have row := orderly.taken ttl taken low high
      have same : h = ⟨workspace, document, h.holder⟩ := by rw [own]
      rw [same] at kept
      have stays := LockDesk.serveAll_keeps ttl row living kept
      have now_orderly := (orderly.lock ttl workspace document).serveAll ttl later
      have refused : ¬ (u.lock ttl workspace document).1.isSome = true := by
        rw [now_orderly.lock_iff, stays]
        simpa using living
      have locked := now_orderly.isLocked_eq ttl workspace document
      rw [Bool.eq_false_iff.mpr refused] at locked
      exact ⟨Option.not_isSome_iff_eq_none.mp refused, locked⟩
  · intro workspace document later other
    exact LockDesk.serveAll_other ttl other

namespace Sample

def forgotten : LockDesk :=
  (LockDesk.initial 1000 [] {}).serveAll 60000 [.lock "w" "d", .advance 60000]

def stale : Handle := ⟨"w", "d", Identifier.ofNat 0⟩

/-- Somebody else takes it over; the stale handle is given back twice, and another document is
locked. -/
def returned : List LockRequest :=
  [.unlock stale, .lock "w" "d", .lock "w" "e", .advance 59999, .unlock stale]

/-- A configuration under which no lock is meant ever to expire. -/
def endless : Config :=
  { setup.config with worker := { lockTtlSeconds := Number.twoTo 63 - 1 } }

end Sample

theorem lock_exclusive_sample :
    let v := Sample.forgotten
    let u := ((v.serve 60000 (.lock "w" "d")).serveAll 60000 Sample.returned).world
    (v.world.lock 60000 "w" "d").1 = some ⟨"w", "d", Identifier.ofNat 1⟩ ∧
      u.now < v.world.now + 60000 ∧ (u.lock 60000 "w" "d").1 = none ∧
      u.isLocked "w" "d" = true := by
  obtain ⟨_, exclusive, _⟩ := lock_exclusive 60000 1000 [] {} [.lock "w" "d", .advance 60000]
  have taken : (Sample.forgotten.world.lock 60000 "w" "d").1 =
      some ⟨"w", "d", Identifier.ofNat 1⟩ := by decide +kernel
  obtain ⟨_, held⟩ := exclusive "w" "d" _ taken
  exact ⟨taken, by decide +kernel,
    held (by decide +kernel) (by decide +kernel) Sample.returned (by decide +kernel)
      (by decide +kernel)⟩

/-- A time to live that is accepted, and leads beyond all moments: the lock has expired as soon as
it is taken, and is taken once more at the same moment. -/
theorem lock_not_exclusive :
    let ttl := Sample.endless.worker.lockTtlSeconds * 1000
    let v := LockDesk.initial 1000 [] {}
    let u := (v.serve ttl (.lock "w" "d")).world
    Sample.endless.check = .ok () ∧ World.lockLifetime Sample.endless = wrap64 ttl ∧
      (v.world.lock ttl "w" "d").1 = some ⟨"w", "d", Identifier.ofNat 0⟩ ∧
      u.now < v.world.now + ttl ∧
      (u.lock ttl "w" "d").1 = some ⟨"w", "d", Identifier.ofNat 1⟩ ∧
      u.isLocked "w" "d" = false := by
  exact ⟨rfl, by decide +kernel⟩

end IndexingPipeline
