import IndexingPipeline.Proofs.Freshness
import IndexingPipeline.Token.Sweeper

/-!
# What sweeping leaves to be seen

A cache is used while time goes on and sweeps come in between, by hand or by sweepers. Beside it
stands a shelf from which nothing is ever swept: the cache has the same at each place, or nothing
where the shelf has what has expired. So what can be found does not tell how often the cache was
swept. What a removal gives back does: it gives back what has expired, unless that was swept.
-/

namespace IndexingPipeline

/-- What can be done with a cache while time goes on. -/
inductive CacheCall (α β : Type) where
  | insert (key : α) (value : β) (lifetime : Nat)
  | get (key : α)
  | remove (key : α)
  | advance (ms : Nat)
  | sweep
  | start (interval : Nat)
  deriving DecidableEq, Repr

namespace CacheCall

variable {α β : Type}

def isHidden : CacheCall α β → Bool
  | .sweep => true
  | .start _ => true
  | _ => false

/-- The calls without what only sweeps. -/
def essence (calls : List (CacheCall α β)) : List (CacheCall α β) :=
  calls.filter fun call => !call.isHidden

end CacheCall

/-- How a cache answers: what can be found at the moment of the call, and what it gives back. -/
structure CacheAnswer (α β : Type) where
  call : CacheCall α β
  moment : Int
  visible : Option β
  given : Option β
  deriving DecidableEq, Repr

namespace CacheAnswer

variable {α β : Type}

/-- Everything but what is given back. -/
def sight (a : CacheAnswer α β) : CacheCall α β × Int × Option β := (a.call, a.moment, a.visible)

/-- Whether a call removes what can no longer be found. -/
def isLate (a : CacheAnswer α β) : Bool :=
  match a.call with
  | .remove _ => a.visible.isNone
  | _ => false

/-- What can be found is given back, and nothing else, unless a call removes what cannot be
found. -/
def Faithful (a : CacheAnswer α β) : Prop := a.given = a.visible ∨ a.isLate

end CacheAnswer

variable {α β : Type} [DecidableEq α]

namespace SweptCache

/-- A value whose end the clock cannot tell is not kept. -/
def call (c : SweptCache α β) : CacheCall α β → SweptCache α β
  | .insert key value lifetime =>
    { c with cache := (c.cache.insert? c.now key value lifetime).getD c.cache }
  | .get _ => c
  | .remove key => { c with cache := (c.cache.remove key).2 }
  | .advance ms => c.advance ms
  | .sweep => { c with cache := (c.cache.sweep c.now).2 }
  | .start interval => c.start interval

def run (c : SweptCache α β) (calls : List (CacheCall α β)) : SweptCache α β := calls.foldl call c

def visible (c : SweptCache α β) (key : α) : Option β := c.cache.get? c.now key

def answer? (c : SweptCache α β) (call : CacheCall α β) : Option (CacheAnswer α β) :=
  match call with
  | .get key => some ⟨call, c.now, c.visible key, c.cache.get? c.now key⟩
  | .remove key => some ⟨call, c.now, c.visible key, (c.cache.remove key).1⟩
  | _ => none

def answers (c : SweptCache α β) : List (CacheCall α β) → List (CacheAnswer α β)
  | [] => []
  | call :: rest => (c.answer? call).toList ++ answers (c.call call) rest

end SweptCache

/-- What was last kept at each place, expired or not. -/
structure Shelf (α β : Type) where
  now : Int
  place : α → Option (Kept β) := fun _ => none

namespace Shelf

def call (s : Shelf α β) : CacheCall α β → Shelf α β
  | .insert key value lifetime =>
    if s.now + lifetime < Cache.horizon then
      { s with place := Function.update s.place key (some ⟨value, s.now + lifetime⟩) }
    else s
  | .remove key => { s with place := Function.update s.place key none }
  | .advance ms => { s with now := s.now + ms }
  | _ => s

def run (s : Shelf α β) (calls : List (CacheCall α β)) : Shelf α β := calls.foldl call s

def visible (s : Shelf α β) (key : α) : Option β :=
  ((s.place key).filter fun k => s.now < k.expiresAt).map (·.value)

def sight? (s : Shelf α β) (call : CacheCall α β) : Option (CacheCall α β × Int × Option β) :=
  match call with
  | .get key => some (call, s.now, s.visible key)
  | .remove key => some (call, s.now, s.visible key)
  | _ => none

def sights (s : Shelf α β) : List (CacheCall α β) → List (CacheCall α β × Int × Option β)
  | [] => []
  | call :: rest => (s.sight? call).toList ++ sights (s.call call) rest

theorem call_hidden {x : CacheCall α β} (hidden : x.isHidden = true) (s : Shelf α β) :
    s.call x = s ∧ s.sight? x = none := by
  cases x with
  | sweep | start => exact ⟨rfl, rfl⟩
  | _ => cases hidden

theorem sights_essence (s : Shelf α β) (calls : List (CacheCall α β)) :
    s.sights (CacheCall.essence calls) = s.sights calls := by
  induction calls generalizing s with
  | nil => rfl
  | cons x rest ih =>
    by_cases hidden : x.isHidden = true
    · obtain ⟨still, unseen⟩ := call_hidden hidden s
      simpa [CacheCall.essence, hidden, sights, still, unseen] using ih s
    · simpa [CacheCall.essence, hidden, sights] using ih (s.call x)

theorem run_essence (s : Shelf α β) (calls : List (CacheCall α β)) :
    s.run (CacheCall.essence calls) = s.run calls := by
  induction calls generalizing s with
  | nil => rfl
  | cons x rest ih =>
    by_cases hidden : x.isHidden = true
    · simpa [CacheCall.essence, hidden, run, (call_hidden hidden s).1] using ih s
    · simpa [CacheCall.essence, hidden, run] using ih (s.call x)

omit [DecidableEq α] in
theorem visible_of_young {s : Shelf α β} {key : α} {k : Kept β} (shelved : s.place key = some k)
    (young : s.now < k.expiresAt) : s.visible key = some k.value := by
  rw [visible, shelved, Option.filter_some, if_pos (decide_eq_true young), Option.map_some]

omit [DecidableEq α] in
theorem visible_of_expired {s : Shelf α β} {key : α}
    (expired : ∀ k, s.place key = some k → k.expiresAt ≤ s.now) : s.visible key = none := by
  rw [visible, Option.map_eq_none_iff, Option.filter_eq_none_iff]
  intro k shelved
  exact decide_eq_true_iff.not.mpr (Int.not_lt.mpr (expired k shelved))

/-- A cache has what the shelf has, but for some of what has expired. -/
structure Mirrors (s : Shelf α β) (c : SweptCache α β) : Prop where
  now : c.now = s.now
  sound : ∀ {key k}, (key, k) ∈ c.cache.entries → s.place key = some k
  complete : ∀ {key k}, s.place key = some k →
    (key, k) ∈ c.cache.entries ∨ k.expiresAt ≤ s.now

namespace Mirrors

variable {s : Shelf α β} {c : SweptCache α β}

omit [DecidableEq α] in
theorem empty (now : Int) : Mirrors (⟨now, fun _ => none⟩ : Shelf α β) ⟨now, {}, []⟩ where
  now := rfl
  sound := by rintro _ _ ⟨⟩
  complete := by rintro _ _ ⟨⟩

/-- What is at a place of the cache is on the shelf, or its place is free and what is on the shelf
has expired. -/
theorem places (m : Mirrors s c) (key : α) :
    c.cache.entry? key = s.place key ∨
      (c.cache.entry? key = none ∧ ∀ k, s.place key = some k → k.expiresAt ≤ s.now) := by
  cases there : c.cache.entry? key with
  | some k =>
    -- a second place of the key would be what the shelf has as well, so the first one is it
    obtain ⟨front, back, split, _⟩ := List.lookup_eq_some_iff.mp there
    exact .inl (m.sound (by simp [split])).symm
  | none =>
    refine .inr ⟨rfl, fun k shelved => (m.complete shelved).resolve_left fun kept => ?_⟩
    have free : ∀ e ∈ c.cache.entries, key ≠ e.1 := by
      simpa [List.lookup_eq_none_iff, Cache.entry?] using there
    exact free _ kept rfl

theorem visible (m : Mirrors s c) (key : α) : c.visible key = s.visible key := by
  rw [SweptCache.visible, Cache.get?, m.now]
  rcases m.places key with same | ⟨free, expired⟩
  · rw [same, Shelf.visible]
  · rw [free, visible_of_expired expired]
    rfl

omit [DecidableEq α] in
theorem later (m : Mirrors s c) (ms : Nat) (sweepers : List Sweeper) :
    Mirrors { s with now := s.now + ms } ⟨c.now + ms, c.cache, sweepers⟩ where
  now := congrArg (· + (ms : Int)) m.now
  sound := m.sound
  complete shelved := (m.complete shelved).imp_right fun expired =>
    Int.le_trans expired (Int.le_add_of_nonneg_right (Int.natCast_nonneg ms))

omit [DecidableEq α] in
theorem swept (m : Mirrors s c) : Mirrors s { c with cache := c.cache.swept c.now } where
  now := m.now
  sound kept := m.sound (Cache.mem_swept.mp kept).1
  complete {key k} shelved := by
    by_cases expired : k.expiresAt ≤ s.now
    · exact .inr expired
    · have kept := (m.complete shelved).resolve_right expired
      have young : c.now < k.expiresAt := m.now ▸ Int.not_le.mp expired
      exact .inl (Cache.mem_swept.mpr ⟨kept, young⟩)

theorem insert (m : Mirrors s c) (key : α) (value : β) (lifetime : Nat) :
    Mirrors (s.call (.insert key value lifetime)) (c.call (.insert key value lifetime)) := by
  simp only [Shelf.call, SweptCache.call]
  split_ifs with inTime
  · -- the old place of the key is gone on both sides
    rw [← m.now] at inTime
    have kept : c.cache.insert? c.now key value lifetime = some _ :=
      Cache.insert?_eq_some.mpr ⟨inTime, rfl⟩
    rw [kept, Option.getD_some, ← m.now]
    refine ⟨rfl, ?_, ?_⟩ <;> intro other k <;> dsimp only
    · intro there
      rcases (Cache.mem_insert? kept).mp there with ⟨old, differs⟩ | new
      · exact (Function.update_of_ne differs ..).trans (m.sound old)
      · cases new
        exact Function.update_self ..
    · intro shelved
      by_cases same : other = key
      · subst same
        rw [Function.update_self] at shelved
        cases shelved
        exact .inl ((Cache.mem_insert? kept).mpr (.inr rfl))
      · rw [Function.update_of_ne same] at shelved
        exact (m.complete shelved).imp (fun old => (Cache.mem_insert? kept).mpr (.inl ⟨old, same⟩))
          fun expired => m.now ▸ expired
  · have unkept : c.cache.insert? c.now key value lifetime = none :=
      Cache.insert?_eq_none.mpr (by have := m.now; omega)
    rw [unkept]
    exact m

theorem remove (m : Mirrors s c) (key : α) :
    Mirrors (s.call (.remove key)) (c.call (.remove key)) := by
  refine ⟨m.now, ?_, ?_⟩ <;> intro other k <;> simp only [Shelf.call, SweptCache.call]
  · intro kept
    obtain ⟨old, differs⟩ := Cache.mem_remove.mp kept
    exact (Function.update_of_ne differs ..).trans (m.sound old)
  · intro shelved
    by_cases same : other = key
    · rw [same, Function.update_self] at shelved
      cases shelved
    · rw [Function.update_of_ne same] at shelved
      exact (m.complete shelved).imp_left fun old => Cache.mem_remove.mpr ⟨old, same⟩

theorem call (m : Mirrors s c) (x : CacheCall α β) : Mirrors (s.call x) (c.call x) := by
  cases x with
  | insert key value lifetime => exact m.insert key value lifetime
  | get key => exact m
  | remove key => exact m.remove key
  | advance ms =>
    have later := m.later ms c.sweepers
    simp only [Shelf.call, SweptCache.call, SweptCache.advance]
    split_ifs
    · exact later.swept
    · exact later
  | sweep => exact m.swept
  | start interval => exact ⟨m.now, m.sound, m.complete⟩

theorem run (m : Mirrors s c) (calls : List (CacheCall α β)) :
    Mirrors (s.run calls) (c.run calls) := by
  induction calls generalizing s c with
  | nil => exact m
  | cons x rest ih => exact ih (m.call x)

/-- A removal gives back what can be found. If nothing can be found, it gives back nothing or what
is on the shelf, which has expired. -/
theorem removed (m : Mirrors s c) (key : α) :
    (c.cache.remove key).1 = c.visible key ∨
      (c.visible key = none ∧ (c.cache.remove key).1 = (s.place key).map (·.value)) := by
  rw [m.visible key, Cache.remove]
  rcases m.places key with same | ⟨free, expired⟩
  · rw [same]
    by_cases young : ∃ k, s.place key = some k ∧ s.now < k.expiresAt
    · obtain ⟨k, shelved, young⟩ := young
      refine .inl ?_
      rw [visible_of_young shelved young, shelved, Option.map_some]
    · refine .inr ⟨visible_of_expired fun k shelved => ?_, rfl⟩
      exact Int.not_lt.mp fun inTime => young ⟨k, shelved, inTime⟩
  · rw [free, visible_of_expired expired]
    exact .inl rfl

theorem answer? (m : Mirrors s c) (x : CacheCall α β) :
    (c.answer? x).map CacheAnswer.sight = s.sight? x ∧ ∀ a, c.answer? x = some a → a.Faithful := by
  cases x with
  | get key =>
    refine ⟨congrArg some (by rw [CacheAnswer.sight, m.now, m.visible key]), ?_⟩
    rintro _ ⟨⟩
    exact .inl rfl
  | remove key =>
    refine ⟨congrArg some (by rw [CacheAnswer.sight, m.now, m.visible key]), ?_⟩
    rintro _ ⟨⟩
    refine (m.removed key).imp_right fun late => ?_
    simp [CacheAnswer.isLate, late.1]
  | _ => exact ⟨rfl, by rintro _ ⟨⟩⟩

theorem answers (m : Mirrors s c) (calls : List (CacheCall α β)) :
    (c.answers calls).map CacheAnswer.sight = s.sights calls ∧
      ∀ a ∈ c.answers calls, a.Faithful := by
  induction calls generalizing s c with
  | nil => exact ⟨rfl, by rintro _ ⟨⟩⟩
  | cons x rest ih =>
    obtain ⟨sight, faithful⟩ := m.answer? x
    obtain ⟨sights, restFaithful⟩ := ih (m.call x)
    refine ⟨?_, fun a there => ?_⟩
    · rw [SweptCache.answers, Shelf.sights, List.map_append, sights, ← sight]
      cases c.answer? x <;> rfl
    · rcases List.mem_append.mp there with here | later
      · exact faithful a (Option.mem_toList.mp here)
      · exact restFaithful a later

end Mirrors

end Shelf

omit [DecidableEq α] in
/-- Faithful answers that are not late are told by what can be found. -/
theorem CacheAnswer.filter_prompt {as : List (CacheAnswer α β)} (faithful : ∀ a ∈ as, a.Faithful) :
    as.filter (fun a => !a.isLate) =
      ((as.map sight).map fun t => ⟨t.1, t.2.1, t.2.2, t.2.2⟩).filter fun a => !a.isLate := by
  induction as with
  | nil => rfl
  | cons a rest ih =>
    have same := ih fun b there => faithful b (List.mem_cons_of_mem _ there)
    have sameLate : a.isLate = isLate ⟨a.call, a.moment, a.visible, a.visible⟩ := rfl
    simp only [List.map_cons, List.filter_cons, same, sight, ← sameLate]
    rcases faithful a List.mem_cons_self with exact | late
    · obtain ⟨call, moment, visible, given⟩ := a
      cases exact
      rfl
    · simp only [late, Bool.not_true, Bool.false_eq_true, ↓reduceIte]

/-- However a cache is used and wherever sweeps come in between, by hand or by sweepers: what can be
found at each call does not depend on them, and neither does any answer, unless a call removes what
cannot be found. Such a removal gives back nothing or what was last kept there, which has expired;
every other call gives back what can be found. That is what was last kept under the key, as long as
it has not expired, whatever was swept. -/
theorem sweeping_unseen (now : Int) (calls others : List (CacheCall α β))
    (same : CacheCall.essence calls = CacheCall.essence others) :
    let start : SweptCache α β := ⟨now, {}, []⟩
    let shelf : Shelf α β := ⟨now, fun _ => none⟩
    (start.answers calls).map CacheAnswer.sight = (start.answers others).map CacheAnswer.sight ∧
    ((start.answers calls).filter fun a => !a.isLate) =
      ((start.answers others).filter fun a => !a.isLate) ∧
    (∀ a ∈ start.answers calls, a.Faithful) ∧
    ∀ key, let c := start.run calls
      let s := shelf.run (CacheCall.essence calls)
      c.visible key = s.visible key ∧
        ((c.cache.remove key).1 = s.visible key ∨
          (s.visible key = none ∧
            (c.cache.remove key).1 = (s.place key).map (·.value))) := by
  intro start shelf
  have mirrors : Shelf.Mirrors shelf start := Shelf.Mirrors.empty now
  obtain ⟨sights, faithful⟩ := mirrors.answers calls
  obtain ⟨otherSights, otherFaithful⟩ := mirrors.answers others
  have sameSights : (start.answers calls).map CacheAnswer.sight =
      (start.answers others).map CacheAnswer.sight := by
    rw [sights, otherSights, ← shelf.sights_essence calls, same, shelf.sights_essence]
  refine ⟨sameSights, ?_, faithful, fun key => ?_⟩
  · rw [CacheAnswer.filter_prompt faithful, sameSights, ← CacheAnswer.filter_prompt otherFaithful]
  · have now := mirrors.run calls
    rw [← shelf.run_essence] at now
    have removed := now.removed key
    rw [now.visible key] at removed
    exact ⟨now.visible key, removed⟩

namespace Sample

/-- A value is replaced by one that expires at once, and both are looked for; later one is kept
again and removed, and what is removed then is not there. -/
def unswept : List (CacheCall String String) :=
  [.insert "k" "a" 100, .advance 99, .get "k", .advance 1, .get "k", .insert "k" "b" 0, .get "k",
    .insert "k" "c" 1, .remove "k", .remove "k"]

def oftenSwept : List (CacheCall String String) :=
  .start 50 :: unswept.flatMap fun call => [.sweep, call]

end Sample

theorem sweeping_unseen_sample :
    let start : SweptCache String String := ⟨0, {}, []⟩
    CacheCall.essence Sample.unswept = CacheCall.essence Sample.oftenSwept ∧
      ((start.answers Sample.oftenSwept).filter fun a => !a.isLate) =
        ((start.answers Sample.unswept).filter fun a => !a.isLate) ∧
      (start.answers Sample.unswept).map (·.given) =
        [some "a", none, none, some "c", none] := by
  intro start
  have same : CacheCall.essence Sample.unswept = CacheCall.essence Sample.oftenSwept := by decide
  exact ⟨same, (sweeping_unseen 0 _ _ same).2.1.symm, by decide⟩

/-- What has expired is given back when it is removed, though it cannot be found any more; not so
once it has been swept. -/
theorem sweeping_seen :
    let start : SweptCache String String := ⟨0, {}, []⟩
    let calls : List (CacheCall String String) := [.insert "k" "v" 0, .get "k", .remove "k"]
    let others : List (CacheCall String String) :=
      [.insert "k" "v" 0, .get "k", .sweep, .remove "k"]
    CacheCall.essence calls = CacheCall.essence others ∧
      (start.answers calls).map (·.given) = [none, some "v"] ∧
      (start.answers others).map (·.given) = [none, none] := by
  decide

end IndexingPipeline
