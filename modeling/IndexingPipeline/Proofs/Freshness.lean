import Mathlib.Data.List.Induction
import IndexingPipeline.Proofs.Calls
import IndexingPipeline.Proofs.Docket
import IndexingPipeline.Proofs.Watch

/-!
# Tokens at hand

Runs of any jobs take turns in one world and share the tokens at hand with whoever else asks for
one, drops one or sweeps, while the clocks go on and endpoints answer as they like. How long a token
lasts is worked out by the wall clock, which anybody may set, and when it has to go by the steady
clock. A token that is handed out without a request was fetched for its provider before, is not
within a minute of the end that its endpoint gave for it, and has neither been dropped nor been
replaced since. So what a provider has not accepted is not handed out again, unless its endpoint
gives it again.
-/

namespace IndexingPipeline

namespace Cache

variable {α β : Type} [DecidableEq α] {c : Cache α β} {now : Int} {key : α}

/-- What is found is at a place of its key and has not expired. -/
theorem entry_of_get? {value : β} (found : c.get? now key = some value) :
    ∃ k, (key, k) ∈ c.entries ∧ k.value = value ∧ now < k.expiresAt := by
  obtain ⟨k, unexpired, same⟩ := Option.map_eq_some_iff.mp found
  obtain ⟨there, young⟩ := Option.filter_eq_some_iff.mp unexpired
  obtain ⟨front, back, split, _⟩ := List.lookup_eq_some_iff.mp there
  exact ⟨k, by simp [split], same, by simpa using young⟩

theorem insert?_eq_none {value : β} {lifetime : Nat} :
    c.insert? now key value lifetime = none ↔ horizon ≤ now + lifetime := by
  simp [insert?]

theorem insert?_eq_some {d : Cache α β} {value : β} {lifetime : Nat} :
    c.insert? now key value lifetime = some d ↔ now + lifetime < horizon ∧
      d = ⟨c.entries.filter (·.1 ≠ key) ++ [(key, ⟨value, now + lifetime⟩)]⟩ := by
  simp [insert?, eq_comm]

theorem mem_insert? {d : Cache α β} {value : β} {lifetime : Nat}
    (kept : c.insert? now key value lifetime = some d) {e : α × Kept β} :
    e ∈ d.entries ↔ (e ∈ c.entries ∧ e.1 ≠ key) ∨ e = (key, ⟨value, now + lifetime⟩) := by
  obtain ⟨_, rfl⟩ := insert?_eq_some.mp kept
  simp

theorem mem_remove {e : α × Kept β} :
    e ∈ (c.remove key).2.entries ↔ e ∈ c.entries ∧ e.1 ≠ key := by
  simp [remove]

omit [DecidableEq α] in
theorem mem_swept {e : α × Kept β} :
    e ∈ (c.swept now).entries ↔ e ∈ c.entries ∧ now < e.2.expiresAt := by
  simp [swept]

end Cache

namespace TokenGrant

/-- How many milliseconds a token lasts by what its endpoint says of it, which is less than none
when it says that the token has expired by the wall clock. -/
def advertised (g : TokenGrant) (wall : Int) : Int :=
  match g.expiresAt, g.expiresIn with
  | some moment, _ => moment - wall
  | none, some seconds => seconds * 1000
  | none, none => usualLifetime

/-- How long a token lasts as far as a word can tell: no moment is further away than its largest. -/
def told (g : TokenGrant) (wall : Int) : Int :=
  match g.expiresAt with
  | some _ => min (g.advertised wall) (Number.twoTo 63 - 1)
  | none => g.advertised wall

theorem told_le (g : TokenGrant) (wall : Int) : g.told wall ≤ g.advertised wall := by
  unfold told
  split
  · exact Int.min_le_left _ _
  · exact Int.le_refl _

theorem lifetime_eq (g : TokenGrant) (wall : Int) :
    (g.lifetime wall : Int) = max 0 (g.told wall) := by
  obtain ⟨token, moment | moment, seconds | seconds⟩ := g <;>
    simp only [lifetime, told, advertised, toNat_clamp64] <;> omega

/-- A token is kept until a minute before its end, or not at all. -/
theorem keptFor_eq (g : TokenGrant) (wall : Int) :
    (g.keptFor wall : Int) = max 0 (g.told wall - margin) := by
  have lasts := g.lifetime_eq wall
  rw [keptFor]
  omega

/-- A token that is still kept is not within a minute of its end. -/
theorem before_margin {g : TokenGrant} {wall fetched now : Int} (past : fetched ≤ now)
    (kept : now < fetched + g.keptFor wall) :
    now < fetched + g.advertised wall - margin := by
  have long := g.told_le wall
  rw [keptFor_eq] at kept
  omega

end TokenGrant

theorem Peer.send_received {peer : Peer} {r : Request} {a : Response}
    (answered : (peer.send r).1 = .ok a) :
    (peer.send r).2.received.length = peer.received.length + 1 := by
  unfold send at answered ⊢
  cases read : Url.read r.url with
  | error fault => simp [read] at answered
  | ok url =>
    simp only [read] at answered ⊢
    split_ifs at answered ⊢
    obtain ⟨_ | _ | ⟨_ | _, rest⟩, received⟩ := peer <;> simp at answered ⊢

theorem grantOf_isOk {answer : Except ExchangeError Response} {g : TokenGrant}
    (granted : grantOf answer = .ok g) : ∃ a, answer = .ok a := by
  unfold grantOf at granted
  split at granted
  · cases granted
  · cases granted
  · exact ⟨_, rfl⟩

theorem TokenDesk.fetch_cases (desk : TokenDesk) (wall steady : Int) (provider : String)
    (r : Request) :
    let asked := { desk with peer := (desk.peer.send r).2 }
    let fetched := desk.fetch wall steady provider r
    (∃ e, grantOf (desk.peer.send r).1 = .error e ∧ fetched = (.refused e, asked)) ∨
    ∃ g, grantOf (desk.peer.send r).1 = .ok g ∧
      ((Cache.horizon ≤ steady + g.keptFor wall ∧ fetched = (.beyondClock, asked)) ∨
      ∃ cache, desk.cache.insert? steady provider g.token (g.keptFor wall) = some cache ∧
        asked.peer.received.length = desk.peer.received.length + 1 ∧
        fetched = (.given (some g.token), { asked with cache })) := by
  intro asked fetched
  simp only [asked, fetched]
  unfold fetch
  cases grant : grantOf (desk.peer.send r).1 with
  | error e => exact .inl ⟨e, rfl, by simp only [grant]⟩
  | ok g =>
    obtain ⟨a, answered⟩ := grantOf_isOk grant
    refine .inr ⟨g, rfl, ?_⟩
    cases kept : desk.cache.insert? steady provider g.token (g.keptFor wall) with
    | none => exact .inl ⟨Cache.insert?_eq_none.mp kept, by simp only [grant, kept]⟩
    | some cache =>
      exact .inr ⟨cache, rfl, Peer.send_received answered, by simp only [grant, kept]⟩

namespace World

/-- What the endpoint of a provider answers, if it is asked. -/
def endpointAnswer? (w : World) (p : Provider) : Option (Except TokenError TokenGrant) :=
  match p.auth with
  | .none => none
  | .key _ => none
  | .token url name scope =>
    match w.desk.cache.get? w.steady p.id, w.env.credentials p.id name with
    | none, .ok credentials =>
      let request := tokenRequest url credentials scope (Identifier.ofNat w.drawn)
      some (grantOf (w.desk.peer.send request).1)
    | _, _ => none

def Fetches (w : World) (p : Provider) (g : TokenGrant) : Prop :=
  w.endpointAnswer? p = some (.ok g) ∧ w.steady + g.keptFor w.now < Cache.horizon

/-- All that the wish for a token can come to. -/
inductive Accessed (w : World) (p : Provider) : TokenAnswer → TokenDesk → Prop
  | unneeded : p.auth = .none → w.endpointAnswer? p = none → Accessed w p (.given none) w.desk
  | keyed {name key : String} : p.auth = .key name → w.endpointAnswer? p = none →
      Accessed w p (.given (some key)) w.desk
  | held {token : String} : w.desk.cache.get? w.steady p.id = some token →
      w.endpointAnswer? p = none → Accessed w p (.given (some token)) w.desk
  | missing {m : MissingCredentials} : w.endpointAnswer? p = none →
      Accessed w p (.refused (.missing m)) w.desk
  | refused {e : TokenError} {peer : Peer} : w.endpointAnswer? p = some (.error e) →
      Accessed w p (.refused e) { w.desk with peer }
  | beyondClock {g : TokenGrant} {peer : Peer} : w.endpointAnswer? p = some (.ok g) →
      Cache.horizon ≤ w.steady + g.keptFor w.now → Accessed w p .beyondClock { w.desk with peer }
  | fetched {g : TokenGrant} {cache : Cache String String} {peer : Peer} : w.Fetches p g →
      w.desk.cache.insert? w.steady p.id g.token (g.keptFor w.now) = some cache →
      peer.received.length = w.desk.peer.received.length + 1 →
      Accessed w p (.given (some g.token)) ⟨cache, peer⟩

theorem accessToken_accessed (w : World) (p : Provider) :
    Accessed w p (w.accessToken p).1 (w.accessToken p).2.desk := by
  unfold accessToken TokenDesk.access
  simp only [draw]
  cases auth : p.auth with
  | none => exact .unneeded auth (by simp [endpointAnswer?, auth])
  | key name =>
    simp only
    cases w.env.credentials p.id name with
    | ok key => exact .keyed auth (by simp [endpointAnswer?, auth])
    | error m => exact .missing (by simp [endpointAnswer?, auth])
  | token url name scope =>
    simp only
    cases found : w.desk.cache.get? w.steady p.id with
    | some token => exact .held found (by simp [endpointAnswer?, auth, found])
    | none =>
      simp only
      cases known : w.env.credentials p.id name with
      | error m => exact .missing (by simp [endpointAnswer?, auth, found, known])
      | ok credentials =>
        have asked : w.endpointAnswer? p = some (grantOf (w.desk.peer.send (tokenRequest url
            credentials scope (Identifier.ofNat w.drawn))).1) := by
          simp only [endpointAnswer?, auth, found, known]
        simp only
        rcases w.desk.fetch_cases w.now w.steady p.id (tokenRequest url credentials scope
            (Identifier.ofNat w.drawn)) with
          ⟨e, grant, same⟩ | ⟨g, grant, ⟨late, same⟩ | ⟨cache, kept, received, same⟩⟩
        · rw [same]
          exact .refused (asked.trans (congrArg some grant))
        · rw [same]
          exact .beyondClock (asked.trans (congrArg some grant)) late
        · have inTime := (Cache.insert?_eq_some.mp kept).1
          rw [same]
          exact .fetched ⟨asked.trans (congrArg some grant), inTime⟩ kept received

/-- What is at hand after a wish for a token was fetched by it, or was there before and is not what
was wished for. -/
theorem mem_accessToken {w : World} {p : Provider} {id : String} {k : Kept String}
    (kept : (id, k) ∈ (w.accessToken p).2.desk.cache.entries) :
    ((id, k) ∈ w.desk.cache.entries ∧ ∀ g, w.Fetches p g → p.id ≠ id) ∨
      ∃ g, w.Fetches p g ∧ p.id = id ∧ k = ⟨g.token, w.steady + g.keptFor w.now⟩ := by
  have unfetched : ∀ g, w.endpointAnswer? p ≠ some (.ok g) → ¬ w.Fetches p g :=
    fun g other fetches => other fetches.1
  have accessed := w.accessToken_accessed p
  generalize (w.accessToken p).1 = answer, (w.accessToken p).2.desk = desk at accessed kept
  cases accessed with
  | fetched fetches inserted _ =>
    rcases (Cache.mem_insert? inserted).mp kept with ⟨old, other⟩ | new
    · exact .inl ⟨old, fun _ _ same => other same.symm⟩
    · cases new
      exact .inr ⟨_, fetches, rfl, rfl⟩
  | beyondClock grants late =>
    refine .inl ⟨kept, fun g fetches => ?_⟩
    cases grants.symm.trans fetches.1
    exact absurd fetches.2 (by omega)
  | unneeded _ silent | keyed _ silent | held _ silent | missing silent | refused silent =>
    exact .inl ⟨kept, fun g fetches => absurd fetches (unfetched g (by simp [silent]))⟩

/-- A provider at work leaves the tokens at hand and the steady clock alone, and so do others
meanwhile. -/
theorem embed_kept (s : Setup) (w : World) (p : Provider) (token : Option String) (text : String) :
    (w.embed s p token text).2.desk.cache = w.desk.cache ∧
      (w.embed s p token text).2.lead = w.lead := by
  refine embed_preserves (I := fun v => v.desk.cache = w.desk.cache ∧ v.lead = w.lead) s w p token
    text (fun _ => ⟨rfl, rfl⟩) ⟨rfl, rfl⟩ ?_
  intro v i _ same
  cases i <;> exact same

variable (s : Setup) (w : World)

theorem ensureCollection_cache (name : String) (size : Nat) :
    (w.ensureCollection s name size).2.desk.cache = w.desk.cache := by
  unfold ensureCollection
  split <;> rfl

theorem writePoints_cache (name : String) (batch : List Point) :
    (w.writePoints s name batch).2.desk.cache = w.desk.cache := by
  unfold writePoints
  split <;> rfl

theorem deletePoints_cache (name : String) (f : Filter) :
    (w.deletePoints s name f).2.desk.cache = w.desk.cache := by
  unfold deletePoints
  split <;> rfl

end World

namespace Run

def asks? (r : Run) : Option Provider :=
  match r.stage with
  | .authorizing d => some d.provider
  | _ => none

/-- The provider that does not accept its token at the next step. -/
def rejects? (s : Setup) (r : Run) (w : World) : Option String :=
  match r.call? s w with
  | some (.embed p _ _ (.error (.api 401 _))) => some p.id
  | _ => none

theorem rejects?_of_asks {s : Setup} {r : Run} {w : World} {p : Provider}
    (asks : r.asks? = some p) : r.rejects? s w = none := by
  obtain ⟨job, h, stage⟩ := r
  cases stage with
  | authorizing d =>
    simp only [rejects?, call?]
    split_ifs <;> rfl
  | _ => cases asks

/-- What a step does to the tokens at hand: it gets one, or forgets one, or leaves them alone. -/
theorem step_desk (s : Setup) (r : Run) (w : World) :
    (∃ p, r.asks? = some p ∧ (step s r w).2.desk = (w.accessToken p).2.desk) ∨
    (r.asks? = none ∧ ∃ id, r.rejects? s w = some id ∧
      (step s r w).2.desk.cache = (w.desk.cache.remove id).2) ∨
    (r.asks? = none ∧ r.rejects? s w = none ∧ (step s r w).2.desk.cache = w.desk.cache) := by
  by_cases ended : r.stage.isOver = true
  · rw [step_over s r w ended]
    obtain ⟨job, h, stage⟩ := r
    cases stage <;> first | exact .inr (.inr ⟨rfl, rfl, rfl⟩) | cases ended
  have m := step_move s r w (by simpa using ended)
  generalize (step s r w).1 = r', (step s r w).2 = w' at m
  cases m with
  | authorized d | refused d | stopped d => exact .inl ⟨d.provider, rfl, rfl⟩
  | unaccepted d c left body answer =>
    refine .inr (.inl ⟨rfl, d.provider.id, ?_, ?_⟩)
    · simp only [rejects?, call?, answer]
    · simp only [TokenDesk.invalidate, (World.embed_kept s w _ _ _).1]
  | kept d c left e answer | mismatched d c left e v answer =>
    refine .inr (.inr ⟨rfl, ?_, (w.embed_kept s _ _ _).1⟩)
    simp only [rejects?, call?, answer]
  | unembedded d c left e answer accepted =>
    refine .inr (.inr ⟨rfl, ?_, (w.embed_kept s _ _ _).1⟩)
    simp only [rejects?, call?, answer]
    split
    next api => cases api; exact absurd rfl (accepted _)
    next => rfl
  | unrendered d e rendered =>
    refine .inr (.inr ⟨rfl, ?_, rfl⟩)
    simp only [rejects?, call?, rendered]
  | written d batch rendered | unwritten d batch e rendered =>
    refine .inr (.inr ⟨rfl, ?_, w.writePoints_cache s _ _⟩)
    simp only [rejects?, call?, rendered]
  | ensured | unensured => exact .inr (.inr ⟨rfl, rfl, w.ensureCollection_cache s _ _⟩)
  | cleaned => exact .inr (.inr ⟨rfl, rfl, w.deletePoints_cache s _ _⟩)
  | _ => exact .inr (.inr ⟨rfl, rfl, rfl⟩)

theorem Move.lead_kept {s : Setup} {r r' : Run} {w w' : World} (m : Move s r w r' w') :
    w'.lead = w.lead := by
  cases m with
  | kept | mismatched | unembedded | unaccepted => exact (w.embed_kept s _ _ _).2
  | ensured | unensured => exact (w.ensureCollection_inside s _ _).lead
  | written | unwritten => exact (w.writePoints_inside s _ _).lead
  | cleaned => exact (w.deletePoints_inside s _ _).lead
  | _ => rfl

end Run

/-- What can happen next where tokens are at hand. -/
inductive Dealing where
  | access (p : Provider)
  | invalidate (provider : String)
  | sweep
  /-- Both clocks go on. -/
  | advance (ms : Nat)
  | set (moment : Int)
  | start (job : Job)
  /-- Do the next step of a run, while everybody else is quiet. -/
  | step (s : Setup) (place : Nat)
  /-- Everything but the clocks and the tokens at hand becomes as it is elsewhere. -/
  | outside (elsewhere : World)

namespace Crew

def deal (c : Crew) : Dealing → Crew
  | .access p => { c with world := (c.world.accessToken p).2 }
  | .invalidate id => { c with world := { c.world with desk := c.world.desk.invalidate id } }
  | .sweep =>
    { c with world := { c.world with
      desk := { c.world.desk with cache := (c.world.desk.cache.sweep c.world.steady).2 } } }
  | .advance ms => { c with world := { c.world with now := c.world.now + ms } }
  | .set moment =>
    { c with world := { c.world with now := moment, lead := c.world.steady - moment } }
  | .start job => { c with runs := c.runs ++ [.start job] }
  | .step s place =>
    match c.runs[place]? with
    | none => c
    | some r => ⟨(r.step s c.world.hushed).2, c.runs.set place (r.step s c.world.hushed).1⟩
  | .outside elsewhere =>
    { c with world := { elsewhere with
      now := c.world.now, lead := c.world.lead
      desk := { elsewhere.desk with cache := c.world.desk.cache } } }

def dealAll (c : Crew) (es : List Dealing) : Crew := es.foldl deal c

def asks? (c : Crew) : Dealing → Option Provider
  | .access p => some p
  | .step _ place => c.runs[place]?.bind Run.asks?
  | _ => none

/-- The provider that does not accept its token when a dealing has a text embedded. -/
def rejects? (c : Crew) : Dealing → Option String
  | .step s place => c.runs[place]?.bind fun r => r.rejects? s c.world.hushed
  | _ => none

def drops? (c : Crew) : Dealing → Option String
  | .invalidate id => some id
  | e => c.rejects? e

/-- A dealing fetches a token for the provider of that identifier. -/
def Fetches (c : Crew) (e : Dealing) (id : String) (g : TokenGrant) : Prop :=
  ∃ p, c.asks? e = some p ∧ p.id = id ∧ c.world.Fetches p g

/-- A dealing neither fetches nor forgets a token of the provider. -/
def Leaves (c : Crew) (e : Dealing) (id : String) : Prop :=
  c.drops? e ≠ some id ∧ ∀ g, ¬ c.Fetches e id g

/-- None of the dealings fetches or forgets a token of the provider. -/
def LeavesAll (c : Crew) (id : String) : List Dealing → Prop
  | [] => True
  | e :: rest => c.Leaves e id ∧ (c.deal e).LeavesAll id rest

/-- A dealing hands out a token that an endpoint has given, and no request is sent for it. -/
structure Hands (c : Crew) (e : Dealing) (p : Provider) (token : String) : Prop where
  asked : c.asks? e = some p
  byEndpoint : ∃ url name scope, p.auth = .token url name scope
  given : (c.world.accessToken p).1 = .given (some token)
  unsent : (c.deal e).world.desk.peer.received.length = c.world.desk.peer.received.length

variable {c : Crew} {e : Dealing}

theorem drops?_of_asks {p : Provider} (asks : c.asks? e = some p) : c.drops? e = none := by
  cases e with
  | step s place =>
    obtain ⟨r, there, asks⟩ := Option.bind_eq_some_iff.mp asks
    simp only [drops?, rejects?, there, Option.bind_some]
    exact Run.rejects?_of_asks asks
  | invalidate id => cases asks
  | _ => rfl

theorem deal_desk (c : Crew) (e : Dealing) :
    (∃ p, c.asks? e = some p ∧ (c.deal e).world.desk = (c.world.accessToken p).2.desk) ∨
    (c.asks? e = none ∧ ∃ id, c.drops? e = some id ∧
      (c.deal e).world.desk.cache = (c.world.desk.cache.remove id).2) ∨
    (c.asks? e = none ∧ c.drops? e = none ∧
      ∀ x ∈ (c.deal e).world.desk.cache.entries, x ∈ c.world.desk.cache.entries) := by
  cases e with
  | access p => exact .inl ⟨p, rfl, rfl⟩
  | invalidate id => exact .inr (.inl ⟨rfl, id, rfl, rfl⟩)
  | sweep => exact .inr (.inr ⟨rfl, rfl, fun x kept => (Cache.mem_swept.mp kept).1⟩)
  | advance | set => exact .inr (.inr ⟨rfl, rfl, fun _ kept => kept⟩)
  | start job => exact .inr (.inr ⟨rfl, rfl, fun _ kept => kept⟩)
  | step s place =>
    simp only [asks?, drops?, rejects?, deal]
    cases there : c.runs[place]? with
    | none => exact .inr (.inr ⟨rfl, rfl, fun _ kept => kept⟩)
    | some r =>
      simp only [Option.bind_some]
      rcases r.step_desk s c.world.hushed with
        ⟨p, asks, same⟩ | ⟨asks, id, rejects, cache⟩ | ⟨asks, rejects, cache⟩
      · exact .inl ⟨p, asks, same⟩
      · exact .inr (.inl ⟨asks, id, rejects, cache⟩)
      · exact .inr (.inr ⟨asks, rejects, fun x kept => cache ▸ kept⟩)
  | outside elsewhere => exact .inr (.inr ⟨rfl, rfl, fun _ kept => kept⟩)

/-- An entry that is at hand after a dealing was fetched by it, or was there before and the dealing
has left its provider's token alone. -/
theorem mem_deal {id : String} {k : Kept String}
    (kept : (id, k) ∈ (c.deal e).world.desk.cache.entries) :
    ((id, k) ∈ c.world.desk.cache.entries ∧ c.Leaves e id) ∨
      ∃ g, c.Fetches e id g ∧ k = ⟨g.token, c.world.steady + g.keptFor c.world.now⟩ := by
  rcases c.deal_desk e with
    ⟨p, asks, desk⟩ | ⟨asks, dropped, drops, cache⟩ | ⟨asks, drops, fewer⟩
  · rw [desk] at kept
    rcases World.mem_accessToken kept with ⟨old, others⟩ | ⟨g, fetches, here, new⟩
    · refine .inl ⟨old, by simp [drops?_of_asks asks], ?_⟩
      rintro g ⟨q, asked, here, fetches⟩
      obtain rfl := Option.some.inj (asks.symm.trans asked)
      exact others g fetches here
    · exact .inr ⟨g, ⟨p, asks, here, fetches⟩, new⟩
  · rw [cache, Cache.mem_remove] at kept
    refine .inl ⟨kept.1, ?_, ?_⟩
    · rw [drops]
      exact fun same => kept.2 (Option.some.inj same).symm
    · rintro g ⟨p, asked, _⟩
      rw [asks] at asked
      cases asked
  · refine .inl ⟨fewer _ kept, by simp [drops], ?_⟩
    rintro g ⟨p, asked, _⟩
    rw [asks] at asked
    cases asked

theorem steady_le_deal (c : Crew) (e : Dealing) : c.world.steady ≤ (c.deal e).world.steady := by
  cases e with
  | advance ms =>
    simp only [deal, World.steady]
    omega
  | set moment =>
    simp only [deal, World.steady]
    omega
  | step s place =>
    simp only [deal]
    cases c.runs[place]? with
    | none => exact Int.le_refl _
    | some r =>
      simp only
      by_cases ended : r.stage.isOver = true
      · rw [Run.step_over s r _ ended]
        exact Int.le_refl _
      · have m := Run.step_move s r c.world.hushed (by simpa using ended)
        rw [World.steady, World.steady, m.now_kept c.world.hushed_quiet, m.lead_kept]
        exact Int.le_refl _
  | _ => exact Int.le_refl _

theorem dealAll_append (c : Crew) (es later : List Dealing) :
    c.dealAll (es ++ later) = (c.dealAll es).dealAll later := List.foldl_append

theorem leavesAll_append {id : String} {es later : List Dealing} :
    c.LeavesAll id (es ++ later) ↔ c.LeavesAll id es ∧ (c.dealAll es).LeavesAll id later := by
  induction es generalizing c with
  | nil => simp [LeavesAll, dealAll]
  | cons e rest ih => simp only [List.cons_append, LeavesAll, ih, and_assoc]; rfl

/-- Where an entry comes from: the dealing that has fetched it, with what was before and after. -/
structure Provenance (c : Crew) (es : List Dealing) (id : String) (k : Kept String)
    (earlier : List Dealing) (fetch : Dealing) (later : List Dealing) (g : TokenGrant) : Prop where
  order : es = earlier ++ fetch :: later
  fetches : (c.dealAll earlier).Fetches fetch id g
  entry : k =
    ⟨g.token, (c.dealAll earlier).world.steady + g.keptFor (c.dealAll earlier).world.now⟩
  past : (c.dealAll earlier).world.steady ≤ (c.dealAll es).world.steady
  untouched : ((c.dealAll earlier).deal fetch).LeavesAll id later

/-- What is at hand has been fetched, and left alone since. -/
theorem provenance (c : Crew) (bare : c.world.desk.cache.entries = []) (es : List Dealing)
    {id : String} {k : Kept String} (kept : (id, k) ∈ (c.dealAll es).world.desk.cache.entries) :
    ∃ earlier fetch later g, Provenance c es id k earlier fetch later g := by
  induction es using List.reverseRecOn with
  | nil =>
    rw [dealAll, List.foldl_nil, bare] at kept
    cases kept
  | append_singleton es e ih =>
    have onward := steady_le_deal (c.dealAll es) e
    have last : c.dealAll (es ++ [e]) = (c.dealAll es).deal e := c.dealAll_append es [e]
    rw [last] at kept
    rcases mem_deal kept with ⟨old, leaves⟩ | ⟨g, fetches, new⟩
    · obtain ⟨earlier, fetch, later, g, p⟩ := ih old
      refine ⟨earlier, fetch, later ++ [e], g, ?_, p.fetches, p.entry, ?_, ?_⟩
      · rw [p.order, List.append_assoc, List.cons_append]
      · rw [last]
        exact Int.le_trans p.past onward
      · refine leavesAll_append.mpr ⟨p.untouched, ?_, trivial⟩
        have here : c.dealAll es = ((c.dealAll earlier).deal fetch).dealAll later := by
          rw [p.order, dealAll_append]
          rfl
        exact here ▸ leaves
    · exact ⟨es, e, [], g, rfl, fetches, new, last ▸ onward, trivial⟩

theorem drops?_of_rejects {id : String} (rejects : c.rejects? e = some id) :
    c.drops? e = some id := by
  cases e with
  | step s place => exact rejects
  | _ => cases rejects

/-- A provider did not accept its token before the one that is at hand was fetched. -/
theorem Provenance.rejected_before {es : List Dealing} {id : String} {k : Kept String}
    {earlier : List Dealing} {fetch : Dealing} {later : List Dealing} {g : TokenGrant}
    (h : Provenance c es id k earlier fetch later g) {before after : List Dealing} {x : Dealing}
    (here : es = before ++ x :: after) (rejects : (c.dealAll before).rejects? x = some id) :
    ∃ between, earlier = before ++ x :: between := by
  have drops := drops?_of_rejects rejects
  have unfetched : ¬ (before = earlier ∧ x = fetch) := by
    rintro ⟨rfl, rfl⟩
    obtain ⟨p, asks, _⟩ := h.fetches
    rw [drops?_of_asks asks] at drops
    cases drops
  rcases List.append_eq_append_iff.mp (here.symm.trans h.order) with
    ⟨between, split, rest⟩ | ⟨between, split, rest⟩
  · cases between with
    | nil =>
      rw [List.append_nil] at split
      exact absurd ⟨split.symm, (List.cons.inj rest).1⟩ unfetched
    | cons y between => exact ⟨between, by rw [split, (List.cons.inj rest).1]⟩
  · cases between with
    | nil =>
      rw [List.append_nil] at split
      exact absurd ⟨split, (List.cons.inj rest).1.symm⟩ unfetched
    | cons y between =>
      obtain ⟨rfl, rfl⟩ := List.cons.inj rest
      have leaves := (leavesAll_append.mp h.untouched).2.1
      rw [split, dealAll_append] at drops
      exact absurd drops leaves.1

/-- A token that is handed out without a request is at hand. -/
theorem Hands.held {p : Provider} {token : String} (h : c.Hands e p token) :
    c.world.desk.cache.get? c.world.steady p.id = some token := by
  obtain ⟨asked, ⟨url, name, scope, byEndpoint⟩, given, unsent⟩ := h
  have desk : (c.deal e).world.desk = (c.world.accessToken p).2.desk := by
    rcases c.deal_desk e with ⟨q, asks, desk⟩ | ⟨asks, _⟩ | ⟨asks, _⟩
    · obtain rfl := Option.some.inj (asked.symm.trans asks)
      exact desk
    · cases asked.symm.trans asks
    · cases asked.symm.trans asks
  rw [desk] at unsent
  have accessed := c.world.accessToken_accessed p
  generalize (c.world.accessToken p).2.desk = desk at accessed unsent
  rw [given] at accessed
  cases accessed with
  | keyed auth => cases byEndpoint.symm.trans auth
  | held found => exact found
  | fetched _ _ received =>
    simp only at unsent
    omega

end Crew

/-- Whoever asks for tokens, drops and sweeps them, whatever runs do meanwhile, and however
endpoints answer while the clocks go on and the wall clock is set: a token of an endpoint that is
handed out without a request was fetched for its provider before, and by the steady clock it is not
within a minute of the end that its endpoint gave for it then. Nor is it by the wall clock, unless
that was set forward meanwhile. Since then its provider's token has been neither fetched nor
forgotten, and whenever the provider did not accept a token, this one was fetched only later. -/
theorem token_fresh (now : Int) (env : Environment) (peer : Peer) (es : List Dealing) (e : Dealing)
    (p : Provider) (token : String)
    (hands : ((Crew.initial now env peer).dealAll es).Hands e p token) :
    ∃ earlier fetch later g, es = earlier ++ fetch :: later ∧
      let atFetch := (Crew.initial now env peer).dealAll earlier
      let atHand := (Crew.initial now env peer).dealAll es
      let usable : Int := g.advertised atFetch.world.now - TokenGrant.margin
      atFetch.Fetches fetch p.id g ∧ g.token = token ∧
        atFetch.world.steady ≤ atHand.world.steady ∧
        atHand.world.steady < atFetch.world.steady + usable ∧
        (atHand.world.lead ≤ atFetch.world.lead → atFetch.world.now ≤ atHand.world.now) ∧
        (atFetch.world.lead ≤ atHand.world.lead →
          atHand.world.now < atFetch.world.now + usable) ∧
        (atFetch.deal fetch).LeavesAll p.id later ∧
        ∀ before x after, es = before ++ x :: after →
          ((Crew.initial now env peer).dealAll before).rejects? x = some p.id →
          ∃ between, earlier = before ++ x :: between := by
  obtain ⟨k, kept, value, unexpired⟩ := Cache.entry_of_get? hands.held
  obtain ⟨earlier, fetch, later, g, origin⟩ := Crew.provenance _ rfl es kept
  rw [origin.entry] at unexpired
  have past := origin.past
  have early := TokenGrant.before_margin past unexpired
  refine ⟨earlier, fetch, later, g, origin.order, origin.fetches, ?_, past, ?_, ?_, ?_,
    origin.untouched, fun _ _ _ here rejects => origin.rejected_before here rejects⟩
  · rw [← value, origin.entry]
  · omega
  all_goals
    simp only [World.steady] at past early
    omega

namespace Sample

def guarded : Provider where
  id := "p"
  kind := .ollama
  url := "http://[::1]/embed"
  model := "m"
  auth := .token "http://[::1]/token" "P" none

def guardedSetup : Setup where
  config := {
    dataPath := "kb.sqlite"
    policy := { providerId := "p" }
    store := { url := "http://store" }
    providers := [guarded] }
  remoteEmbedder := false
  gateway := none

/-- An endpoint that gives two tokens, the second one for two minutes. -/
def endpoint : Peer :=
  { replies := some [.answer ⟨200, "\x7b\"access_token\":\"t1\"\x7d"⟩,
      .answer ⟨200, "\x7b\"access_token\":\"t2\",\"expires_in\":120\x7d"⟩] }

/-- Two documents, and a provider that accepts no token. -/
def wary : World :=
  let bare := World.initial 1000 [("P", "k")] endpoint
  let refusing := { bare with usualTurn := ⟨[], fun _ => .error (.api 401 "")⟩ }
  (((refusing.submit "w" "b" "d" "v1" "one").2).submit "w" "b" "e" "v1" "two").2

def jobAt (document : String) : Job :=
  { id := document, workspaceId := "w", baseId := "b", documentId := document, versionId := "v1"
    status := .processing, attempts := 0, lastError := none, scheduledAt := 1000
    claimedAt := some 1000, createdAt := 1000, updatedAt := 1000, finishedAt := none }

/-- The token that the first run gets is not accepted; then another one is fetched, the wall clock
is set back, and the second run is about to get a token. -/
def wariness : List Dealing :=
  [.outside wary, .start (jobAt "d"), .start (jobAt "e")] ++
    List.replicate 8 (.step guardedSetup 0) ++ [.advance 1, .access guarded] ++
    List.replicate 6 (.step guardedSetup 1) ++ [.set 0, .advance 59999]

end Sample

theorem token_fresh_sample :
    let start := Crew.initial 1000 [("P", "k")] Sample.endpoint
    (start.dealAll (Sample.wariness.take 10)).rejects? (.step Sample.guardedSetup 0) =
        some "p" ∧
      (start.dealAll Sample.wariness).Hands (.step Sample.guardedSetup 1) Sample.guarded "t2" ∧
      ∃ earlier fetch later, Sample.wariness = earlier ++ fetch :: later ∧ 10 < earlier.length := by
  intro start
  have rejected : (start.dealAll (Sample.wariness.take 10)).rejects?
      (.step Sample.guardedSetup 0) = some "p" := by decide +kernel
  have hands : (start.dealAll Sample.wariness).Hands (.step Sample.guardedSetup 1)
      Sample.guarded "t2" :=
    ⟨by decide +kernel, ⟨_, _, _, rfl⟩, by decide +kernel, by decide +kernel⟩
  obtain ⟨earlier, fetch, later, g, order, _, _, _, _, _, _, _, past⟩ :=
    token_fresh _ _ _ _ _ _ _ hands
  obtain ⟨between, split⟩ := past (Sample.wariness.take 10) _ (Sample.wariness.drop 11) rfl rejected
  refine ⟨rejected, hands, earlier, fetch, later, order, ?_⟩
  simp [split, Sample.wariness]

end IndexingPipeline
