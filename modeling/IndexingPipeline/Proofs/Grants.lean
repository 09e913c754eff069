import IndexingPipeline.Proofs.Freshness
import IndexingPipeline.Proofs.Records

/-!
# Tokens that are granted can be used

An endpoint may say of a token that it lasts until any moment of the wall clock, or for any number
of seconds. A token that is granted is handed out and kept until a minute before its end, whatever
moment that is. A number of seconds may end beyond what the steady clock can tell; then nobody gets
an answer, and nothing is kept.
-/

namespace IndexingPipeline

open Json (membersNamed given lookup_given sublist_given need_of_lookup maybe_of_lookup
  written_given)

namespace Cache

variable {α β : Type} [DecidableEq α]

theorem lookup_filter_ne (entries : List (α × β)) (key other : α) :
    (entries.filter (·.1 ≠ key)).lookup other =
      if other = key then none else entries.lookup other := by
  induction entries with
  | nil => simp
  | cons e rest ih =>
    obtain ⟨name, value⟩ := e
    by_cases here : other = name
    · subst here
      by_cases gone : other = key
      · simpa [gone] using ih
      · simp [gone]
    · have passed : (other == name) = false := beq_false_of_ne here
      by_cases gone : name = key
      · simpa [gone, List.lookup_cons, gone ▸ passed] using ih
      · simpa [gone, List.lookup_cons, passed] using ih

/-- What is kept is found until it expires, and what is under other keys stays as it is. -/
theorem entry?_insert? {c d : Cache α β} {now : Int} {key : α} {value : β} {lifetime : Nat}
    (kept : c.insert? now key value lifetime = some d) (other : α) :
    d.entry? other = if other = key then some ⟨value, now + lifetime⟩ else c.entry? other := by
  obtain ⟨_, rfl⟩ := insert?_eq_some.mp kept
  rw [ entry?, List.lookup_append, lookup_filter_ne]
  by_cases same : other = key
  · simp [same]
  · simp [same, entry?, List.lookup_cons, beq_false_of_ne same]

end Cache

namespace TokenGrant

/-- A moment is a signed word of 64 bits, a number of seconds one without a sign. -/
def Fits (g : TokenGrant) : Prop :=
  (∀ moment ∈ g.expiresAt, -(Number.twoTo 63 : Int) ≤ moment ∧ moment < Number.twoTo 63) ∧
    ∀ seconds ∈ g.expiresIn, seconds < Number.twoTo 64

def named (g : TokenGrant) : List (String × Json.Tree) :=
  [("access_token", .ofString g.token)] ++
    (given "expires_at" (g.expiresAt.map Json.Tree.ofInt) ++
    given "expires_in" (g.expiresIn.map fun n : Nat => .ofInt n))

def body (g : TokenGrant) : String := (Json.Tree.object (membersNamed g.named)).compact

theorem read?_body {g : TokenGrant} (fits : g.Fits) : read? g.body = some g := by
  have written : (Json.Tree.object (membersNamed g.named)).Written := by
    refine .named (List.forall_mem_append.mpr ⟨by simp [Json.Tree.Written.ofString], ?_⟩)
    refine List.forall_mem_append.mpr ⟨written_given ?_, written_given ?_⟩ <;>
    · rintro t there
      obtain ⟨n, _, rfl⟩ := Option.map_eq_some_iff.mp there
      exact .ofInt n
  have fields : (Json.Tree.object (membersNamed g.named)).fields?
      ["access_token", "expires_at", "expires_in"] = some g.named := by
    refine Json.knownMembers_named (by decide) ?_
    simp only [named, List.map_append]
    exact (List.Sublist.refl ["access_token"]).append
      ((sublist_given _ _).append (sublist_given _ _))
  have token : Json.need g.named "access_token" Json.Tree.text? = some g.token :=
    (need_of_lookup rfl _).trans (Json.Tree.text?_ofString _)
  have expiresAt : Json.maybe g.named "expires_at" Json.Tree.integer? = some g.expiresAt := by
    have there : g.named.lookup "expires_at" = g.expiresAt.map Json.Tree.ofInt := by
      simp [named, List.lookup_append, lookup_given, List.lookup_cons]
    exact maybe_of_lookup there (fun _ => by nofun) fun moment said =>
      Json.Tree.integer?_ofInt (fits.1 moment said).1 (fits.1 moment said).2
  have expiresIn : Json.maybe g.named "expires_in" (Json.Tree.natural? (Number.twoTo 64)) =
      some g.expiresIn := by
    have there : g.named.lookup "expires_in" = g.expiresIn.map fun n : Nat => .ofInt n := by
      simp [named, List.lookup_append, lookup_given, List.lookup_cons]
    exact maybe_of_lookup there (fun _ => by nofun) fun seconds said =>
      Json.Tree.natural?_ofInt (fits.2 seconds said) (Nat.le_refl _)
  have deep := written.readDeep?_render
  rw [read?, body, Json.Tree.compact, String.toList_ofList, deep]
  simp [ofTree, fields, token, expiresAt, expiresIn]

theorem fits_of_read? {s : String} {g : TokenGrant} (read : read? s = some g) : g.Fits := by
  obtain ⟨t, _, read⟩ := Option.bind_eq_some_iff.mp read
  simp only [ofTree, Option.bind_eq_bind, Option.bind_eq_some_iff] at read
  obtain ⟨fields, _, token, _, expiresAt, moment, expiresIn, seconds, same⟩ := read
  cases same
  exact ⟨Json.maybe_holds moment fun _ _ => Json.Tree.integer?_range,
    Json.maybe_holds seconds fun _ _ => Json.Tree.natural?_lt⟩

/-- From the epoch on, every moment that can be said is near enough. -/
theorem told_eq {g : TokenGrant} (fits : g.Fits) {wall : Int} (modern : 0 ≤ wall) :
    g.told wall = g.advertised wall := by
  obtain ⟨token, moment | moment, seconds⟩ := g
  · rfl
  · have inRange := (fits.1 moment rfl).2
    simp only [told, advertised]
    omega

/-- Only a number of seconds can end beyond what the steady clock can tell. -/
theorem horizon_le_iff {g : TokenGrant} (fits : g.Fits) {wall steady : Int}
    (early : steady + usualLifetime < Cache.horizon)
    (together : steady - wall ≤ Cache.horizon - Number.twoTo 63) :
    Cache.horizon ≤ steady + g.keptFor wall ↔ g.expiresAt = none ∧
      ∃ seconds, g.expiresIn = some seconds ∧
        Cache.horizon ≤ steady + (seconds * 1000 - margin : Int) := by
  rw [keptFor_eq]
  obtain ⟨token, moment | moment, seconds | seconds⟩ := g
  · simp only [told, advertised, reduceCtorEq, false_and, exists_false, and_false, iff_false]
    omega
  · simp only [told, advertised, Option.some.injEq, exists_eq_left', true_and]
    omega
  -- no moment that can be said lies at the horizon, and a past one leaves nothing to keep
  all_goals
    have inRange := (fits.1 moment rfl).2
    simp only [told, advertised, reduceCtorEq, false_and, iff_false]
    omega

end TokenGrant

theorem grantOf_success {a : Response} {g : TokenGrant} (success : a.isSuccess = true)
    (read : TokenGrant.read? a.body = some g) (token : g.token ≠ "") :
    grantOf (.ok a) = .ok g := by
  simp [grantOf, success, read, token]

namespace TokenDesk

variable {desk : TokenDesk} {wall steady : Int} {provider : String} {r : Request} {g : TokenGrant}
  (grants : grantOf (desk.peer.send r).1 = .ok g)
include grants

theorem fetch_kept {cache : Cache String String}
    (kept : desk.cache.insert? steady provider g.token (g.keptFor wall) = some cache) :
    desk.fetch wall steady provider r = (.given (some g.token), ⟨cache, (desk.peer.send r).2⟩) := by
  unfold fetch
  simp only [grants, kept]

theorem fetch_late (late : Cache.horizon ≤ steady + g.keptFor wall) :
    desk.fetch wall steady provider r =
      (.beyondClock, { desk with peer := (desk.peer.send r).2 }) := by
  unfold fetch
  simp only [grants, Cache.insert?_eq_none.mpr late]

end TokenDesk

/-- Whatever an endpoint says with a token, when the way to it is open and no token is at hand: the
token is handed out and found until a minute before its end, or not at all when that has passed, and
other tokens stay as they are, unless that moment lies beyond what the steady clock can tell. Then
there is no answer and nothing is kept; only a number of seconds can end there, as long as the
clocks are not worlds apart. The end is the one that the endpoint gave, unless the wall clock is
before the epoch and a word cannot tell how far away it is. An endpoint can say any moment and any
number of seconds, each as long as it is a word of 64 bits. -/
theorem grant_usable (desk : TokenDesk) (env : Environment) (wall steady : Int)
    (requestId : String) (p : Provider) (url name credentials : String) (scope : Option String)
    (a : Response) (g : TokenGrant) (auth : p.auth = .token url name scope)
    (unheld : desk.cache.get? steady p.id = none)
    (known : env.credentials p.id name = .ok credentials)
    (answered : (desk.peer.send (tokenRequest url credentials scope requestId)).1 = .ok a)
    (success : a.isSuccess = true) (read : TokenGrant.read? a.body = some g)
    (token : g.token ≠ "") :
    let asked := desk.access env wall steady requestId p
    let dropped := steady + max 0 (g.told wall - TokenGrant.margin)
    (dropped < Cache.horizon → asked.1 = .given (some g.token) ∧
      asked.2.cache.entry? p.id = some ⟨g.token, dropped⟩ ∧
      (∀ later, asked.2.cache.get? later p.id = if later < dropped then some g.token else none) ∧
      ∀ other, other ≠ p.id → asked.2.cache.entry? other = desk.cache.entry? other) ∧
    (Cache.horizon ≤ dropped → asked.1 = .beyondClock ∧ asked.2.cache = desk.cache) ∧
    (steady + TokenGrant.usualLifetime < Cache.horizon →
      steady - wall ≤ Cache.horizon - Number.twoTo 63 →
      (Cache.horizon ≤ dropped ↔ g.expiresAt = none ∧
        ∃ seconds, g.expiresIn = some seconds ∧
          Cache.horizon ≤ steady + (seconds * 1000 - TokenGrant.margin : Int))) ∧
    (0 ≤ wall → g.told wall = g.advertised wall) ∧
    ∀ h : TokenGrant, h.Fits ↔ ∃ text, TokenGrant.read? text = some h := by
  have fetches : desk.access env wall steady requestId p =
      desk.fetch wall steady p.id (tokenRequest url credentials scope requestId) := by
    simp only [TokenDesk.access, auth, unheld, known]
  have grants : grantOf (desk.peer.send (tokenRequest url credentials scope requestId)).1 = .ok g :=
    answered ▸ grantOf_success success read token
  rw [fetches]
  have fits := TokenGrant.fits_of_read? read
  simp only [← g.keptFor_eq wall]
  refine ⟨fun inTime => ?_, fun late => ?_, TokenGrant.horizon_le_iff fits,
    TokenGrant.told_eq fits, fun h => ?_⟩
  · have kept : desk.cache.insert? steady p.id g.token (g.keptFor wall) = some _ :=
      Cache.insert?_eq_some.mpr ⟨inTime, rfl⟩
    have entry := Cache.entry?_insert? kept
    rw [TokenDesk.fetch_kept grants kept]
    refine ⟨rfl, (entry p.id).trans (if_pos rfl), fun later => ?_, fun other differs => ?_⟩
    · rw [Cache.get?, (entry p.id).trans (if_pos rfl), Option.filter_some]
      by_cases young : later < steady + (g.keptFor wall : Int)
      · rw [if_pos young, if_pos (decide_eq_true young), Option.map_some]
      · rw [if_neg young, if_neg (decide_eq_true_iff.not.mpr young), Option.map_none]
    · exact (entry other).trans (if_neg differs)
  · rw [TokenDesk.fetch_late grants late]
    exact ⟨rfl, rfl⟩
  · refine ⟨fun fits => ⟨h.body, TokenGrant.read?_body fits⟩, fun readable => ?_⟩
    obtain ⟨_, read⟩ := readable
    exact TokenGrant.fits_of_read? read

namespace Sample

/-- No token is at hand, and the endpoint's next answer is a success. -/
def deskBefore (text : String) : TokenDesk := { peer := { replies := some [.answer ⟨200, text⟩] } }

def longestGrant : String :=
  "\x7b\"access_token\":\"t\",\"expires_at\":9223372036854775807\x7d"

/-- A token for the largest number of seconds that can be said. -/
def unendingGrant : String :=
  "\x7b\"access_token\":\"t\",\"expires_in\":18446744073709551615\x7d"

end Sample

theorem grant_usable_sample :
    let desk := Sample.deskBefore Sample.longestGrant
    let asked := desk.access [("P", "k")] 1000 0 "r" Sample.guarded
    asked.1 = .given (some "t") ∧
      ∀ later, asked.2.cache.get? later "p" =
        if later < 9223372036854714807 then some "t" else none := by
  intro desk asked
  have usable := grant_usable (Sample.deskBefore Sample.longestGrant) [("P", "k")] 1000 0 "r"
    Sample.guarded _ _ "k" _ ⟨200, Sample.longestGrant⟩ ⟨"t", some 9223372036854775807, none⟩
    rfl rfl (by decide +kernel) (by decide +kernel) (by decide) (by decide +kernel) (by decide)
  obtain ⟨given, _, found, _⟩ := usable.1 (by decide)
  exact ⟨given, found⟩

/-- A number of seconds that can be said, and nobody gets an answer. -/
theorem grant_unusable :
    let g : TokenGrant := ⟨"t", none, some 18446744073709551615⟩
    let desk := Sample.deskBefore Sample.unendingGrant
    let asked := desk.access [("P", "k")] 1000 1000 "r" Sample.guarded
    g.Fits ∧ TokenGrant.read? Sample.unendingGrant = some g ∧
      asked.1 = .beyondClock ∧ asked.2.cache.entries = [] := by
  intro g desk asked
  exact ⟨⟨by rintro _ ⟨⟩, by rintro _ ⟨⟩; decide⟩, by decide +kernel, by decide +kernel,
    by decide +kernel⟩

end IndexingPipeline
