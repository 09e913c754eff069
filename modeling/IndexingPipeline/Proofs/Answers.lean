import Mathlib.Data.List.Basic
import IndexingPipeline.Point.Gateway

/-!
# What a gateway's success rests on

Behind every operation of a gateway are one to three answers of the server. That the server does
not know what a request is about is passed on as an answer: looking for a collection and counting
take it for none, writing a batch takes it for a failure, but making a collection and deleting
points do not look at it. So a collection counts as made although the server knew of no place to
make it, and points count as deleted although the server knew of nothing to delete from; every
other success rests on answers that are successes and can be read. The laws name both ways beside
those that are assured.
-/

namespace IndexingPipeline

namespace Gateway

def status? : Except ExchangeError Response → Option Nat
  | .ok a => some a.status
  | .error _ => none

/-- What an answer says that is a success and can be read. -/
def said? : Except ExchangeError Response → Option Json.Value
  | .ok a => if a.isSuccess then a.value.toOption else none
  | .error _ => none

def sizeSaid? (answer : Except ExchangeError Response) : Option Nat :=
  ((said? answer).bind (·.at? ["result", "config", "params", "vectors", "size"])).bind
    Json.Value.natural?

def countSaid? (answer : Except ExchangeError Response) : Option Nat :=
  ((said? answer).bind (·.at? ["result", "count"])).bind Json.Value.natural?

/-! ### The requests -/

def sizeQuery (g : Gateway) (name : String) : Request :=
  g.request "GET" (collectionPath name) none

def creation (g : Gateway) (name : String) (size : Nat) : Request :=
  g.request "PUT" (collectionPath name) (some (collectionShape size))

def upload (g : Gateway) (name : String) (batch : List Point) : Request :=
  g.request "PUT" (collectionPath name ++ "/points?wait=true")
    (some (.ofMembers [("points", .list (batch.map Point.toValue))]))

def countQuery (g : Gateway) (name : String) (f : Filter) : Request :=
  g.request "POST" (collectionPath name ++ "/points/count")
    (some (.ofMembers [("filter", f.toValue), ("exact", .bool true)]))

def removal (g : Gateway) (name : String) (f : Filter) : Request :=
  g.request "POST" (collectionPath name ++ "/points/delete?wait=true")
    (some (.ofMembers [("filter", f.toValue)]))

/-! ### What an answer comes to -/

theorem isSuccess_iff {a : Response} : a.isSuccess ↔ 200 ≤ a.status ∧ a.status < 300 := by
  simp [Response.isSuccess]

/-- All that an answer can come to. -/
inductive Heard : Except ExchangeError Response → Except StoreError (Option Json.Value) → Prop
  | unknown {a : Response} : a.status = 404 → Heard (.ok a) (.ok none)
  | said {a : Response} {v : Json.Value} : a.isSuccess → a.value = .ok v →
      Heard (.ok a) (.ok (some v))
  | garbled {a : Response} {reason : String} : a.isSuccess → a.value = .error reason →
      Heard (.ok a) (.error (.invalidResponse reason))
  | refused {a : Response} : a.status ≠ 404 → ¬ a.isSuccess →
      Heard (.ok a) (.error (.api a.status a.body))
  | unusable {reason : String} :
      Heard (.error (.unusable reason)) (.error (.invalidResponse reason))
  | unsent {reason : String} : Heard (.error (.unsent reason)) (.error (.transport reason))

theorem ask_heard (peer : Peer) (r : Request) : Heard (peer.send r).1 (ask peer r).1 := by
  unfold ask
  obtain ⟨answer, after⟩ := peer.send r
  cases answer with
  | error e =>
    cases e with
    | unusable reason => exact .unusable
    | unsent reason => exact .unsent
  | ok a =>
    simp only
    split_ifs with unknown refused
    · exact .unknown unknown
    · exact .refused unknown (by simpa using refused)
    · have success : a.isSuccess := by simpa using refused
      cases value : a.value with
      | ok v => exact .said success value
      | error reason => exact .garbled success value

theorem ask_peer (peer : Peer) (r : Request) : (ask peer r).2 = (peer.send r).2 := rfl

namespace Heard

variable {answer : Except ExchangeError Response} {heard : Except StoreError (Option Json.Value)}
  (h : Heard answer heard)
include h

/-- An answer is passed on as nothing known just when its status says so. -/
theorem unknown_iff : heard = .ok none ↔ status? answer = some 404 := by
  cases h with
  | unknown status => simp [status?, status]
  | said success value | garbled success value =>
    have range := isSuccess_iff.mp success
    simp only [status?, reduceCtorEq, Except.ok.injEq, Option.some.injEq, false_iff]
    omega
  | refused status refused => simp [status?, status]
  | unusable | unsent => simp [status?]

theorem said_eq : said? answer = heard.toOption.join := by
  cases h with
  | unknown status => simp [said?, isSuccess_iff, status, Except.toOption]
  | said success value | garbled success value =>
    simp [said?, success, value, Except.toOption]
  | refused status refused => simp [said?, refused, Except.toOption]
  | unusable | unsent => rfl

theorem said_iff : (said? answer).isSome ↔ ∃ v, heard = .ok (some v) := by
  rw [h.said_eq]
  rcases heard with e | _ | v <;> simp [Except.toOption]

theorem conflict_iff : (∃ body, heard = .error (.api 409 body)) ↔ status? answer = some 409 := by
  cases h with
  | unknown status => simp [status?, status]
  | said success value | garbled success value =>
    have range := isSuccess_iff.mp success
    simp only [status?, reduceCtorEq, exists_false, Except.error.injEq, Option.some.injEq,
      false_iff]
    omega
  | refused status refused => simp [status?]
  | unusable | unsent => simp [status?]

end Heard

/-! ### The operations -/

variable (g : Gateway) (peer : Peer) (name : String)

theorem size?_some {size : Nat} :
    (g.size? peer name).1 = .ok (some size) ↔
      sizeSaid? (peer.send (sizeQuery g name)).1 = some size := by
  rw [sizeSaid?, (ask_heard peer (sizeQuery g name)).said_eq, size?, ← sizeQuery]
  obtain ⟨_ | _ | v, after⟩ := ask peer (sizeQuery g name)
  · simp [Except.toOption]
  · simp [Except.toOption]
  · simp only [Except.toOption, Option.join_some, Option.bind_some]
    cases (v.at? ["result", "config", "params", "vectors", "size"]).bind
      Json.Value.natural? <;> simp

theorem size?_none :
    (g.size? peer name).1 = .ok none ↔
      status? (peer.send (sizeQuery g name)).1 = some 404 := by
  rw [← (ask_heard peer (sizeQuery g name)).unknown_iff, size?, ← sizeQuery]
  obtain ⟨_ | _ | v, after⟩ := ask peer (sizeQuery g name)
  · simp
  · simp
  · simp only
    cases (v.at? ["result", "config", "params", "vectors", "size"]).bind
      Json.Value.natural? <;> simp

theorem checkSize_isOk {expected actual : Nat} :
    checkSize name expected actual = .ok () ↔ actual = expected := by
  unfold checkSize
  split_ifs with same
  · simp [same]
  · simpa using Ne.symm same

/-- The server said that the collection has that size, when asked first or when it answered that
another party had made it, or it did not know the collection and said that it made it. -/
def Ensured (size : Nat) : Prop :=
  let asked := peer.send (sizeQuery g name)
  let made := asked.2.send (creation g name size)
  let again := made.2.send (sizeQuery g name)
  sizeSaid? asked.1 = some size ∨
    (status? asked.1 = some 404 ∧
      ((said? made.1).isSome ∨ (status? made.1 = some 409 ∧ sizeSaid? again.1 = some size)))

instance (size : Nat) : Decidable (Ensured g peer name size) :=
  inferInstanceAs (Decidable (_ ∨ (_ ∧ (_ ∨ (_ ∧ _)))))

/-- The server knew neither the collection nor a place to make it. -/
def Placeless (size : Nat) : Prop :=
  let asked := peer.send (sizeQuery g name)
  let made := asked.2.send (creation g name size)
  status? asked.1 = some 404 ∧ status? made.1 = some 404

theorem ensure_isOk {size : Nat} :
    (g.ensure peer name size).1 = .ok () ↔
      Ensured g peer name size ∨ Placeless g peer name size := by
  have known : (g.size? peer name).2 = (peer.send (sizeQuery g name)).2 := rfl
  have made := ask_heard (peer.send (sizeQuery g name)).2 (creation g name size)
  simp only [Ensured, Placeless, ← size?_some, ← size?_none, ← made.unknown_iff, made.said_iff,
    ← made.conflict_iff, ← ask_peer _ (creation g name size)]
  rw [← known, ensure, ← creation]
  obtain ⟨_ | _ | actual, asked⟩ := g.size? peer name
  · simp
  · simp only
    obtain ⟨e | _ | v, after⟩ := ask asked (creation g name size)
    · by_cases conflict : ∃ body, e = .api 409 body
      · obtain ⟨body, rfl⟩ := conflict
        simp only
        obtain ⟨_ | _ | actual, again⟩ := g.size? after name <;> simp [checkSize_isOk]
      · split
        next told => cases told
        next told => cases told; exact absurd ⟨_, rfl⟩ conflict
        next told => cases told; simp [conflict]
    · simp
    · simp
  · simp [checkSize_isOk]

theorem write_isOk (p : Point) (rest : List Point) :
    (g.write peer name (p :: rest)).1 = .ok () ↔
      (said? (peer.send (upload g name (p :: rest))).1).isSome := by
  rw [(ask_heard peer (upload g name (p :: rest))).said_iff, write, if_neg (by simp)]
  simp only
  rw [← upload]
  obtain ⟨_ | _ | v, after⟩ := ask peer (upload g name (p :: rest)) <;> simp

theorem write_peer (p : Point) (rest : List Point) :
    (g.write peer name (p :: rest)).2 = (peer.send (upload g name (p :: rest))).2 := by
  rw [← ask_peer, write, if_neg (by simp)]
  simp only
  rw [← upload]
  obtain ⟨_ | _ | v, after⟩ := ask peer (upload g name (p :: rest)) <;> rfl

theorem count_succ {f : Filter} {k : Nat} :
    (g.count peer name f).1 = .ok (k + 1) ↔
      countSaid? (peer.send (countQuery g name f)).1 = some (k + 1) := by
  rw [countSaid?, (ask_heard peer (countQuery g name f)).said_eq, count, ← countQuery]
  obtain ⟨_ | _ | v, after⟩ := ask peer (countQuery g name f)
  · simp [Except.toOption]
  · simp [Except.toOption]
  · simp only [Except.toOption, Option.join_some, Option.bind_some]
    cases (v.at? ["result", "count"]).bind Json.Value.natural? <;> simp

theorem delete_succ {f : Filter} {k : Nat} :
    (g.delete peer name f).1 = .ok (k + 1) ↔
      countSaid? (peer.send (countQuery g name f)).1 = some (k + 1) ∧
        ((said? ((peer.send (countQuery g name f)).2.send (removal g name f)).1).isSome ∨
          status? ((peer.send (countQuery g name f)).2.send (removal g name f)).1 = some 404) := by
  have counted : (g.count peer name f).2 = (peer.send (countQuery g name f)).2 := rfl
  have removed := ask_heard (peer.send (countQuery g name f)).2 (removal g name f)
  rw [← count_succ, removed.said_iff, ← removed.unknown_iff, ← counted, delete]
  simp only
  rw [← removal]
  obtain ⟨_ | _ | n, asked⟩ := g.count peer name f
  · simp
  · simp
  · simp only
    obtain ⟨_ | _ | v, after⟩ := ask asked (removal g name f) <;> simp

end Gateway

/-- What the success of a gateway's operations says about the server's answers, whatever these
are. A collection is ensured if and only if the server says its size or that it was made, or knows
of no place to make it; points are written if and only if the one answer says so; and points are
told as deleted if and only if the server says that there are as many and then that they were
deleted, or knows of nothing to delete from. -/
theorem gateway_assured (g : Gateway) (peer : Peer) (name : String) :
    (∀ size, (g.ensure peer name size).1 = .ok () ↔
      Gateway.Ensured g peer name size ∨ Gateway.Placeless g peer name size) ∧
    (∀ p rest,
      let sent := peer.send (Gateway.upload g name (p :: rest))
      ((g.write peer name (p :: rest)).1 = .ok () ↔ (Gateway.said? sent.1).isSome) ∧
        (g.write peer name (p :: rest)).2 = sent.2) ∧
    ∀ f k,
      let counted := peer.send (Gateway.countQuery g name f)
      let removed := counted.2.send (Gateway.removal g name f)
      (g.delete peer name f).1 = .ok (k + 1) ↔
        Gateway.countSaid? counted.1 = some (k + 1) ∧
          ((Gateway.said? removed.1).isSome ∨ Gateway.status? removed.1 = some 404) :=
  ⟨fun _ => Gateway.ensure_isOk g peer name,
    fun p rest => ⟨Gateway.write_isOk g peer name p rest, Gateway.write_peer g peer name p rest⟩,
    fun _ _ => Gateway.delete_succ g peer name⟩

namespace Sample

def gateway : Gateway := ⟨"http://[::1]:6333", none⟩

def unknown : Reply := .answer ⟨404, ""⟩

def barren : Peer := { replies := some [unknown, unknown] }

/-- A server that has two points, and then no longer knows of them. -/
def vanishing : Peer :=
  { replies := some [.answer ⟨200, "\x7b\"result\":\x7b\"count\":2\x7d\x7d"⟩, unknown] }

end Sample

/-- A server that knows of nothing lets a collection pass for made, and one that no longer knows
of what it had lets points pass for deleted. -/
theorem gateway_overlooks :
    (Sample.gateway.ensure Sample.barren "c" 3).1 = .ok () ∧
      ¬ Gateway.Ensured Sample.gateway Sample.barren "c" 3 ∧
      (Sample.gateway.delete Sample.vanishing "c" ⟨[("document_id", "d")], []⟩).1 = .ok 2 ∧
      Gateway.said? ((Sample.vanishing.send (Gateway.countQuery Sample.gateway "c"
        ⟨[("document_id", "d")], []⟩)).2.send (Gateway.removal Sample.gateway "c"
        ⟨[("document_id", "d")], []⟩)).1 = none := by
  refine ⟨by decide +kernel, by decide +kernel, by decide +kernel, by decide +kernel⟩

end IndexingPipeline
