import IndexingPipeline.Proofs.Rulings

/-!
# What vectors are said to cost

Providers, those that are played and those that are asked over the way, may say what a vector cost.
Two worlds are alike when their services answer alike but for that, and when they differ in nothing
else but in what revisions are said to cost. Runs of one job in two such worlds go side by side: what
a vector is said to cost is written down, and decides nothing.
-/

namespace IndexingPipeline

/-- Two answers have the same vector, or the same failure. -/
def Embedding.Same (x y : Except EmbeddingError Embedding) : Prop :=
  x.map (·.vector) = y.map (·.vector)

theorem Embedding.Same.cases {x y : Except EmbeddingError Embedding} (h : Embedding.Same x y) :
    (∃ e, x = .error e ∧ y = .error e) ∨
      ∃ a b : Embedding, x = .ok a ∧ y = .ok b ∧ b.vector = a.vector := by
  unfold Embedding.Same at h
  cases x with
  | error e =>
    cases y with
    | error f =>
      obtain rfl : e = f := by simpa [Except.map] using h
      exact .inl ⟨e, rfl, rfl⟩
    | ok b => simp [Except.map] at h
  | ok a =>
    cases y with
    | error f => simp [Except.map] at h
    | ok b => exact .inr ⟨a, b, rfl, rfl, by simpa [Except.map] using h.symm⟩

/-- In two turns the same happens, and every text has the same answer. -/
structure EmbedderTurn.Alike (t u : EmbedderTurn) : Prop where
  meanwhile : u.meanwhile = t.meanwhile
  answer : ∀ text, Embedding.Same (t.answer text) (u.answer text)

/-- Whoever reads two responses takes the same out of them, but for what a vector cost. -/
structure Response.Alike (a b : Response) : Prop where
  status : b.status = a.status
  body : a.isSuccess = false → b.body = a.body
  vector : ∀ p : Provider, Embedding.Same (p.embeddingOf (.ok a)) (p.embeddingOf (.ok b))
  grant : grantOf (.ok b) = grantOf (.ok a)
  result : a.value.map (·.get? "result") = b.value.map (·.get? "result")

inductive Reply.Alike : Reply → Reply → Prop
  | close : Reply.Alike .close .close
  | answer {a b : Response} : a.Alike b → Reply.Alike (.answer a) (.answer b)

structure Peer.Alike (p q : Peer) : Prop where
  replies : Option.Rel (List.Forall₂ Reply.Alike) p.replies q.replies
  received : q.received = p.received

def Revision.unpriced (r : Revision) : Revision := { r with totalTokens := 0 }

/-- Two lists of revisions differ in what these are said to cost. -/
def Revisions.Alike (rs rs' : Revisions) : Prop :=
  rs.map Revision.unpriced = rs'.map Revision.unpriced

/-- All of a world that depends on what vectors are said to cost. -/
structure Odds where
  peer : Peer
  turns : List EmbedderTurn
  usualTurn : EmbedderTurn
  revisions : Revisions

structure Odds.Alike (a b : Odds) : Prop where
  peer : a.peer.Alike b.peer
  turns : List.Forall₂ EmbedderTurn.Alike a.turns b.turns
  usualTurn : a.usualTurn.Alike b.usualTurn
  revisions : a.revisions.Alike b.revisions

namespace World

def odds (w : World) : Odds := ⟨w.desk.peer, w.turns, w.usualTurn, w.db.revisions⟩

def withOdds (w : World) (o : Odds) : World :=
  { w with
    desk := { w.desk with peer := o.peer }
    turns := o.turns
    usualTurn := o.usualTurn
    db := { w.db with revisions := o.revisions } }

/-- Two worlds differ in what vectors and revisions are said to cost. -/
structure Alike (w v : World) : Prop where
  rest : v = w.withOdds v.odds
  odds : w.odds.Alike v.odds

end World

/-! ## Services -/

inductive Answered : Except ExchangeError Response → Except ExchangeError Response → Prop
  | failed (e : ExchangeError) : Answered (.error e) (.error e)
  | given {a b : Response} : a.Alike b → Answered (.ok a) (.ok b)

theorem Peer.Alike.send {p q : Peer} (h : p.Alike q) (r : Request) :
    Answered (p.send r).1 (q.send r).1 ∧ (p.send r).2.Alike (q.send r).2 := by
  obtain ⟨replies, received⟩ := p
  obtain ⟨replies', received'⟩ := q
  obtain ⟨rel, same⟩ := h
  obtain rfl : received' = received := same
  unfold Peer.send
  split
  · exact ⟨.failed _, rel, rfl⟩
  split
  · exact ⟨.failed _, rel, rfl⟩
  cases rel with
  | none => exact ⟨.failed _, .none, rfl⟩
  | some rel =>
    cases rel with
    | nil => exact ⟨.failed _, .some .nil, rfl⟩
    | cons first rest =>
      cases first with
      | close => exact ⟨.failed _, .some rest, rfl⟩
      | answer alike => exact ⟨.given alike, .some rest, rfl⟩

theorem Answered.grant {x y : Except ExchangeError Response} (h : Answered x y) :
    grantOf y = grantOf x := by
  cases h with
  | failed e => rfl
  | given alike => exact alike.grant

theorem Answered.vector {x y : Except ExchangeError Response} (h : Answered x y) (p : Provider) :
    Embedding.Same (p.embeddingOf x) (p.embeddingOf y) := by
  cases h with
  | failed e => rfl
  | given alike => exact alike.vector p

namespace Gateway

/-- Two answers of a server have the same result, or the same failure. -/
def Same (x y : Except StoreError (Option Json.Value)) : Prop :=
  x.map (·.map (·.get? "result")) = y.map (·.map (·.get? "result"))

theorem Same.cases {x y : Except StoreError (Option Json.Value)} (h : Same x y) :
    (∃ e, x = .error e ∧ y = .error e) ∨ (x = .ok none ∧ y = .ok none) ∨
      ∃ a b : Json.Value, x = .ok (some a) ∧ y = .ok (some b) ∧
        ∀ path, b.at? ("result" :: path) = a.at? ("result" :: path) := by
  unfold Same at h
  rcases x with e | _ | a <;> rcases y with f | _ | b <;> simp [Except.map] at h
  · exact .inl ⟨e, rfl, by rw [h]⟩
  · exact .inr (.inl ⟨rfl, rfl⟩)
  · refine .inr (.inr ⟨a, b, rfl, rfl, fun path => ?_⟩)
    simp [Json.Value.at?, h]

theorem ask_alike {p q : Peer} (h : p.Alike q) (r : Request) :
    ∃ x y p' q', ask p r = (x, p') ∧ ask q r = (y, q') ∧ Same x y ∧ p'.Alike q' := by
  obtain ⟨answered, alike⟩ := h.send r
  refine ⟨(ask p r).1, (ask q r).1, (ask p r).2, (ask q r).2, rfl, rfl, ?_, alike⟩
  unfold ask
  simp only
  generalize (p.send r).1 = x at answered
  generalize (q.send r).1 = y at answered
  cases answered with
  | failed e => rfl
  | @given a b same =>
    have success : b.isSuccess = a.isSuccess := by
      unfold Response.isSuccess
      rw [same.status]
    simp only [same.status, success]
    split
    · rfl
    · split
      · rename_i failure
        rw [same.body (by simpa using failure)]
        rfl
      · have result := same.result
        unfold Same
        cases first : a.value <;> cases second : b.value <;>
          simp_all [Except.map]

/-- Two requests come to the same and leave peers that are alike. -/
def Agree {α : Type} (x y : α × Peer) : Prop :=
  ∃ a p q, x = (a, p) ∧ y = (a, q) ∧ p.Alike q

variable (g : Gateway) {p q : Peer} (h : p.Alike q) (name : String)
include h

theorem size?_alike : Agree (g.size? p name) (g.size? q name) := by
  obtain ⟨x, y, p', q', first, second, same, alike⟩ :=
    ask_alike h (g.request "GET" (collectionPath name) none)
  unfold size?
  rw [first, second]
  rcases same.cases with ⟨e, rfl, rfl⟩ | ⟨rfl, rfl⟩ | ⟨a, b, rfl, rfl, paths⟩
  · exact ⟨_, _, _, rfl, rfl, alike⟩
  · exact ⟨_, _, _, rfl, rfl, alike⟩
  · simp only [paths]
    exact ⟨_, _, _, rfl, rfl, alike⟩

theorem count_alike (f : Filter) : Agree (g.count p name f) (g.count q name f) := by
  obtain ⟨x, y, p', q', first, second, same, alike⟩ :=
    ask_alike h (g.request "POST" (collectionPath name ++ "/points/count")
      (some (.ofMembers [("filter", f.toValue), ("exact", .bool true)])))
  unfold count
  simp only [first, second]
  rcases same.cases with ⟨e, rfl, rfl⟩ | ⟨rfl, rfl⟩ | ⟨a, b, rfl, rfl, paths⟩
  · exact ⟨_, _, _, rfl, rfl, alike⟩
  · exact ⟨_, _, _, rfl, rfl, alike⟩
  · simp only [paths]
    exact ⟨_, _, _, rfl, rfl, alike⟩

/-- A collection that another party made in between has its size looked up once more. -/
theorem ensure_alike (size : Nat) : Agree (g.ensure p name size) (g.ensure q name size) := by
  obtain ⟨found, p', q', first, second, alike⟩ := g.size?_alike h name
  unfold ensure
  rw [first, second]
  rcases found with e | _ | actual
  · exact ⟨_, _, _, rfl, rfl, alike⟩
  · obtain ⟨x, y, p', q', first, second, same, alike⟩ :=
      ask_alike alike (g.request "PUT" (collectionPath name) (some (collectionShape size)))
    simp only [first, second]
    rcases same.cases with ⟨e, rfl, rfl⟩ | ⟨rfl, rfl⟩ | ⟨a, b, rfl, rfl, _⟩
    · by_cases conflict : ∃ body, e = .api 409 body
      · obtain ⟨body, rfl⟩ := conflict
        obtain ⟨found, p', q', first, second, again⟩ := g.size?_alike alike name
        simp only [first, second]
        rcases found with e | _ | actual <;> exact ⟨_, _, _, rfl, rfl, again⟩
      · refine ⟨.error e, p', q', ?_, ?_, alike⟩ <;> split <;> simp_all
    · exact ⟨_, _, _, rfl, rfl, alike⟩
    · exact ⟨_, _, _, rfl, rfl, alike⟩
  · exact ⟨_, _, _, rfl, rfl, alike⟩

theorem write_alike (batch : List Point) :
    Agree (g.write p name batch) (g.write q name batch) := by
  unfold write
  split
  · exact ⟨_, _, _, rfl, rfl, h⟩
  · obtain ⟨x, y, p', q', first, second, same, alike⟩ :=
      ask_alike h (g.request "PUT" (collectionPath name ++ "/points?wait=true")
        (some (.ofMembers [("points", .list (batch.map Point.toValue))])))
    simp only [first, second]
    rcases same.cases with ⟨e, rfl, rfl⟩ | ⟨rfl, rfl⟩ | ⟨a, b, rfl, rfl, _⟩ <;>
      exact ⟨_, _, _, rfl, rfl, alike⟩

theorem delete_alike (f : Filter) : Agree (g.delete p name f) (g.delete q name f) := by
  obtain ⟨counted, p', q', first, second, alike⟩ := g.count_alike h name f
  unfold delete
  rw [first, second]
  rcases counted with e | _ | n
  · exact ⟨_, _, _, rfl, rfl, alike⟩
  · exact ⟨_, _, _, rfl, rfl, alike⟩
  · obtain ⟨x, y, p', q', first, second, same, alike⟩ :=
      ask_alike alike (g.request "POST" (collectionPath name ++ "/points/delete?wait=true")
        (some (.ofMembers [("filter", f.toValue)])))
    simp only [first, second]
    rcases same.cases with ⟨e, rfl, rfl⟩ | ⟨rfl, rfl⟩ | ⟨a, b, rfl, rfl, _⟩ <;>
      exact ⟨_, _, _, rfl, rfl, alike⟩

end Gateway

/-- A token is asked for and kept as it is with a peer that is alike. -/
theorem TokenDesk.access_alike (desk : TokenDesk) {q : Peer} (h : desk.peer.Alike q)
    (env : Environment) (wall steady : Int) (requestId : String) (p : Provider) :
    ∃ q', TokenDesk.access { desk with peer := q } env wall steady requestId p =
        ((desk.access env wall steady requestId p).1,
          { (desk.access env wall steady requestId p).2 with peer := q' }) ∧
      (desk.access env wall steady requestId p).2.peer.Alike q' := by
  unfold TokenDesk.access
  cases p.auth with
  | none => exact ⟨q, rfl, h⟩
  | key name =>
    simp only
    split <;> exact ⟨q, rfl, h⟩
  | token url name scope =>
    simp only
    split
    · exact ⟨q, rfl, h⟩
    split
    · exact ⟨q, rfl, h⟩
    rename_i credentials _
    obtain ⟨answered, alike⟩ := h.send (tokenRequest url credentials scope requestId)
    refine ⟨(q.send (tokenRequest url credentials scope requestId)).2, ?_, ?_⟩
    · simp only [fetch, answered.grant]
      split
      · rfl
      · split <;> rfl
    · simp only [fetch]
      split
      · exact alike
      · split <;> exact alike

/-! ## Revisions -/

namespace Revisions

variable {rs rs' : Revisions} {f : Revision → Revision}

/-- Revisions are changed alike when the change does not go by what they are said to cost. -/
theorem Alike.map (h : rs.Alike rs') (blind : ∀ r, (f r).unpriced = (f r.unpriced).unpriced) :
    Revisions.Alike (rs.map f) (rs'.map f) := by
  have same : ∀ xs : Revisions, (xs.map f).map Revision.unpriced =
      (xs.map Revision.unpriced).map fun r => (f r).unpriced := by
    intro xs
    rw [List.map_map, List.map_map]
    exact List.map_congr_left fun r _ => blind r
  unfold Revisions.Alike at h ⊢
  rw [same, same, h]

theorem Alike.append (h : rs.Alike rs') (r : Revision) :
    Revisions.Alike (rs ++ [r]) (rs' ++ [r]) := by
  unfold Revisions.Alike at h ⊢
  rw [List.map_append, List.map_append, h]

theorem Alike.update (h : rs.Alike rs') (id : String) (c : RevisionChange) :
    (rs.update id c).Alike (rs'.update id c) := by
  refine h.map ?_
  intro r
  by_cases here : r.id = id
  · have there : r.unpriced.id = id := here
    rw [if_pos here, if_pos there]
    rfl
  · have elsewhere : ¬ r.unpriced.id = id := here
    rw [if_neg here, if_neg elsewhere]
    rfl

/-- To write down what a revision cost makes no other difference. -/
theorem Alike.priced (rs : Revisions) (id : String) (total : Int) :
    (rs.update id { totalTokens := some total }).Alike rs := by
  unfold Revisions.Alike Revisions.update
  rw [List.map_map]
  refine List.map_congr_left fun r _ => ?_
  rw [Function.comp_apply]
  split <;> rfl

theorem Alike.markFailed (h : rs.Alike rs') (ds : Documents) (now : Int) (id reason : String) :
    Revisions.Alike (rs.markFailed ds now id reason).2 (rs'.markFailed ds now id reason).2 := by
  refine h.map ?_
  intro r
  have open_alike : isOpen ds r.unpriced = isOpen ds r := rfl
  have same_id : r.unpriced.id = r.id := rfl
  simp only [open_alike, same_id]
  split <;> rfl

end Revisions

/-! ## Worlds -/

namespace World

/-- What is done in two worlds that are alike comes to the same and leaves worlds that are. -/
def Agree {α : Type} (x y : α × World) : Prop :=
  ∃ o, y = (x.1, x.2.withOdds o) ∧ x.2.odds.Alike o

variable {w : World} {o : Odds}

theorem interfereAll_withOdds (cfg : Config) (is : List Interference) (w : World) (o : Odds) :
    is.foldl (interfere cfg) (w.withOdds o) = (is.foldl (interfere cfg) w).withOdds o ∧
      (is.foldl (interfere cfg) w).odds = w.odds := by
  induction is generalizing w with
  | nil => exact ⟨rfl, rfl⟩
  | cons i rest ih =>
    have next : (w.withOdds o).interfere cfg i = (w.interfere cfg i).withOdds o := by
      cases i <;> rfl
    have kept : (w.interfere cfg i).odds = w.odds := by
      cases i <;> rfl
    rw [List.foldl_cons, List.foldl_cons, next, (ih _).1, (ih _).2, kept]
    exact ⟨rfl, rfl⟩

theorem turn_alike (h : w.odds.Alike o) :
    (w.turns.headD w.usualTurn).Alike (o.turns.headD o.usualTurn) ∧
      List.Forall₂ EmbedderTurn.Alike (w.turns.drop 1) (o.turns.drop 1) := by
  have turns : List.Forall₂ EmbedderTurn.Alike w.turns o.turns := h.turns
  generalize w.turns = xs at turns ⊢
  generalize o.turns = ys at turns ⊢
  cases turns with
  | nil => exact ⟨h.usualTurn, .nil⟩
  | cons first rest => exact ⟨first, rest⟩

theorem embed_alike (h : w.odds.Alike o) (s : Setup) (p : Provider) (token : Option String)
    (text : String) :
    Embedding.Same (w.embed s p token text).1 ((w.withOdds o).embed s p token text).1 ∧
      ∃ o', ((w.withOdds o).embed s p token text).2 = (w.embed s p token text).2.withOdds o' ∧
        (w.embed s p token text).2.odds.Alike o' := by
  unfold embed
  split
  · obtain ⟨answered, alike⟩ := h.peer.send (p.embeddingRequest token text)
    exact ⟨answered.vector p, { o with peer := (o.peer.send (p.embeddingRequest token text)).2 },
      rfl, { h with peer := alike }⟩
  · obtain ⟨turn, turns⟩ := turn_alike h
    refine ⟨turn.answer text, { o with turns := o.turns.drop 1 }, ?_⟩
    let asked : World := { w with
      turns := w.turns.drop 1, notes := w.notes ++ [.asked p.id p.model token text] }
    obtain ⟨same, kept⟩ := interfereAll_withOdds s.config (w.turns.headD w.usualTurn).meanwhile
      asked { o with turns := o.turns.drop 1 }
    refine ⟨?_, ?_⟩
    · rw [← same]
      exact congrArg (fun is => is.foldl (interfere s.config)
        (asked.withOdds { o with turns := o.turns.drop 1 })) turn.meanwhile
    · rw [kept]
      exact { h with turns }

theorem accessToken_alike (h : w.odds.Alike o) (p : Provider) :
    Agree (w.accessToken p) ((w.withOdds o).accessToken p) := by
  obtain ⟨q, same, alike⟩ :=
    w.desk.access_alike h.peer w.env w.now w.steady (Identifier.ofNat w.drawn) p
  refine ⟨{ o with peer := q }, ?_, { h with peer := alike }⟩
  exact congrArg (fun x : TokenAnswer × TokenDesk =>
    (x.1, { (w.withOdds o).draw.2 with desk := x.2 })) same

theorem asked_alike {α : Type} (h : w.odds.Alike o) {x y : α × Peer} (asked : Gateway.Agree x y) :
    Agree (x.1, { w with desk := { w.desk with peer := x.2 } })
      (y.1, { w.withOdds o with desk := { (w.withOdds o).desk with peer := y.2 } }) := by
  obtain ⟨answer, p, q, rfl, rfl, alike⟩ := asked
  exact ⟨{ o with peer := q }, rfl, { h with peer := alike }⟩

theorem ensureCollection_alike (h : w.odds.Alike o) (s : Setup) (name : String) (size : Nat) :
    Agree (w.ensureCollection s name size) ((w.withOdds o).ensureCollection s name size) := by
  unfold ensureCollection
  split
  · exact asked_alike h (Gateway.ensure_alike _ h.peer name size)
  · exact ⟨o, rfl, h⟩

theorem writePoints_alike (h : w.odds.Alike o) (s : Setup) (name : String) (batch : List Point) :
    Agree (w.writePoints s name batch) ((w.withOdds o).writePoints s name batch) := by
  unfold writePoints
  split
  · exact asked_alike h (Gateway.write_alike _ h.peer name batch)
  · exact ⟨o, rfl, h⟩

theorem deletePoints_alike (h : w.odds.Alike o) (s : Setup) (name : String) (f : Filter) :
    Agree (w.deletePoints s name f) ((w.withOdds o).deletePoints s name f) := by
  unfold deletePoints
  split
  · exact asked_alike h (Gateway.delete_alike _ h.peer name f)
  · exact ⟨o, rfl, h⟩

end World

/-! ## Runs -/

/-- The same stage with other reports of what vectors cost. -/
def Stage.reporting (usages : List (Option Nat)) : Stage → Stage
  | .chunking d => .chunking { d with usages }
  | .sizing d => .sizing { d with usages }
  | .admitting d => .admitting { d with usages }
  | .authorizing d => .authorizing { d with usages }
  | .embedding d left => .embedding { d with usages } left
  | .ensuring d => .ensuring { d with usages }
  | .writing d => .writing { d with usages }
  | .accounting d => .accounting { d with usages }
  | .switching d => .switching { d with usages }
  | .cleaning d previous => .cleaning { d with usages } previous
  | stage => stage

namespace Run

def reporting (usages : List (Option Nat)) (r : Run) : Run :=
  { r with stage := r.stage.reporting usages }

/-- Runs go side by side, whatever has been reported. -/
def Agree (x y : Run × World) : Prop :=
  ∃ usages o, y = (x.1.reporting usages, x.2.withOdds o) ∧ x.2.odds.Alike o

variable {s : Setup} {w : World} {o : Odds}

/-- A vector is kept or not whatever it is said to cost. -/
theorem keepVector_alike (d : Draft) (usages : List (Option Nat)) (left : List Chunk)
    {a b : Embedding} (same : b.vector = a.vector) :
    ∃ usages', keepVector { d with usages } left b = (keepVector d left a).reporting usages' := by
  refine ⟨usages ++ [b.usage], ?_⟩
  unfold keepVector
  simp only [same]
  split <;> rfl

theorem embedNext_alike (h : w.odds.Alike o) (d : Draft) (usages : List (Option Nat)) (c : Chunk)
    (left : List Chunk) :
    ∃ usages' o', embedNext s { d with usages } c left (w.withOdds o) =
        ((embedNext s d c left w).1.reporting usages', (embedNext s d c left w).2.withOdds o') ∧
      (embedNext s d c left w).2.odds.Alike o' := by
  obtain ⟨answers, o', next, alike⟩ := World.embed_alike h s d.provider d.token c.text
  unfold embedNext
  simp only
  generalize (w.withOdds o).embed s d.provider d.token c.text = y at answers next
  generalize w.embed s d.provider d.token c.text = x at answers next alike
  obtain ⟨first, v⟩ := x
  obtain ⟨second, _⟩ := y
  obtain rfl := next
  rcases answers.cases with ⟨e, rfl, rfl⟩ | ⟨a, b, rfl, rfl, same⟩
  · refine ⟨usages, o', ?_⟩
    simp only
    split <;> exact ⟨rfl, alike⟩
  · obtain ⟨usages', kept⟩ := keepVector_alike d usages left same
    exact ⟨usages', o', congrArg (Prod.mk · _) kept, alike⟩

/-- To account for a revision changes what it is said to cost, and no more. -/
theorem account_alike (d : Draft) (w : World) :
    ∃ rs, account d w = (.switching d, w.onRevisions fun _ => rs) ∧ rs.Alike w.db.revisions := by
  unfold account
  cases totalUsage d.usages with
  | none => exact ⟨w.db.revisions, rfl, rfl⟩
  | some total => exact ⟨_, rfl, .priced w.db.revisions d.revisionId (wrap64 total)⟩

theorem step_alike (r : Run) (usages : List (Option Nat)) (h : w.odds.Alike o) :
    Agree (step s r w) (step s (r.reporting usages) (w.withOdds o)) := by
  obtain ⟨job, holder, stage⟩ := r
  cases stage with
  | looking =>
    refine ⟨usages, o, ?_⟩
    have same : (w.withOdds o).db.actions = w.db.actions := rfl
    simp only [step, act, reporting, Stage.reporting, look, same]
    split
    · exact ⟨rfl, h⟩
    · split <;> exact ⟨rfl, h⟩
  | locking settings =>
    refine ⟨usages, o, ?_⟩
    have same : (w.withOdds o).acquire (World.lockLifetime s.config) job.workspaceId
        job.documentId = ((w.acquire (World.lockLifetime s.config) job.workspaceId
          job.documentId).1, (w.acquire (World.lockLifetime s.config) job.workspaceId
          job.documentId).2.withOdds o) := rfl
    have kept : (w.acquire (World.lockLifetime s.config) job.workspaceId
        job.documentId).2.odds = w.odds := rfl
    simp only [step, act, reporting, Stage.reporting, takeLock, same]
    generalize w.acquire _ _ _ = x at kept ⊢
    obtain ⟨answer, v⟩ := x
    cases answer <;> exact ⟨rfl, kept ▸ h⟩
  | opening settings =>
    have same : plan s (w.withOdds o).env job settings = plan s w.env job settings := rfl
    simp only [step, act, reporting, Stage.reporting, openRevision, same]
    split
    · exact ⟨usages, o, rfl, h⟩
    · rename_i policy provider _
      refine ⟨[], { o with revisions := _ }, rfl, { h with revisions := h.revisions.append _ }⟩
  | chunking d =>
    refine ⟨usages, o, ?_⟩
    have same : (w.withOdds o).db.documents = w.db.documents := rfl
    simp only [step, act, reporting, Stage.reporting, chunk, World.chunkDocument?, same]
    cases w.db.documents.document? job.workspaceId job.documentId <;> exact ⟨rfl, h⟩
  | sizing d =>
    simp only [step, act, reporting, Stage.reporting, size]
    split
    · exact ⟨usages, o, rfl, h⟩
    · exact ⟨usages, { o with revisions := _ }, rfl, { h with revisions := h.revisions.update _ _ }⟩
  | admitting d =>
    refine ⟨usages, o, ?_⟩
    simp only [step, act, reporting, Stage.reporting, askGate]
    split <;> exact ⟨rfl, h⟩
  | authorizing d =>
    obtain ⟨o', same, alike⟩ := World.accessToken_alike h d.provider
    simp only [step, act, reporting, Stage.reporting, authorize, same]
    generalize w.accessToken d.provider = x at alike ⊢
    obtain ⟨answer, v⟩ := x
    cases answer <;> exact ⟨usages, o', rfl, alike⟩
  | embedding d left =>
    cases left with
    | nil => exact ⟨usages, o, rfl, h⟩
    | cons c left =>
      obtain ⟨usages', o', same, alike⟩ := embedNext_alike (s := s) h d usages c left
      simp only [step, act, reporting, Stage.reporting, same]
      exact ⟨usages', o', rfl, alike⟩
  | ensuring d =>
    obtain ⟨o', same, alike⟩ := World.ensureCollection_alike h s (collection s job)
      ((d.vectors.head?.map List.length).getD 0)
    simp only [step, act, reporting, Stage.reporting, ensure, same]
    generalize w.ensureCollection s _ _ = x at alike ⊢
    obtain ⟨answer, v⟩ := x
    cases answer <;> exact ⟨usages, o', rfl, alike⟩
  | writing d =>
    have same : points job { d with usages } = points job d := rfl
    simp only [step, act, reporting, Stage.reporting, write, same]
    cases points job d with
    | error e => exact ⟨usages, o, rfl, h⟩
    | ok batch =>
      obtain ⟨o', same, alike⟩ := World.writePoints_alike h s (collection s job) batch
      simp only [same]
      generalize w.writePoints s _ _ = x at alike ⊢
      obtain ⟨answer, v⟩ := x
      cases answer <;> exact ⟨usages, o', rfl, alike⟩
  | accounting d =>
    obtain ⟨rs, first, before⟩ := account_alike d w
    obtain ⟨rs', second, after⟩ := account_alike { d with usages } (w.withOdds o)
    simp only [step, act, reporting, Stage.reporting, first, second]
    exact ⟨usages, { o with revisions := rs' }, rfl,
      { h with revisions := before.trans (h.revisions.trans after.symm) }⟩
  | switching d =>
    have same : (w.withOdds o).db.documents = w.db.documents := rfl
    simp only [step, act, reporting, Stage.reporting, switch, Database.switchIn?,
      Database.switch?, same]
    cases w.db.documents.document? job.workspaceId job.documentId with
    | none => exact ⟨usages, o, rfl, h⟩
    | some doc =>
      exact ⟨usages, { o with revisions := _ }, rfl,
        { h with revisions := h.revisions.update _ _ }⟩
  | cleaning d previous =>
    obtain ⟨o', same, alike⟩ := World.deletePoints_alike h s (collection s job)
      (.superseded job.workspaceId job.documentId d.revisionId)
    simp only [step, act, reporting, Stage.reporting, clean, same]
    exact ⟨usages, o', rfl, alike⟩
  | failing revision e =>
    cases revision with
    | none => exact ⟨usages, o, rfl, h⟩
    | some id =>
      exact ⟨usages, { o with revisions := _ }, rfl,
        { h with revisions := h.revisions.markFailed _ _ _ _ }⟩
  | settling e =>
    refine ⟨usages, o, ?_⟩
    have same : (w.withOdds o).db.jobs.retry s.config.worker (w.withOdds o).now job
      e.message = w.db.jobs.retry s.config.worker w.now job e.message := rfl
    simp only [step, act, reporting, Stage.reporting, settle, same]
    split
    · split <;> exact ⟨rfl, h⟩
    · exact ⟨rfl, h⟩
  | noting reason =>
    refine ⟨usages, o, ?_⟩
    have same : (w.withOdds o).db.actions = w.db.actions := rfl
    simp only [step, act, reporting, Stage.reporting, note, same]
    split <;> exact ⟨rfl, h⟩
  | refreshing outcome =>
    cases holder <;> exact ⟨usages, o, rfl, h⟩
  | releasing outcome => cases holder <;> exact ⟨usages, o, rfl, h⟩
  | deferring | marking | finished | crashed => exact ⟨usages, o, rfl, h⟩

theorem isOver_reporting (r : Run) (usages : List (Option Nat)) :
    (r.reporting usages).stage.isOver = r.stage.isOver := by
  obtain ⟨job, holder, stage⟩ := r
  cases stage <;> rfl

/-- Every step of two runs goes side by side, and so both end alike. -/
theorem complete_alike (r : Run) (usages : List (Option Nat)) (h : w.odds.Alike o) :
    Agree (complete s r w) (complete s (r.reporting usages) (w.withOdds o)) := by
  induction r, w using complete.induct s generalizing usages o with
  | case1 r w ended =>
    have ended' := (isOver_reporting r usages).trans ended
    rw [complete_eq_steps 0 ended, complete_eq_steps (r := r.reporting usages) 0 ended']
    exact ⟨usages, o, rfl, h⟩
  | case2 r w going ih =>
    have going : r.stage.isOver = false := by simpa using going
    have still := (isOver_reporting r usages).trans going
    obtain ⟨usages', o', stepped, alike⟩ := step_alike (s := s) r usages h
    rw [complete_step going, complete_step still, stepped]
    exact ih usages' alike

end Run

/-- A job has the same outcome in two worlds that are alike, and leaves worlds behind that are. -/
theorem World.process_alike (s : Setup) {w v : World} (alike : w.Alike v) (job : Job) :
    (v.process s job).1 = (w.process s job).1 ∧
      (w.process s job).2.Alike (v.process s job).2 := by
  obtain ⟨usages, o, ends, odds⟩ :=
    Run.complete_alike (s := s) (.start job) [] alike.odds
  rw [← alike.rest] at ends
  have start : (Run.start job).reporting [] = .start job := rfl
  rw [start] at ends
  constructor
  · unfold process
    rw [ends]
    obtain ⟨⟨_, _, stage⟩, v⟩ := Run.complete s (.start job) w
    cases stage <;> rfl
  · rw [process_world, process_world, ends]
    exact ⟨rfl, odds⟩

end IndexingPipeline
