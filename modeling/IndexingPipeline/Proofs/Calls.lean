import IndexingPipeline.Proofs.Frame

/-!
# The calls of a run

What a run asks of the services outside, with the answers that it gets. A step makes at most one
call, and does nothing to the services but that.
-/

namespace IndexingPipeline

/-- A call to a service outside, with its answer. -/
inductive Call where
  | token (p : Provider) (answer : TokenAnswer)
  | embed (p : Provider) (token : Option String) (text : String)
      (answer : Except EmbeddingError Embedding)
  | ensure (name : String) (size : Nat) (answer : Except StoreError Unit)
  | upsert (name : String) (batch : List Point) (answer : Except StoreError Unit)
  | cleanup (name : String) (f : Filter) (answer : Except StoreError Nat)

/-- What is known of a call before anything is asked. -/
inductive Question where
  | token (provider : String)
  | embed (provider text : String)
  | ensure (name : String)
  | upsert (name : String)
  | cleanup (name : String) (f : Filter)
  deriving DecidableEq

namespace Call

def question : Call → Question
  | .token p _ => .token p.id
  | .embed p _ text _ => .embed p.id text
  | .ensure name _ _ => .ensure name
  | .upsert name _ _ => .upsert name
  | .cleanup name f _ => .cleanup name f

/-- Whether a call came to what was asked for. -/
def succeeded : Call → Bool
  | .token _ (.given _) => true
  | .token _ _ => false
  | .embed _ _ _ answer => answer.isOk
  | .ensure _ _ answer => answer.isOk
  | .upsert _ _ answer => answer.isOk
  | .cleanup _ _ answer => answer.isOk

def vector? : Call → Option Vector32
  | .embed _ _ _ (.ok e) => some e.vector
  | _ => none

def batch? : Call → Option (List Point)
  | .upsert _ batch _ => some batch
  | _ => none

end Call

namespace World

/-- Whether a token for a provider has to be asked for: it wants one, none is at hand, and there
are credentials for one. -/
def asksToken (w : World) (p : Provider) : Bool :=
  match p.auth with
  | .none => false
  | .key _ => false
  | .token _ name _ =>
    (w.desk.cache.get? w.steady p.id).isNone && (w.env.credentials p.id name).isOk

theorem access_unasked {w : World} {p : Provider} (unasked : w.asksToken p = false) :
    (w.accessToken p).2.desk = w.desk := by
  unfold asksToken at unasked
  unfold accessToken TokenDesk.access
  cases auth : p.auth with
  | none => rfl
  | key name =>
    simp only
    split <;> rfl
  | token url name scope =>
    simp only [auth] at unasked
    simp only [draw]
    split
    · rfl
    · split
      · rfl
      · simp_all [Except.isOk, Except.toBool]

/-- What a call does to the world, and nothing else. -/
def afterCall (s : Setup) (w : World) : Option Call → World
  | none => w
  | some (.token p _) => (w.accessToken p).2
  | some (.embed p token text _) => (w.embed s p token text).2
  | some (.ensure name size _) => (w.ensureCollection s name size).2
  | some (.upsert name batch _) => (w.writePoints s name batch).2
  | some (.cleanup name f _) => (w.deletePoints s name f).2

/-- The services outside are in the same state. -/
structure SameOutside (w w' : World) : Prop where
  store : w'.store = w.store
  peer : w'.desk.peer = w.desk.peer
  turns : w'.turns = w.turns
  notes : w'.notes = w.notes

end World

namespace Run

def dims (d : Draft) : Nat := (d.vectors.head?.map List.length).getD 0

/-- The call that the next step makes, with the answer that it gets. -/
def call? (s : Setup) (r : Run) (w : World) : Option Call :=
  match r.stage with
  | .authorizing d =>
    if w.asksToken d.provider then some (.token d.provider (w.accessToken d.provider).1)
    else none
  | .embedding d (c :: _) =>
    some (.embed d.provider d.token c.text (w.embed s d.provider d.token c.text).1)
  | .ensuring d =>
    some (.ensure (collection s r.job) (dims d)
      (w.ensureCollection s (collection s r.job) (dims d)).1)
  | .writing d =>
    match points r.job d with
    | .error _ => none
    | .ok batch =>
      some (.upsert (collection s r.job) batch (w.writePoints s (collection s r.job) batch).1)
  | .cleaning d _ =>
    let f := Filter.superseded r.job.workspaceId r.job.documentId d.revisionId
    some (.cleanup (collection s r.job) f (w.deletePoints s (collection s r.job) f).1)
  | _ => none

/-- The calls of a run from where it is on, in their order. -/
def calls (s : Setup) (r : Run) (w : World) : List Call :=
  if _ : r.stage.isOver then []
  else (call? s r w).toList ++ calls s (step s r w).1 (step s r w).2
termination_by (r.stage.rank, r.stage.left)
decreasing_by exact step_nearer s r w (by simpa using ‹¬r.stage.isOver = true›)

/-- What every move keeps of a run and its calls so far still holds when the run is over. -/
theorem calls_keep {s : Setup} {I : Run → World → List Call → Prop}
    (keeps : ∀ r w r' w' log, I r w log → Move s r w r' w' →
      I r' w' (log ++ (call? s r w).toList))
    (r : Run) (w : World) (log : List Call) (start : I r w log) :
    I (complete s r w).1 (complete s r w).2 (log ++ calls s r w) := by
  induction r, w using complete.induct s generalizing log with
  | case1 r w ended =>
    rw [complete, calls, dif_pos ended, dif_pos ended, List.append_nil]
    exact start
  | case2 r w going ih =>
    rw [complete, calls, dif_neg going, dif_neg going, ← List.append_assoc]
    exact ih _ (keeps r w _ _ log start (step_move s r w (by simpa using going)))

/-- A run makes the calls of its steps, in their order. -/
theorem calls_eq_steps (s : Setup) (r : Run) (w : World) :
    ∃ n, complete s r w = steps s n r w ∧
      calls s r w = (List.range n).flatMap fun k =>
        (call? s (steps s k r w).1 (steps s k r w).2).toList := by
  induction r, w using complete.induct s with
  | case1 r w ended =>
    refine ⟨0, ?_, ?_⟩
    · rw [complete, dif_pos ended, steps]
    · rw [calls, dif_pos ended, List.range_zero, List.flatMap_nil]
  | case2 r w going ih =>
    obtain ⟨n, ends, log⟩ := ih
    refine ⟨n + 1, ?_, ?_⟩
    · rw [complete, dif_neg going, ends, steps]
    · rw [calls, dif_neg going, log, List.range_succ_eq_map, List.flatMap_cons, List.flatMap_map]
      rfl

/-- What a step does to the services outside is what its call does, and nothing if it makes
none. -/
theorem step_outside (s : Setup) (r : Run) (w : World) :
    (w.afterCall s (call? s r w)).SameOutside (step s r w).2 := by
  by_cases going : r.stage.isOver = true
  · rw [step_over s r w going]
    obtain ⟨job, h, stage⟩ := r
    cases stage <;> first | exact ⟨rfl, rfl, rfl, rfl⟩ | cases going
  have m := step_move s r w (by simpa using going)
  generalize (step s r w).1 = r', (step s r w).2 = w' at m
  cases m with
  | authorized d | refused d | stopped d =>
    by_cases asks : w.asksToken d.provider = true
    · simp only [call?, if_pos asks]
      exact ⟨rfl, rfl, rfl, rfl⟩
    · simp only [call?, if_neg asks]
      exact ⟨rfl, by rw [World.access_unasked (by simpa using asks)]; rfl, rfl, rfl⟩
  | unrendered d e rendered =>
    simp only [call?, rendered]
    exact ⟨rfl, rfl, rfl, rfl⟩
  | written d batch rendered | unwritten d batch e rendered =>
    simp only [call?, rendered]
    exact ⟨rfl, rfl, rfl, rfl⟩
  | _ => exact ⟨rfl, rfl, rfl, rfl⟩

end Run

end IndexingPipeline
